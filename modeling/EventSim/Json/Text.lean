import EventSim.Json.Fault

/-! # JSON strings

`quote` writes a string: the quote, the backslash and the control characters are escaped, the five
common ones by a letter and the others by their number in four lower-case hexadecimal digits; every
other character stands for itself. `readString` reads what follows an opening quote; it takes every
escape of the grammar, joins surrogate pairs, and refuses a control character and half a pair.
`skipString` finds the closing quote of a string that nobody looks at and lets halves of pairs
pass.
-/

namespace EventSim.Json

/-! ### Writing -/

/-- A hexadecimal digit. -/
def hexDigit (n : Nat) : Char := if n < 10 then Char.ofNat (48 + n) else Char.ofNat (87 + n)

/-- One character inside a string. -/
def escape (c : Char) : List Char :=
  if c = '"' then ['\\', '"']
  else if c = '\\' then ['\\', '\\']
  else if c = '\x08' then ['\\', 'b']
  else if c = '\x09' then ['\\', 't']
  else if c = '\x0a' then ['\\', 'n']
  else if c = '\x0c' then ['\\', 'f']
  else if c = '\x0d' then ['\\', 'r']
  else if c.toNat < 32 then ['\\', 'u', '0', '0', hexDigit (c.toNat / 16), hexDigit (c.toNat % 16)]
  else [c]

/-- A string between quotes. -/
def quote (s : List Char) : List Char := '"' :: s.flatMap escape ++ ['"']

/-! ### Reading -/

/-- The value of a hexadecimal digit of either case. -/
def hexValue? (c : Char) : Option Nat :=
  if '0' ≤ c ∧ c ≤ '9' then some (c.toNat - 48)
  else if 'a' ≤ c ∧ c ≤ 'f' then some (c.toNat - 87)
  else if 'A' ≤ c ∧ c ≤ 'F' then some (c.toNat - 55)
  else none

/-- The number of four hexadecimal digits at the front. A text of fewer than four bytes is too
short, whatever it holds. -/
def readHex (s : List Char) : Except Fault (Nat × List Char) :=
  match s with
  | a :: b :: c :: d :: rest =>
    match hexValue? a, hexValue? b, hexValue? c, hexValue? d with
    | some a, some b, some c, some d => .ok (((a * 16 + b) * 16 + c) * 16 + d, rest)
    | _, _, _, _ => .error .invalidEscape
  | short =>
    if short.foldr (fun c n => c.utf8Size + n) 0 < 4 then .error (.endOfText .string)
    else .error .invalidEscape

/-- The character of an escape by number, `n` being the first number. -/
def joinSurrogates (n : Nat) (s : List Char) : Except Fault (Char × List Char) :=
  if 0xDC00 ≤ n ∧ n ≤ 0xDFFF then .error .loneSurrogate
  else if n < 0xD800 ∨ 0xDBFF < n then .ok (Char.ofNat n, s)
  else
    match s with
    | [] => .error (.endOfText .string)
    | '\\' :: [] => .error (.endOfText .string)
    | '\\' :: 'u' :: rest =>
      match readHex rest with
      | .error e => .error e
      | .ok (m, rest) =>
        if m < 0xDC00 ∨ 0xDFFF < m then .error .loneSurrogate
        else .ok (Char.ofNat ((n - 0xD800) * 0x400 + (m - 0xDC00) + 0x10000), rest)
    | _ => .error .unfinishedSurrogate

/-- The escapes of one letter and what they stand for. -/
def letterEscapes : List (Char × Char) :=
  [('"', '"'), ('\\', '\\'), ('/', '/'), ('b', '\x08'), ('f', '\x0c'), ('n', '\x0a'),
    ('r', '\x0d'), ('t', '\x09')]

/-- The character of an escape, after its backslash. -/
def readEscape : List Char → Except Fault (Char × List Char)
  | [] => .error (.endOfText .string)
  | c :: rest =>
    if c = 'u' then
      match readHex rest with
      | .error e => .error e
      | .ok (n, rest) => joinSurrogates n rest
    else
      match letterEscapes.lookup c with
      | some d => .ok (d, rest)
      | none => .error .invalidEscape

theorem length_of_readHex {s rest : List Char} {n : Nat} (h : readHex s = .ok (n, rest)) :
    rest.length < s.length := by
  unfold readHex at h
  split at h
  · split at h
    · cases h; simp only [List.length_cons]; omega
    · cases h
  · split at h <;> cases h

theorem length_of_joinSurrogates {s rest : List Char} {n : Nat} {c : Char}
    (h : joinSurrogates n s = .ok (c, rest)) : rest.length ≤ s.length := by
  unfold joinSurrogates at h
  split at h
  · cases h
  · split at h
    · cases h; exact Nat.le_refl _
    · split at h
      · cases h
      · cases h
      · split at h
        · cases h
        · rename_i he
          have := length_of_readHex he
          split at h
          · cases h
          · simp only [Except.ok.injEq, Prod.mk.injEq] at h
            rw [← h.2]
            simp only [List.length_cons]; omega
      · cases h

theorem length_of_readEscape {s rest : List Char} {c : Char}
    (h : readEscape s = .ok (c, rest)) : rest.length < s.length := by
  cases s with
  | nil => cases h
  | cons d tail =>
    simp only [readEscape] at h
    split at h
    · split at h
      · cases h
      · rename_i he
        have := length_of_readHex he
        have := length_of_joinSurrogates h
        simp only [List.length_cons]; omega
    · split at h
      · cases h; exact Nat.lt_succ_self _
      · cases h

/-- The characters up to the closing quote, and what follows it. -/
def readString (s : List Char) : Except Fault (List Char × List Char) :=
  match s with
  | [] => .error (.endOfText .string)
  | c :: rest =>
    if c = '"' then .ok ([], rest)
    else if c = '\\' then
      match h : readEscape rest with
      | .error e => .error e
      | .ok (d, rest') =>
        have := length_of_readEscape h
        match readString rest' with
        | .error e => .error e
        | .ok (text, after) => .ok (d :: text, after)
    else if c.toNat < 32 then .error .controlCharacter
    else
      match readString rest with
      | .error e => .error e
      | .ok (text, after) => .ok (c :: text, after)
termination_by s.length
decreasing_by
  · simp only [List.length_cons]; omega
  · simp only [List.length_cons]; omega

/-- What follows the escape after a backslash, whatever it stands for. -/
def skipEscape : List Char → Except Fault (List Char)
  | [] => .error (.endOfText .string)
  | c :: rest =>
    if c = 'u' then (readHex rest).map (·.2)
    else if (letterEscapes.lookup c).isSome then .ok rest
    else .error .invalidEscape

theorem length_of_skipEscape {s rest : List Char} (h : skipEscape s = .ok rest) :
    rest.length < s.length := by
  cases s with
  | nil => cases h
  | cons d tail =>
    simp only [skipEscape] at h
    split at h
    · cases hx : readHex tail with
      | error e => rw [hx] at h; cases h
      | ok r =>
        rw [hx] at h
        cases h
        have := length_of_readHex hx
        simp only [List.length_cons]; omega
    · split at h
      · cases h; exact Nat.lt_succ_self _
      · cases h

/-- What follows the closing quote. -/
def skipString (s : List Char) : Except Fault (List Char) :=
  match s with
  | [] => .error (.endOfText .string)
  | c :: rest =>
    if c = '"' then .ok rest
    else if c = '\\' then
      match h : skipEscape rest with
      | .error e => .error e
      | .ok after =>
        have := length_of_skipEscape h
        skipString after
    else if c.toNat < 32 then .error .controlCharacter
    else skipString rest
termination_by s.length
decreasing_by
  · simp only [List.length_cons]; omega
  · simp only [List.length_cons]; omega

end EventSim.Json
