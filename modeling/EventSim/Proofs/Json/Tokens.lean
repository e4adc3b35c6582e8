import EventSim.Json.Reader
import EventSim.Json.Value
import Mathlib.Tactic.SplitIfs

/-!
# Strings and integers read back

A string can be spelled in many ways: a character may stand for itself, be escaped by a letter, by
its number in digits of either case, or by the numbers of a pair of surrogates.  **Every spelling of
a string is read as that string** (`readString_spelled`), whatever follows the closing quote, and
what `quote` writes is one of the spellings.  The text of an integer of 64 bits is read back as that
integer, unless what follows could still belong to a number.  Blanks in front of either do not
count.
-/

namespace EventSim.Json

variable {s rest text before cs ts : List Char} {c : Char} {n : Nat}

/-! ### Blanks -/

/-- Nothing but blanks. -/
def Blank (s : List Char) : Prop := ∀ c ∈ s, isSpace c = true

instance : DecidablePred Blank := fun s => List.decidableBAll (fun c => isSpace c = true) s

theorem blank_nil : Blank [] := List.forall_mem_nil _

theorem skipSpace_append (h : Blank before) (s : List Char) :
    skipSpace (before ++ s) = skipSpace s :=
  List.dropWhile_append_of_pos h

theorem skipSpace_cons (h : isSpace c = false) : skipSpace (c :: s) = c :: s :=
  List.dropWhile_cons_of_neg (by simp [h])

/-- The first token after blanks. -/
theorem skipSpace_blank (hb : Blank before) (h : isSpace c = false) :
    skipSpace (before ++ c :: s) = c :: s := by
  rw [skipSpace_append hb, skipSpace_cons h]

/-! ### Spellings -/

/-- Four hexadecimal digits of either case and their number. -/
inductive Hex : List Char → Nat → Prop
  | digits {a b c d : Char} {i j k l : Nat} (ha : hexValue? a = some i) (hb : hexValue? b = some j)
      (hc : hexValue? c = some k) (hd : hexValue? d = some l) :
      Hex [a, b, c, d] (((i * 16 + j) * 16 + k) * 16 + l)

/-- What may follow a backslash that a character is spelled with: a letter, its number, or the
numbers of a pair of surrogates. -/
inductive Escapes (c : Char) : List Char → Prop
  | letter {l : Char} (hl : (l, c) ∈ letterEscapes) : Escapes c [l]
  | number {ds : List Char} (hds : Hex ds c.toNat) : Escapes c ('u' :: ds)
  | pair {ds es : List Char} {high low : Nat} (hds : Hex ds high) (hes : Hex es low)
      (hhigh : 0xD800 ≤ high ∧ high ≤ 0xDBFF) (hlow : 0xDC00 ≤ low ∧ low ≤ 0xDFFF)
      (hc : c.toNat = (high - 0xD800) * 0x400 + (low - 0xDC00) + 0x10000) :
      Escapes c ('u' :: (ds ++ '\\' :: 'u' :: es))

/-- The ways to spell a character inside a string. -/
inductive Spells (c : Char) : List Char → Prop
  | plain (hquote : c ≠ '"') (hback : c ≠ '\\') (hlow : 32 ≤ c.toNat) : Spells c [c]
  | escaped {t : List Char} (ht : Escapes c t) : Spells c ('\\' :: t)

/-- The ways to spell the characters of a string one by one. -/
inductive Spelled : List Char → List Char → Prop
  | nil : Spelled [] []
  | cons {c : Char} {t cs ts : List Char} (ht : Spells c t) (hts : Spelled cs ts) :
      Spelled (c :: cs) (t ++ ts)

/-- The texts of a string, with its quotes. -/
def StringText (s : String) (text : List Char) : Prop :=
  ∃ ts, Spelled s.toList ts ∧ text = '"' :: (ts ++ ['"'])

theorem readHex_append (h : Hex s n) (rest : List Char) : readHex (s ++ rest) = .ok (n, rest) := by
  cases h with
  | digits ha hb hc hd => simp [readHex, ha, hb, hc, hd]

theorem lookup_letterEscapes :
    ∀ p ∈ letterEscapes, letterEscapes.lookup p.1 = some p.2 ∧ p.1 ≠ 'u' := by
  decide

/-- The number of a character is no half of a pair. -/
theorem joinSurrogates_toNat (c : Char) (rest : List Char) :
    joinSurrogates c.toNat rest = .ok (c, rest) := by
  have hvalid : c.toNat < 0xD800 ∨ 0xDFFF < c.toNat ∧ c.toNat < 0x110000 := c.valid
  unfold joinSurrogates
  rw [if_neg (by omega), if_pos (by omega), Char.ofNat_toNat]

theorem joinSurrogates_pair {high low : Nat} (hs : Hex s low)
    (hhigh : 0xD800 ≤ high ∧ high ≤ 0xDBFF) (hlow : 0xDC00 ≤ low ∧ low ≤ 0xDFFF)
    (hc : c.toNat = (high - 0xD800) * 0x400 + (low - 0xDC00) + 0x10000) (rest : List Char) :
    joinSurrogates high ('\\' :: 'u' :: (s ++ rest)) = .ok (c, rest) := by
  unfold joinSurrogates
  rw [if_neg (by omega), if_neg (by omega)]
  simp only [readHex_append hs]
  rw [if_neg (by omega), ← hc, Char.ofNat_toNat]

theorem readEscape_append (h : Escapes c s) (rest : List Char) :
    readEscape (s ++ rest) = .ok (c, rest) := by
  cases h with
  | letter hl =>
    obtain ⟨hlookup, hu⟩ := lookup_letterEscapes _ hl
    rw [List.cons_append, readEscape, if_neg hu, hlookup]
    rfl
  | number hds =>
    rw [List.cons_append, readEscape, if_pos rfl, readHex_append hds]
    exact joinSurrogates_toNat c rest
  | pair hds hes hhigh hlow hc =>
    rw [List.cons_append, List.append_assoc, readEscape, if_pos rfl, readHex_append hds]
    exact joinSurrogates_pair hes hhigh hlow hc rest

theorem readString_quote : readString ('"' :: rest) = .ok ([], rest) := by
  rw [readString]
  rfl

/-- A character that an escape stands for is read, and then the rest. -/
theorem readString_escaped {s' : List Char} (hc : readEscape s = .ok (c, s'))
    (h : readString s' = .ok (text, rest)) : readString ('\\' :: s) = .ok (c :: text, rest) := by
  rw [readString, if_neg (by decide), if_pos rfl]
  split
  · rename_i he
    cases hc.symm.trans he
  · rename_i he
    cases hc.symm.trans he
    simp only [h]

/-- A character is read that needs no escape, and then the rest. -/
theorem readString_plain (hq : c ≠ '"') (hb : c ≠ '\\') (hc : ¬ c.toNat < 32)
    (h : readString s = .ok (text, rest)) : readString (c :: s) = .ok (c :: text, rest) := by
  rw [readString, if_neg hq, if_neg hb, if_neg hc, h]

theorem readString_spells (h : Spells c s) (hr : readString ts = .ok (cs, rest)) :
    readString (s ++ ts) = .ok (c :: cs, rest) := by
  cases h with
  | plain hquote hback hlow => exact readString_plain hquote hback (by omega) hr
  | escaped ht => exact readString_escaped (readEscape_append ht ts) hr

/-- Every spelling of a string is read as that string. -/
theorem readString_spelled (h : Spelled cs ts) (rest : List Char) :
    readString (ts ++ '"' :: rest) = .ok (cs, rest) := by
  induction h with
  | nil => exact readString_quote
  | cons ht _ ih =>
    rw [List.append_assoc]
    exact readString_spells ht ih

theorem string_text {v : String} (h : StringText v s) (hb : Blank before) (rest : List Char) :
    string (before ++ (s ++ rest)) = .ok (v, rest) := by
  obtain ⟨ts, hts, rfl⟩ := h
  unfold string
  simp only [List.cons_append, List.append_assoc, List.nil_append]
  rw [skipSpace_blank hb (by decide)]
  simp only [readString_spelled hts]
  exact congrArg (fun t => Except.ok (t, rest)) String.ofList_toList

/-! ### What is written is one of the spellings -/

theorem hexValue?_hexDigit (h : n < 16) : hexValue? (hexDigit n) = some n := by
  have hall : ∀ m : Fin 16, hexValue? (hexDigit m) = some m.1 := by decide
  exact hall ⟨n, h⟩

theorem hex_hexDigit (h : n < 32) : Hex ['0', '0', hexDigit (n / 16), hexDigit (n % 16)] n := by
  have hn : ((0 * 16 + 0) * 16 + n / 16) * 16 + n % 16 = n := by omega
  have hzero : hexValue? '0' = some 0 := by decide
  have hx := Hex.digits hzero hzero (hexValue?_hexDigit (show n / 16 < 16 by omega))
    (hexValue?_hexDigit (Nat.mod_lt n (by decide : 0 < 16)))
  rwa [hn] at hx

theorem spells_escape (c : Char) : Spells c (escape c) := by
  unfold escape
  split_ifs with hquote hback h8 h9 ha hc hd hlow
  · exact .escaped (.letter (by rw [hquote]; decide))
  · exact .escaped (.letter (by rw [hback]; decide))
  · exact .escaped (.letter (by rw [h8]; decide))
  · exact .escaped (.letter (by rw [h9]; decide))
  · exact .escaped (.letter (by rw [ha]; decide))
  · exact .escaped (.letter (by rw [hc]; decide))
  · exact .escaped (.letter (by rw [hd]; decide))
  · exact .escaped (.number (hex_hexDigit hlow))
  · exact .plain hquote hback (by omega)

theorem spelled_flatMap_escape (cs : List Char) : Spelled cs (cs.flatMap escape) := by
  induction cs with
  | nil => exact .nil
  | cons c cs ih => exact .cons (spells_escape c) ih

theorem stringText_quote (s : String) : StringText s (quote s.toList) :=
  ⟨_, spelled_flatMap_escape s.toList, rfl⟩

/-- A string that was written between quotes is read back. -/
theorem readString_flatMap_escape (s rest : List Char) :
    readString (s.flatMap escape ++ '"' :: rest) = .ok (s, rest) :=
  readString_spelled (spelled_flatMap_escape s) rest

theorem string_quote (hb : Blank before) (s : String) (rest : List Char) :
    string (before ++ (quote s.toList ++ rest)) = .ok (s, rest) :=
  string_text (stringText_quote s) hb rest

/-! ### Integers -/

/-- What follows cannot belong to a number. -/
def Ends (rest : List Char) : Prop :=
  ∀ c ∈ rest.head?, c.isDigit = false ∧ c ≠ '.' ∧ c ≠ 'e' ∧ c ≠ 'E'

theorem Ends.startsWithDigit (h : Ends rest) : startsWithDigit rest = false := by
  unfold Json.startsWithDigit
  cases hr : rest.head? with
  | none => rfl
  | some c => exact (h c hr).1

theorem Ends.finishNumber (h : Ends rest) (positive : Bool) (word : Nat) :
    finishNumber positive word rest =
      if positive then .ok (.integer word, rest)
      else if word = 0 ∨ Nat.pow 2 63 < word then .ok (.float (.ofRatio true word 1), rest)
      else .ok (.integer (-word), rest) := by
  unfold Json.finishNumber
  split
  · exact absurd rfl (h '.' rfl).2.1
  · exact absurd rfl (h 'e' rfl).2.2.1
  · exact absurd rfl (h 'E' rfl).2.2.2
  · rfl

theorem le_ofDigitChars (ds : List Char) (word : Nat) : word ≤ Nat.ofDigitChars 10 ds word := by
  rw [Nat.ofDigitChars_eq_ofDigitChars_zero]
  exact Nat.le_add_right_of_le (Nat.le_mul_of_pos_left word (Nat.pow_pos (by decide)))

/-- Digits whose number is within the limit are gathered up to the last one. -/
theorem gather_digits {limit word : Nat} {ds : List Char} (hd : ∀ c ∈ ds, c.isDigit = true)
    (hl : Nat.ofDigitChars 10 ds word ≤ limit) (hr : startsWithDigit rest = false) :
    gather limit word (ds ++ rest) = (Nat.ofDigitChars 10 ds word, ds.length, rest) := by
  induction ds generalizing word with
  | nil =>
    cases rest with
    | nil => rfl
    | cons c rest =>
      have hc : c.isDigit = false := hr
      simp [gather, hc]
  | cons c ds ih =>
    have hword : 10 * word + (c.toNat - '0'.toNat) = word * 10 + digitValue c :=
      congrArg (· + _) (Nat.mul_comm 10 word)
    rw [Nat.ofDigitChars_cons, hword] at hl ⊢
    have hc : c.isDigit = true ∧ word * 10 + digitValue c ≤ limit :=
      ⟨hd c List.mem_cons_self, Nat.le_trans (le_ofDigitChars ds _) hl⟩
    rw [List.cons_append, gather, if_pos hc, ih (fun d h => hd d (List.mem_cons_of_mem _ h)) hl]
    rfl

theorem isDigit_toDigits (n : Nat) : ∀ c ∈ Nat.toDigits 10 n, c.isDigit = true :=
  fun _ h => Nat.isDigit_of_mem_toDigits (by decide) (by decide) h

/-- A positive number does not start with a zero. -/
theorem toDigits_eq_cons (h : 0 < n) : ∃ c ds, Nat.toDigits 10 n = c :: ds ∧ c ≠ '0' := by
  induction n using Nat.strongRecOn with
  | ind n ih =>
    by_cases hn : n < 10
    · have hall : ∀ m : Fin 10, 0 < m.1 → Nat.digitChar m ≠ '0' := by decide
      exact ⟨_, [], Nat.toDigits_of_lt_base hn, hall ⟨n, hn⟩ h⟩
    · obtain ⟨c, ds, hds, hc⟩ := ih (n / 10) (by omega) (by omega)
      refine ⟨c, ds ++ [Nat.digitChar (n % 10)], ?_, hc⟩
      rw [Nat.toDigits_of_base_le (by decide) (by omega), hds, List.cons_append]

/-- The digits of a number of 64 bits lead to its end. -/
theorem readNumber_toDigits (positive : Bool) (hn : n ≤ wordMax) (hr : Ends rest) :
    readNumber positive (Nat.toDigits 10 n ++ rest) = finishNumber positive n rest := by
  rcases Nat.eq_zero_or_pos n with rfl | hpos
  · have hz : Nat.toDigits 10 0 ++ rest = '0' :: rest := rfl
    rw [hz, readNumber, hr.startsWithDigit]
    rfl
  · obtain ⟨c, ds, hds, hc⟩ := toDigits_eq_cons hpos
    have hdigits := isDigit_toDigits n
    have hval : Nat.ofDigitChars 10 (Nat.toDigits 10 n) 0 = n :=
      Nat.ofDigitChars_toDigits (by decide) (by decide)
    rw [hds] at hdigits hval ⊢
    have hg : gather wordMax 0 (c :: (ds ++ rest)) = (n, (c :: ds).length, rest) := by
      have hlimit := Nat.le_trans (Nat.le_of_eq hval) hn
      have hg := gather_digits hdigits hlimit hr.startsWithDigit
      rwa [hval] at hg
    have hs : startsWithDigit (c :: (ds ++ rest)) = true := hdigits c List.mem_cons_self
    rw [List.cons_append, readNumber]
    · simp only [hs, hg, hr.startsWithDigit, Bool.not_true, Bool.false_eq_true, if_false]
    · exact nofun
    · rintro _ ⟨rfl, -⟩
      exact hc rfl

theorem isSpace_of_isDigit (h : c.isDigit = true) : isSpace c = false := by
  unfold isSpace
  simp only [Bool.or_eq_false_iff, beq_eq_false_iff_ne]
  refine ⟨⟨⟨?_, ?_⟩, ?_⟩, ?_⟩ <;> rintro rfl <;> cases h

/-- An integer of 64 bits, with or without a sign. -/
def Fits (n : Int) : Prop := -9223372036854775808 ≤ n ∧ n ≤ 18446744073709551615

theorem readNumber_of_neg {n : Int} (hf : Fits n) (hn : n < 0) (hr : Ends rest) :
    readNumber false (Nat.toDigits 10 n.natAbs ++ rest) = .ok (.integer n, rest) := by
  have hmax : wordMax = 18446744073709551615 := rfl
  have hpow : Nat.pow 2 63 = 9223372036854775808 := rfl
  unfold Fits at hf
  rw [readNumber_toDigits false (by omega) hr, hr.finishNumber, if_neg (by decide),
    if_neg (by omega)]
  congr 3
  omega

theorem readNumber_of_nonneg {n : Int} (hf : Fits n) (hn : ¬ n < 0) (hr : Ends rest) :
    readNumber true (Nat.toDigits 10 n.natAbs ++ rest) = .ok (.integer n, rest) := by
  have hmax : wordMax = 18446744073709551615 := rfl
  unfold Fits at hf
  rw [readNumber_toDigits true (by omega) hr, hr.finishNumber, if_pos rfl]
  congr 3
  omega

/-- An integer that was written is read back by the reader of a range that it lies in. -/
theorem integer_integerText {n low high : Int} (hb : Blank before)
    (hf : Fits n) (hn : low ≤ n ∧ n ≤ high) (hr : Ends rest) (expected : String) :
    integer low high expected (before ++ (Value.integerText n ++ rest)) = .ok (n, rest) := by
  unfold Value.integerText integer
  split
  · rename_i hneg
    rw [List.cons_append, skipSpace_blank hb (by decide)]
    simp only [readNumber_of_neg hf hneg hr]
    exact if_pos hn
  · rename_i hneg
    have hne : Nat.toDigits 10 n.natAbs ≠ [] := Nat.toDigits_ne_nil
    obtain ⟨c, ds, hds⟩ := List.exists_cons_of_ne_nil hne
    have hc : c.isDigit = true := isDigit_toDigits n.natAbs c (hds ▸ List.mem_cons_self)
    have hread := readNumber_of_nonneg hf hneg hr
    rw [hds, List.cons_append] at hread ⊢
    rw [skipSpace_blank hb (isSpace_of_isDigit hc)]
    dsimp only
    split
    · rename_i hm
      cases hm
      cases hc
    · rename_i hm
      cases hm
      rw [if_pos hc, hread]
      exact if_pos hn
    · rename_i hm
      cases hm

end EventSim.Json
