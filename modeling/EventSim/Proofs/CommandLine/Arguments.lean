import EventSim.CommandLine.Options
import Mathlib.Data.List.TakeWhile
import Mathlib.Tactic.SplitIfs

/-!
# The grammar of the arguments

A setting is an option together with the value that it has.  `Word` says how one argument spells
options: a long name, with the value behind an equals sign or without it, or letters, of which all
but the last are switches.  An option at the end of an argument may wait for the next argument to be
its value, and `Spells` puts the arguments together.

`Options.read_eq_ok_iff`: **arguments are read exactly if they spell settings of different options,
and they give these settings.**
-/

namespace EventSim.CommandLine

/-! ### Values -/

/-- Decimal digits, with or without a plus sign, that stand for a number below `2 ^ 64`. -/
def Numeral (n : Nat) (text : List Char) : Prop :=
  ∃ digits : List Char, (text = digits ∨ text = '+' :: digits) ∧ digits ≠ [] ∧
    (∀ c ∈ digits, c.isDigit) ∧ Nat.ofDigitChars 10 digits 0 = n ∧ n < UInt64.size

/-- An option with its value. -/
inductive Setting where
  | seed (n : UInt64)
  | scenario (name : String)
  | scheduler (name : String)
  | events (n : Nat)
  | config (path : String)
  | metrics (path : String)
  | verbose
  | json

namespace Setting

/-- The option that is set. -/
def flag : Setting → Flag
  | seed _ => .seed
  | scenario _ => .scenario
  | scheduler _ => .scheduler
  | events _ => .events
  | config _ => .config
  | metrics _ => .metrics
  | verbose => .verbose
  | json => .json

/-- The text is the value that the option is given. -/
def Written : Setting → List Char → Prop
  | seed n, text => Numeral n.toNat text
  | events n, text => Numeral n text
  | scenario name, text | scheduler name, text | metrics name, text => name = String.ofList text
  | config path, text => text ≠ [] ∧ path = String.ofList text
  | verbose, _ | json, _ => False

/-- The option has no value. -/
def Switch (s : Setting) : Prop := s = verbose ∨ s = json

theorem exists_iff {p : Setting → Prop} : (∃ s, p s) ↔ (∃ n, p (seed n)) ∨
    (∃ name, p (scenario name)) ∨ (∃ name, p (scheduler name)) ∨ (∃ n, p (events n)) ∨
    (∃ path, p (config path)) ∨ (∃ path, p (metrics path)) ∨ p verbose ∨ p json := by
  constructor
  · rintro ⟨s, hs⟩
    cases s <;> grind
  · rintro (⟨x, h⟩ | ⟨x, h⟩ | ⟨x, h⟩ | ⟨x, h⟩ | ⟨x, h⟩ | ⟨x, h⟩ | h | h) <;> exact ⟨_, h⟩

end Setting

/-! ### Spellings -/

/-- What two dashes may precede: the settings that the text makes, and the option that still waits
for its value. -/
inductive Long : List Setting → List Char → Option Flag → Prop
  | equals {s : Setting} {v : List Char} (hs : s.Written v) :
    Long [s] (s.flag.name.toList ++ '=' :: v) none
  | switch {s : Setting} (hs : s.Switch) : Long [s] s.flag.name.toList none
  | waits {f : Flag} (hf : f.takesValue) : Long [] f.name.toList (some f)

/-- What one dash may precede. -/
inductive Letters : List Setting → List Char → Option Flag → Prop
  | nil : Letters [] [] none
  | switch {s : Setting} {c : Char} {l : List Setting} {text : List Char} {waiting : Option Flag}
    (hs : s.Switch) (hc : s.flag.letter? = some c) (h : Letters l text waiting) :
    Letters (s :: l) (c :: text) waiting
  | joined {s : Setting} {c : Char} {v : List Char} (hs : s.Written v)
    (hc : s.flag.letter? = some c) (hv : v ≠ []) (he : v.head? ≠ some '=') :
    Letters [s] (c :: v) none
  | equals {s : Setting} {c : Char} {v : List Char} (hs : s.Written v)
    (hc : s.flag.letter? = some c) : Letters [s] (c :: '=' :: v) none
  | waits {f : Flag} {c : Char} (hf : f.takesValue) (hc : f.letter? = some c) :
    Letters [] [c] (some f)

/-- An argument that starts with a dash. -/
inductive Word : List Setting → List Char → Option Flag → Prop
  | long {l : List Setting} {text : List Char} {waiting : Option Flag} (h : Long l text waiting) :
    Word l ('-' :: '-' :: text) waiting
  | letters {l : List Setting} {text : List Char} {waiting : Option Flag}
    (h : Letters l text waiting) (hne : text ≠ []) : Word l ('-' :: text) waiting

/-- The arguments spell the settings, the first argument being the value of an option that waits for
it; a value that starts with a dash is a dash.  Two dashes may end the arguments. -/
inductive Spells : Option Flag → List Setting → List (List Char) → Prop
  | nil : Spells none [] []
  | dashes : Spells none [] [['-', '-']]
  | word {l l' : List Setting} {a : List Char} {waiting : Option Flag} {rest : List (List Char)}
    (h : Word l a waiting) (h' : Spells waiting l' rest) : Spells none (l ++ l') (a :: rest)
  | value {s : Setting} {v : List Char} {l : List Setting} {rest : List (List Char)}
    (hs : s.Written v) (hv : v.head? = some '-' → v = ['-']) (h : Spells none l rest) :
    Spells (some s.flag) (s :: l) (v :: rest)

/-- No option has a dash for its letter. -/
theorem Letters.head_ne {l : List Setting} {c : Char} {text : List Char} {waiting : Option Flag}
    (h : Letters l (c :: text) waiting) : c ≠ '-' := by
  have hletter {f : Flag} (hc : f.letter? = some c) : c ≠ '-' := by
    cases f <;> cases hc <;> decide
  cases h with
  | switch _ hc => exact hletter hc
  | joined _ hc => exact hletter hc
  | equals _ hc => exact hletter hc
  | waits _ hc => exact hletter hc

theorem Long.ne_nil {l : List Setting} {text : List Char} {waiting : Option Flag}
    (h : Long l text waiting) : text ≠ [] := by
  have hname (f : Flag) : f.name.toList ≠ [] := by cases f <;> decide
  cases h with
  | equals => exact List.append_ne_nil_of_right_ne_nil _ (List.cons_ne_nil _ _)
  | switch => exact hname _
  | waits => exact hname _

theorem Word.ne_dashes {l : List Setting} {a : List Char} {waiting : Option Flag}
    (h : Word l a waiting) : a ≠ ['-', '-'] := by
  cases h with
  | long h =>
    rintro ha
    exact h.ne_nil (List.cons.inj (List.cons.inj ha).2).2
  | letters h =>
    intro ha
    rw [(List.cons.inj ha).2] at h
    exact h.head_ne rfl

namespace Options

/-- The options with one more setting. -/
def put (o : Options) : Setting → Options
  | .seed n => { o with seed := some n }
  | .scenario name => { o with scenario := some name }
  | .scheduler name => { o with scheduler := some name }
  | .events n => { o with events := some n }
  | .config path => { o with config := some path }
  | .metrics path => { o with metrics := some path }
  | .verbose => { o with verbose := true }
  | .json => { o with json := true }

/-- The option was given. -/
def has (o : Options) : Flag → Bool
  | .seed => o.seed.isSome
  | .scenario => o.scenario.isSome
  | .scheduler => o.scheduler.isSome
  | .events => o.events.isSome
  | .config => o.config.isSome
  | .metrics => o.metrics.isSome
  | .verbose => o.verbose
  | .json => o.json
  | .help => false

/-- None of the options has been given before, neither earlier nor in the list itself. -/
def Lacks (o : Options) : List Setting → Prop
  | [] => True
  | s :: l => o.has s.flag = false ∧ (o.put s).Lacks l

theorem has_put (o : Options) (s : Setting) (f : Flag) :
    (o.put s).has f = (decide (s.flag = f) || o.has f) := by
  cases s <;> cases f <;> rfl

theorem lacks_append (o : Options) (l l' : List Setting) :
    o.Lacks (l ++ l') ↔ o.Lacks l ∧ (l.foldl put o).Lacks l' := by
  induction l generalizing o with
  | nil => exact (and_iff_right trivial).symm
  | cons s l ih =>
    rw [List.cons_append, Lacks, Lacks, ih, List.foldl_cons, and_assoc]

theorem lacks_iff (o : Options) (l : List Setting) :
    o.Lacks l ↔ (l.map Setting.flag).Nodup ∧ ∀ s ∈ l, o.has s.flag = false := by
  induction l generalizing o with
  | nil => exact iff_of_true trivial ⟨List.nodup_nil, fun _ h => by cases h⟩
  | cons s l ih =>
    simp only [Lacks, ih, has_put, Bool.or_eq_false_iff, decide_eq_false_iff_not, List.map_cons,
      List.nodup_cons, List.mem_map, List.mem_cons, forall_eq_or_imp, not_exists, not_and]
    constructor
    · rintro ⟨hs, hl, h⟩
      exact ⟨⟨fun x hx he => (h x hx).1 he.symm, hl⟩, hs, fun x hx => (h x hx).2⟩
    · rintro ⟨⟨hne, hl⟩, hs, h⟩
      exact ⟨hs, hl, fun x hx => ⟨fun he => hne x hx he.symm, h x hx⟩⟩

/-! ### Numbers -/

theorem number?_eq_some_iff {text : List Char} {n : Nat} :
    number? text = some n ↔ Numeral n text := by
  have hdigits (digits : List Char) :
      (if (digits.isEmpty || !digits.all Char.isDigit) = true then Option.none
        else if digitsValue digits < 18446744073709551616 then some (digitsValue digits)
        else .none) = some n ↔
        digits ≠ [] ∧ (∀ c ∈ digits, c.isDigit) ∧ Nat.ofDigitChars 10 digits 0 = n ∧
          n < UInt64.size := by
    have hvalue : digitsValue digits = Nat.ofDigitChars 10 digits 0 := rfl
    split_ifs with hbad hlt <;> rw [hvalue] at * <;>
      simp only [Bool.or_eq_true, List.isEmpty_iff, Bool.not_eq_true', List.all_eq_false] at hbad
    · refine iff_of_false (fun h => by cases h) fun ⟨hne, hall, _⟩ => ?_
      obtain ⟨c, hc, hd⟩ := hbad.resolve_left hne
      exact hd (hall c hc)
    · rw [Option.some.injEq]
      constructor
      · rintro rfl
        refine ⟨fun h => hbad (.inl h), fun c hc => ?_, rfl, hlt⟩
        exact Classical.byContradiction fun h => hbad (.inr ⟨c, hc, h⟩)
      · exact fun h => h.2.2.1
    · exact iff_of_false (fun h => by cases h) fun ⟨_, _, he, hn⟩ => hlt (he ▸ hn)
  have hplus : ¬ ('+').isDigit := by decide
  unfold number? Numeral
  dsimp only
  split
  · rename_i rest
    rw [hdigits]
    constructor
    · exact fun h => ⟨rest, .inr rfl, h⟩
    · rintro ⟨digits, rfl | h, hne, hall, hv⟩
      · exact absurd (hall '+' List.mem_cons_self) hplus
      · cases h
        exact ⟨hne, hall, hv⟩
  · rename_i hsign
    rw [hdigits]
    constructor
    · exact fun h => ⟨text, .inl rfl, h⟩
    · rintro ⟨digits, rfl | h, hv⟩
      · exact hv
      · exact absurd h (hsign digits)

theorem map_number?_eq_some_iff {text : List Char} {n : UInt64} :
    (number? text).map UInt64.ofNat = some n ↔ Numeral n.toNat text := by
  rw [Option.map_eq_some_iff]
  constructor
  · rintro ⟨m, hm, rfl⟩
    have hm := number?_eq_some_iff.1 hm
    obtain ⟨-, -, -, -, -, hlt⟩ := id hm
    rwa [UInt64.toNat_ofNat_of_lt' hlt]
  · exact fun h => ⟨n.toNat, number?_eq_some_iff.2 h, UInt64.ofNat_toNat⟩

/-! ### Values -/

/-- An option that is given once. -/
theorem once_map_eq_ok_iff {α : Type} {before value : Option α} {g : Option α → Options}
    {o : Options} :
    (once before value).map g = .ok o ↔
      ∃ x, value = some x ∧ before.isSome = false ∧ o = g (some x) := by
  cases before with
  | some b => exact iff_of_false (fun h => by cases h) fun ⟨_, _, h, _⟩ => by cases h
  | none =>
    cases value with
    | none => exact iff_of_false (fun h => by cases h) fun ⟨_, h, _⟩ => by cases h
    | some x =>
      constructor
      · intro h
        cases h
        exact ⟨x, rfl, rfl, rfl⟩
      · rintro ⟨y, hy, -, rfl⟩
        cases hy
        rfl

/-- **A value is taken exactly if it is written as one and the option was not given before.** -/
theorem setValue_eq_ok_iff {o o' : Options} {f : Flag} {v : List Char} :
    o.setValue f v = .ok o' ↔
      ∃ s : Setting, s.flag = f ∧ s.Written v ∧ o.has f = false ∧ o' = o.put s := by
  rw [Setting.exists_iff]
  cases f with
  | seed =>
    simp only [setValue, once_map_eq_ok_iff, map_number?_eq_some_iff]
    simp [Setting.flag, Setting.Written, has, put]
  | events =>
    simp [setValue, once_map_eq_ok_iff, Setting.flag, Setting.Written, has, put,
      number?_eq_some_iff]
  | scenario | scheduler | metrics =>
    simp [setValue, once_map_eq_ok_iff, Setting.flag, Setting.Written, has, put]
  | config =>
    rw [setValue]
    split_ifs with hv
    · simp [Setting.flag, Setting.Written, List.isEmpty_iff.1 hv]
    · have hne : v ≠ [] := fun h => hv (List.isEmpty_iff.2 h)
      simp [once_map_eq_ok_iff, Setting.flag, Setting.Written, has, put, hne]
  | verbose | json | help => simp [setValue, Setting.flag, Setting.Written]

theorem setSwitch_eq_ok_iff {o o' : Options} {f : Flag} :
    o.setSwitch f = .ok o' ↔
      ∃ s : Setting, s.flag = f ∧ s.Switch ∧ o.has f = false ∧ o' = o.put s := by
  rw [Setting.exists_iff]
  cases f with
  | verbose | json =>
    rw [setSwitch]
    split_ifs with h <;> simp [Setting.flag, Setting.Switch, has, put, h, eq_comm]
  | _ => simp [setSwitch, Setting.flag, Setting.Switch]

/-! ### Single arguments -/

theorem ofName?_eq_some_iff {text : List Char} {f : Flag} :
    Flag.ofName? text = some f ↔ text = f.name.toList := by
  unfold Flag.ofName?
  constructor
  · intro h
    have hname := List.find?_some h
    exact (beq_iff_eq.1 hname).symm
  · rintro rfl
    cases f <;> decide

theorem ofLetter?_eq_some_iff {c : Char} {f : Flag} :
    Flag.ofLetter? c = some f ↔ f.letter? = some c := by
  unfold Flag.ofLetter?
  constructor
  · intro h
    have hletter := List.find?_some h
    exact beq_iff_eq.1 hletter
  · intro h
    cases f <;> cases h <;> decide

/-- A setting that is written with a value is one of an option that takes one. -/
theorem takesValue_of_written {s : Setting} {v : List Char} (h : s.Written v) :
    s.flag.takesValue = true := by
  cases s <;> first | rfl | exact h.elim

theorem takesValue_of_switch {s : Setting} (h : s.Switch) : s.flag.takesValue = false := by
  rcases h with rfl | rfl <;> rfl

theorem lacks_singleton {o : Options} {s : Setting} : o.Lacks [s] ↔ o.has s.flag = false :=
  and_iff_left trivial

theorem map_eq_ok_iff {x : Except Refusal Options} {o : Options} {waiting : Option Flag} :
    (x.map fun o => ((o, .none) : Pending)) = .ok (o, waiting) ↔ x = .ok o ∧ waiting = .none := by
  cases x with
  | error e => exact iff_of_false (fun h => by cases h) fun h => by cases h.1
  | ok o' => simp only [Except.map, Except.ok.injEq, Prod.mk.injEq, eq_comm]

/-- An argument that ends with a value. -/
theorem map_setValue_eq_ok_iff {o o' : Options} {f : Flag} {v : List Char}
    {waiting : Option Flag} :
    ((o.setValue f v).map fun o => ((o, .none) : Pending)) = .ok (o', waiting) ↔
      ∃ s : Setting, s.flag = f ∧ s.Written v ∧ o.has f = false ∧ o' = o.put s ∧
        waiting = .none := by
  simp only [map_eq_ok_iff, setValue_eq_ok_iff, exists_and_right, and_assoc.symm]

theorem setSwitch_of_switch {o : Options} {s : Setting} (hs : s.Switch)
    (ho : o.has s.flag = false) : o.setSwitch s.flag = .ok (o.put s) :=
  setSwitch_eq_ok_iff.2 ⟨s, rfl, hs, ho, rfl⟩

/-- The name of an option goes up to an equals sign. -/
theorem ne_equals_of_mem_name (f : Flag) : ∀ c ∈ f.name.toList, decide (c ≠ '=') = true := by
  have hall : f.name.toList.all (fun c => decide (c ≠ '=')) = true := by cases f <;> decide
  exact List.all_eq_true.1 hall

theorem readLong_name (o : Options) (f : Flag) : o.readLong f.name.toList =
    if f.takesValue then .ok (o, some f) else (o.setSwitch f).map fun o => (o, .none) := by
  have htake : f.name.toList.takeWhile (fun c => decide (c ≠ '=')) = f.name.toList :=
    List.takeWhile_eq_self_iff.2 (ne_equals_of_mem_name f)
  have hdrop : f.name.toList.dropWhile (fun c => decide (c ≠ '=')) = [] :=
    List.dropWhile_eq_nil_iff.2 (ne_equals_of_mem_name f)
  rw [readLong, htake, hdrop, ofName?_eq_some_iff.2 rfl]

theorem readLong_equals (o : Options) (f : Flag) (v : List Char) :
    o.readLong (f.name.toList ++ '=' :: v) = (o.setValue f v).map fun o => (o, .none) := by
  rw [readLong, List.takeWhile_append_of_pos (ne_equals_of_mem_name f),
    List.dropWhile_append_of_pos (ne_equals_of_mem_name f), List.takeWhile_cons_of_neg (by decide),
    List.dropWhile_cons_of_neg (by decide), List.append_nil, ofName?_eq_some_iff.2 rfl]

theorem readLong_eq_ok_iff {o o' : Options} {text : List Char} {waiting : Option Flag} :
    o.readLong text = .ok (o', waiting) ↔
      ∃ l, Long l text waiting ∧ o.Lacks l ∧ o' = l.foldl put o := by
  constructor
  · intro h
    have htext := List.takeWhile_append_dropWhile (p := fun c => decide (c ≠ '=')) (l := text)
    cases hf : Flag.ofName? (text.takeWhile fun c => decide (c ≠ '=')) with
    | none =>
      rw [readLong, hf] at h
      cases h
    | some f =>
      rw [ofName?_eq_some_iff.1 hf] at htext
      cases hd : text.dropWhile fun c => decide (c ≠ '=') with
      | nil =>
        rw [hd, List.append_nil] at htext
        subst htext
        rw [readLong_name] at h
        split_ifs at h with hv
        · cases h
          exact ⟨[], .waits hv, trivial, rfl⟩
        · obtain ⟨ho, rfl⟩ := map_eq_ok_iff.1 h
          obtain ⟨s, rfl, hs, hl, rfl⟩ := setSwitch_eq_ok_iff.1 ho
          exact ⟨[s], .switch hs, lacks_singleton.2 hl, rfl⟩
      | cons c v =>
        have hc : c = '=' := by
          have hhead := List.head?_dropWhile_not (fun c => decide (c ≠ '=')) text
          rw [hd] at hhead
          simpa using hhead
        subst hc
        rw [hd] at htext
        subst htext
        rw [readLong_equals] at h
        obtain ⟨s, rfl, hs, hl, rfl, rfl⟩ := map_setValue_eq_ok_iff.1 h
        exact ⟨[s], .equals hs, lacks_singleton.2 hl, rfl⟩
  · rintro ⟨l, hl, ho, rfl⟩
    cases hl with
    | equals hs =>
      rw [readLong_equals]
      exact map_setValue_eq_ok_iff.2 ⟨_, rfl, hs, ho.1, rfl, rfl⟩
    | switch hs =>
      rw [readLong_name, if_neg (by rw [takesValue_of_switch hs]; decide),
        setSwitch_of_switch hs ho.1]
      rfl
    | waits hf => rw [readLong_name, if_pos hf]; rfl

theorem readLetters_eq_ok_iff {o o' : Options} {text : List Char} {waiting : Option Flag} :
    o.readLetters text = .ok (o', waiting) ↔
      ∃ l, Letters l text waiting ∧ o.Lacks l ∧ o' = l.foldl put o := by
  constructor
  · intro h
    induction text generalizing o with
    | nil =>
      cases h
      exact ⟨[], .nil, trivial, rfl⟩
    | cons c rest ih =>
      rw [readLetters] at h
      cases hf : Flag.ofLetter? c with
      | none =>
        rw [hf] at h
        cases h
      | some f =>
        rw [hf] at h
        have hc := ofLetter?_eq_some_iff.1 hf
        dsimp only at h
        split_ifs at h with hv
        · split at h
          · cases h
            exact ⟨[], .waits hv hc, trivial, rfl⟩
          · obtain ⟨s, rfl, hs, hl, rfl, rfl⟩ := map_setValue_eq_ok_iff.1 h
            exact ⟨[s], .equals hs hc, lacks_singleton.2 hl, rfl⟩
          · rename_i hne he
            obtain ⟨s, rfl, hs, hl, rfl, rfl⟩ := map_setValue_eq_ok_iff.1 h
            refine ⟨[s], .joined hs hc hne fun hhead => ?_, lacks_singleton.2 hl, rfl⟩
            obtain ⟨v, rfl⟩ := List.head?_eq_some_iff.1 hhead
            exact he v rfl
        · split at h
          · cases h
          · rename_i o₁ ho
            obtain ⟨s, rfl, hs, hl, rfl⟩ := setSwitch_eq_ok_iff.1 ho
            obtain ⟨l, hl', hrest, rfl⟩ := ih h
            exact ⟨s :: l, .switch hs hc hl', ⟨hl, hrest⟩, rfl⟩
  · rintro ⟨l, hl, ho, rfl⟩
    induction hl generalizing o with
    | nil => rfl
    | @switch s c l text waiting hs hc _ ih =>
      rw [readLetters, ofLetter?_eq_some_iff.2 hc]
      dsimp only
      rw [if_neg (by rw [takesValue_of_switch hs]; decide), setSwitch_of_switch hs ho.1]
      exact ih ho.2
    | @joined s c v hs hc hv he =>
      rw [readLetters, ofLetter?_eq_some_iff.2 hc]
      dsimp only
      rw [if_pos (takesValue_of_written hs)]
      split
      · exact absurd rfl hv
      · exact absurd rfl he
      · exact map_setValue_eq_ok_iff.2 ⟨s, rfl, hs, ho.1, rfl, rfl⟩
    | equals hs hc =>
      rw [readLetters, ofLetter?_eq_some_iff.2 hc]
      dsimp only
      rw [if_pos (takesValue_of_written hs)]
      exact map_setValue_eq_ok_iff.2 ⟨_, rfl, hs, ho.1, rfl, rfl⟩
    | waits hf hc =>
      rw [readLetters, ofLetter?_eq_some_iff.2 hc]
      dsimp only
      rw [if_pos hf]
      rfl

/-! ### All arguments -/

theorem isOption_eq_false_iff {v : List Char} :
    isOption v = false ↔ (v.head? = some '-' → v = ['-']) := by
  unfold isOption
  split
  · exact iff_of_false (by decide) fun h => by cases h rfl
  · rename_i h
    refine iff_of_true rfl fun hhead => ?_
    obtain ⟨rest, rfl⟩ := List.head?_eq_some_iff.1 hhead
    cases rest with
    | nil => rfl
    | cons c rest => exact absurd rfl (h c rest)

/-- The options after an argument that starts with a dash. -/
def readWord (o : Options) : List Char → Except Refusal Pending
  | '-' :: '-' :: text => o.readLong text
  | '-' :: c :: text => o.readLetters (c :: text)
  | _ => .error .usage

theorem readWord_letters (o : Options) {c : Char} (hc : c ≠ '-') (text : List Char) :
    o.readWord ('-' :: c :: text) = o.readLetters (c :: text) := by
  unfold readWord
  split
  · rename_i h
    exact absurd (List.cons.inj (List.cons.inj h).2).1 hc
  · rename_i h
    rw [(List.cons.inj h).2]
  · rename_i h
    exact absurd rfl (h c text)

theorem readFrom_cons (o : Options) {a : List Char} (ha : a ≠ ['-', '-'])
    (rest : List (List Char)) :
    o.readFrom .none (a :: rest) =
      match o.readWord a with
      | .error e => .error e
      | .ok (o, waiting) => o.readFrom waiting rest := by
  conv => lhs; unfold readFrom
  dsimp only
  split
  · exact absurd rfl ha
  · rfl
  · rename_i hc
    exact (readWord_letters o hc _).symm ▸ rfl
  · rename_i h
    have hnone : o.readWord a = .error .usage := by
      unfold readWord
      split
      · exact absurd rfl (h _ _)
      · exact absurd rfl (h _ _)
      · rfl
    rw [hnone]

theorem readWord_eq_ok_iff {o o' : Options} {a : List Char} {waiting : Option Flag} :
    o.readWord a = .ok (o', waiting) ↔ ∃ l, Word l a waiting ∧ o.Lacks l ∧ o' = l.foldl put o := by
  constructor
  · intro h
    unfold readWord at h
    split at h
    · obtain ⟨l, hl, ho⟩ := readLong_eq_ok_iff.1 h
      exact ⟨l, .long hl, ho⟩
    · obtain ⟨l, hl, ho⟩ := readLetters_eq_ok_iff.1 h
      exact ⟨l, .letters hl (List.cons_ne_nil _ _), ho⟩
    · cases h
  · rintro ⟨l, hl, ho⟩
    cases hl with
    | long hl => exact readLong_eq_ok_iff.2 ⟨l, hl, ho⟩
    | letters hl hne =>
      rename_i text
      cases text with
      | nil => exact absurd rfl hne
      | cons c text =>
        rw [readWord_letters o hl.head_ne]
        exact readLetters_eq_ok_iff.2 ⟨l, hl, ho⟩

/-- **What is read is what the arguments spell.** -/
theorem readFrom_eq_ok_iff {o o' : Options} {waiting : Option Flag} {arguments : List (List Char)} :
    o.readFrom waiting arguments = .ok o' ↔
      ∃ l, Spells waiting l arguments ∧ o.Lacks l ∧ o' = l.foldl put o := by
  constructor
  · intro h
    induction arguments generalizing o waiting with
    | nil =>
      cases waiting with
      | some f => cases h
      | none =>
        cases h
        exact ⟨[], .nil, trivial, rfl⟩
    | cons a rest ih =>
      cases waiting with
      | some f =>
        rw [readFrom] at h
        split_ifs at h with ha
        split at h
        · cases h
        · rename_i o₁ ho
          obtain ⟨s, rfl, hs, hl, rfl⟩ := setValue_eq_ok_iff.1 ho
          obtain ⟨l, hrest, hl', rfl⟩ := ih h
          have hv := isOption_eq_false_iff.1 (Bool.eq_false_iff.2 ha)
          exact ⟨s :: l, .value hs hv hrest, ⟨hl, hl'⟩, rfl⟩
      | none =>
        by_cases ha : a = ['-', '-']
        · subst ha
          rw [readFrom] at h
          split_ifs at h with hrest
          cases h
          rw [List.isEmpty_iff.1 hrest]
          exact ⟨[], .dashes, trivial, rfl⟩
        · rw [o.readFrom_cons ha] at h
          split at h
          · cases h
          · rename_i o₁ waiting ho
            obtain ⟨l, hw, hl, rfl⟩ := readWord_eq_ok_iff.1 ho
            obtain ⟨l', hs, hl', rfl⟩ := ih h
            exact ⟨l ++ l', .word hw hs, (o.lacks_append l l').2 ⟨hl, hl'⟩, List.foldl_append.symm⟩
  · rintro ⟨l, hs, hl, rfl⟩
    induction hs generalizing o with
    | nil => rfl
    | dashes => rfl
    | @word l l' a waiting rest h _ ih =>
      obtain ⟨hl, hl'⟩ := (o.lacks_append l l').1 hl
      rw [o.readFrom_cons h.ne_dashes, readWord_eq_ok_iff.2 ⟨l, h, hl, rfl⟩, List.foldl_append]
      exact ih hl'
    | @value s v l rest hs hv _ ih =>
      rw [readFrom, if_neg (Bool.eq_false_iff.1 (isOption_eq_false_iff.2 hv)),
        setValue_eq_ok_iff.2 ⟨s, rfl, hs, hl.1, rfl⟩]
      exact ih hl.2

/-- **Arguments are read exactly if they spell settings of different options, and they give these
settings.** -/
theorem read_eq_ok_iff {arguments : List String} {o : Options} :
    read arguments = .ok o ↔ ∃ l, Spells .none l (arguments.map String.toList) ∧
      (l.map Setting.flag).Nodup ∧ o = l.foldl put none := by
  have hempty (s : Setting) : none.has s.flag = false := by cases s <;> rfl
  simp only [read, readFrom_eq_ok_iff, lacks_iff, hempty, implies_true, and_true]

end Options

end EventSim.CommandLine
