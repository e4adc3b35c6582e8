import EventSim.Proofs.Json.Tokens
import Mathlib.Data.List.Forall2

/-!
# Values read back

A value has two texts, without blanks and with one element to a line.  They differ only in the
blanks at the start of an element and after a colon, so both are read back by one argument.  A
reader decodes a value if it takes either text of it, after any blanks, from the front of a text
that cannot go on with a number.  **Lists decode item by item and records field by field.**
-/

namespace EventSim.Json

/-! ### Layouts -/

/-- How a value is written. -/
inductive Layout where
  | compact
  | lines (level : Nat)

namespace Layout

/-- The text of a value. -/
def write : Layout → Value → List Char
  | compact, v => v.compact
  | lines level, v => v.prettyAt level

/-- The layout of the parts of a value. -/
def inner : Layout → Layout
  | compact => compact
  | lines level => lines (level + 1)

/-- The blanks in front of an element. -/
def line : Layout → List Char
  | compact => []
  | lines level => Value.newLine level

/-- The blanks after a colon. -/
def gap : Layout → List Char
  | compact => []
  | lines _ => [' ']

/-- An item of a list. -/
def item (L : Layout) (v : Value) : List Char := L.line ++ L.write v

/-- A field of an object. -/
def field (L : Layout) (f : String × Value) : List Char :=
  L.line ++ (quote f.1.toList ++ ':' :: (L.gap ++ L.write f.2))

/-- Elements after the first one. -/
def later {β : Type} (text : β → List Char) (l : List β) : List Char :=
  l.flatMap fun b => ',' :: text b

variable {L : Layout} {rest : List Char} {c : Char}

theorem blank_line (L : Layout) : Blank L.line := by
  cases L with
  | compact => exact fun _ h => by cases h
  | lines level =>
    intro c h
    rcases List.mem_cons.1 h with rfl | h
    · rfl
    · rw [List.eq_of_mem_replicate h]
      rfl

theorem blank_gap (L : Layout) : Blank L.gap := by
  cases L with
  | compact => exact fun _ h => by cases h
  | lines level =>
    intro c h
    rw [List.eq_of_mem_singleton h]
    rfl

/-! ### Texts in either layout -/

theorem compactItems_cons (v : Value) (vs : List Value) :
    Value.compactItems (v :: vs) = compact.item v ++ later compact.item vs := by
  induction vs generalizing v with
  | nil => exact (List.append_nil _).symm
  | cons w vs ih => exact congrArg (v.compact ++ ',' :: ·) (ih w)

theorem prettyItems_cons (level : Nat) (v : Value) (vs : List Value) :
    Value.prettyItems level (v :: vs) =
      (lines level).item v ++ later (lines level).item vs := by
  induction vs generalizing v with
  | nil => exact (List.append_nil _).symm
  | cons w vs ih => exact congrArg ((lines level).item v ++ ',' :: ·) (ih w)

theorem compactFields_cons (f : String × Value) (fs : List (String × Value)) :
    Value.compactFields (f :: fs) = compact.field f ++ later compact.field fs := by
  induction fs generalizing f with
  | nil => exact (List.append_nil _).symm
  | cons g fs ih =>
    exact (congrArg (compact.field f ++ ',' :: ·) (ih g))

theorem prettyFields_cons (level : Nat) (f : String × Value) (fs : List (String × Value)) :
    Value.prettyFields level (f :: fs) =
      (lines level).field f ++ later (lines level).field fs := by
  induction fs generalizing f with
  | nil =>
    rw [Value.prettyFields]
    simp [field, later, line, gap, write]
  | cons g fs ih =>
    rw [Value.prettyFields, ih g]
    simp [field, later, line, gap, write]
    exact nofun

theorem write_list_cons (L : Layout) (v : Value) (vs : List Value) (rest : List Char) :
    L.write (.list (v :: vs)) ++ rest =
      '[' :: (L.inner.item v ++ (later L.inner.item vs ++ (L.line ++ ']' :: rest))) := by
  cases L with
  | compact => simp [write, Value.compact, compactItems_cons, inner, line]
  | lines level => simp [write, Value.prettyAt, prettyItems_cons, inner, line]

theorem write_object_cons (L : Layout) (f : String × Value) (fs : List (String × Value))
    (rest : List Char) :
    L.write (.object (f :: fs)) ++ rest =
      '\x7b' :: (L.inner.field f ++ (later L.inner.field fs ++ (L.line ++ '\x7d' :: rest))) := by
  cases L with
  | compact => simp [write, Value.compact, compactFields_cons, inner, line]
  | lines level => simp [write, Value.prettyAt, prettyFields_cons, inner, line]

theorem write_list_nil (L : Layout) : L.write (.list []) = ['[', ']'] := by
  cases L with
  | compact => rfl
  | lines level => rfl

theorem write_integer (L : Layout) (n : Int) : L.write (.integer n) = Value.integerText n := by
  cases L with
  | compact => simp [write, Value.compact]
  | lines level => simp [write, Value.prettyAt]

theorem write_string (L : Layout) (s : String) : L.write (.string s) = quote s.toList := by
  cases L with
  | compact => simp [write, Value.compact]
  | lines level => simp [write, Value.prettyAt]

/-- Every text starts with a character that is no blank and does not end a list. -/
theorem write_eq_cons (L : Layout) (v : Value) :
    ∃ c t, L.write v = c :: t ∧ isSpace c = false ∧ c ≠ ']' := by
  have hdigits (n : Nat) : ∃ c t, Nat.toDigits 10 n = c :: t ∧ isSpace c = false ∧ c ≠ ']' := by
    obtain ⟨c, t, h⟩ := List.exists_cons_of_ne_nil (Nat.toDigits_ne_nil (b := 10) (n := n))
    have hc : c.isDigit = true := isDigit_toDigits n c (h ▸ List.mem_cons_self)
    refine ⟨c, t, h, isSpace_of_isDigit hc, ?_⟩
    rintro rfl
    cases hc
  cases v with
  | null =>
    refine ⟨'n', ['u', 'l', 'l'], ?_, rfl, by decide⟩
    cases L <;> simp [write, Value.compact, Value.prettyAt]
  | bool b =>
    have h : L.write (.bool b) = Value.boolText b := by
      cases L <;> simp [write, Value.compact, Value.prettyAt]
    rw [h]
    cases b with
    | false => exact ⟨'f', _, rfl, rfl, by decide⟩
    | true => exact ⟨'t', _, rfl, rfl, by decide⟩
  | integer n =>
    rw [write_integer, Value.integerText]
    split
    · exact ⟨'-', _, rfl, rfl, by decide⟩
    · exact hdigits n.natAbs
  | string s =>
    rw [write_string]
    exact ⟨'"', _, rfl, rfl, by decide⟩
  | list items =>
    cases items with
    | nil => exact ⟨'[', _, write_list_nil L, rfl, by decide⟩
    | cons v vs =>
      have h := write_list_cons L v vs []
      rw [List.append_nil] at h
      exact ⟨'[', _, h, rfl, by decide⟩
  | object fields =>
    cases fields with
    | nil =>
      refine ⟨'\x7b', ['\x7d'], ?_, rfl, by decide⟩
      cases L <;> simp [write, Value.compact, Value.compactFields, Value.prettyAt]
    | cons f fs =>
      have h := write_object_cons L f fs []
      rw [List.append_nil] at h
      exact ⟨'\x7b', _, h, rfl, by decide⟩

/-! ### What follows -/

theorem ends_line (L : Layout) (hc : c = ']' ∨ c = '\x7d' ∨ c = ',') :
    Ends (L.line ++ c :: rest) := by
  intro d hd
  cases L with
  | compact =>
    cases hd
    rcases hc with rfl | rfl | rfl <;> decide
  | lines level =>
    cases hd
    decide

theorem ends_later {β : Type} (text : β → List Char) (l : List β) (L : Layout) (rest : List Char)
    (hc : c = ']' ∨ c = '\x7d') : Ends (later text l ++ (L.line ++ c :: rest)) := by
  cases l with
  | nil => exact L.ends_line (hc.imp_right .inl)
  | cons b l => exact ends_line compact (.inr (.inr rfl))

theorem length_le_later {β : Type} (text : β → List Char) (l : List β) :
    l.length ≤ (later text l).length := by
  induction l with
  | nil => exact Nat.zero_le _
  | cons b l ih =>
    simp only [later, List.flatMap_cons, List.length_append, List.length_cons] at ih ⊢
    omega

end Layout

open Layout

/-! ### Decoding -/

/-- A reader takes `a` from both texts of `v`. -/
def Decodes {α : Type} (reader : Reader α) (v : Value) (a : α) : Prop :=
  ∀ (L : Layout) (before rest : List Char), Blank before → Ends rest →
    reader (before ++ (L.write v ++ rest)) = .ok (a, rest)

variable {α σ : Type} {reader element : Reader α} {v : Value} {vs : List Value} {a : α}
  {as : List α} {L : Layout} {rest : List Char}

theorem decodes_string (s : String) : Decodes string (.string s) s := by
  intro L before rest hb _
  rw [write_string]
  exact string_quote hb s rest

theorem decodes_integer {n : Int} (low high : Int) (expected : String) (hf : Fits n)
    (hn : low ≤ n ∧ n ≤ high) : Decodes (integer low high expected) (.integer n) n := by
  intro L before rest hb hr
  rw [write_integer]
  exact integer_integerText hb hf hn hr expected

/-- A reader that makes something of what another one has read. -/
theorem Decodes.made {β : Type} {maker : Reader β} {b : β} (h : Decodes reader v a)
    (hm : ∀ s rest, reader s = .ok (a, rest) → maker s = .ok (b, rest)) : Decodes maker v b :=
  fun L before rest hb hr => hm _ _ (h L before rest hb hr)

/-! ### Lists -/

theorem nextElement_end (L : Layout) (first : Bool) (rest : List Char) :
    nextElement first (L.line ++ ']' :: rest) = .ok none := by
  unfold nextElement
  rw [skipSpace_blank L.blank_line (by decide)]
  rfl

theorem nextElement_first (L : Layout) (v : Value) (rest : List Char) :
    nextElement true (L.item v ++ rest) = .ok (some (L.write v ++ rest)) := by
  obtain ⟨c, t, h, hs, hc⟩ := L.write_eq_cons v
  unfold nextElement item
  rw [List.append_assoc, h, List.cons_append, skipSpace_blank L.blank_line hs]
  split
  · rename_i hm
    cases hm
  · rename_i hm
    cases hm
    exact absurd rfl hc
  · rename_i hm
    cases hm
    rfl

theorem nextElement_later (L : Layout) (v : Value) (rest : List Char) :
    nextElement false (',' :: (L.item v ++ rest)) = .ok (some (L.write v ++ rest)) := by
  obtain ⟨c, t, h, hs, hc⟩ := L.write_eq_cons v
  have hitem : skipSpace (L.item v ++ rest) = c :: (t ++ rest) := by
    rw [item, List.append_assoc, h, List.cons_append, skipSpace_blank L.blank_line hs]
  unfold nextElement
  rw [skipSpace_cons (by decide)]
  simp [hitem, h, hc]

/-- The items after the first one are read up to the bracket. -/
theorem readElements_later (h : List.Forall₂ (Decodes element) vs as) {fuel : Nat}
    (hf : vs.length < fuel) (L M : Layout) (rest : List Char) :
    readElements element fuel false (later L.item vs ++ (M.line ++ ']' :: rest)) =
      .ok (as, M.line ++ ']' :: rest) := by
  induction h generalizing fuel with
  | nil =>
    obtain ⟨fuel, rfl⟩ := Nat.exists_eq_succ_of_ne_zero (Nat.ne_of_gt hf)
    simp only [later, List.flatMap_nil, List.nil_append]
    rw [readElements, nextElement_end]
    rfl
  | @cons v a vs as hv _ ih =>
    obtain ⟨fuel, rfl⟩ := Nat.exists_eq_succ_of_ne_zero (Nat.ne_of_gt (Nat.zero_lt_of_lt hf))
    have hlater : later L.item (v :: vs) ++ (M.line ++ ']' :: rest) =
        ',' :: (L.item v ++ (later L.item vs ++ (M.line ++ ']' :: rest))) := by
      simp [later]
    rw [hlater, readElements, nextElement_later]
    have ha := hv L [] _ nofun (ends_later L.item vs M rest (.inl rfl))
    simp only [List.nil_append] at ha
    have hr := ih (Nat.lt_of_succ_lt_succ hf)
    simp only [bind, Except.bind, ha, hr]

/-- A list is read if each of its items is. -/
theorem decodes_list (h : List.Forall₂ (Decodes element) vs as) :
    Decodes (list element) (.list vs) as := by
  intro L before rest hb _
  cases h with
  | nil =>
    rw [write_list_nil]
    unfold list
    simp only [List.cons_append, skipSpace_blank hb (show isSpace '[' = false by decide)]
    rfl
  | @cons v a vs as hv hvs =>
    have hlen := length_le_later L.inner.item vs
    have hclose : closeList (L.line ++ ']' :: rest) = .ok rest := by
      unfold closeList
      rw [skipSpace_blank L.blank_line (by decide)]
      rfl
    have ha := hv L.inner [] _ nofun (ends_later L.inner.item vs L rest (.inl rfl))
    have hfuel : vs.length <
        (L.inner.item v ++ (later L.inner.item vs ++ (L.line ++ ']' :: rest))).length := by
      simp only [List.length_append, List.length_cons]
      omega
    have hr := readElements_later hvs hfuel L.inner L rest
    simp only [List.nil_append] at ha
    unfold list
    rw [write_list_cons, skipSpace_blank hb (by decide)]
    simp only [readElements, nextElement_first, bind, Except.bind, ha, hr, hclose]

/-! ### Records -/

namespace Record

/-- The fields of an object lead from one unfinished record to another, none of them twice. -/
inductive Fills (r : Record σ α) : σ → List (String × Value) → σ → Prop
  | nil (got : σ) : Fills r got [] got
  | cons {got next last : σ} {name : String} {v : Value} {fields : List (String × Value)} {i : Nat}
      (hi : r.names.findIdx? (· == name) = some i) (hnew : r.has i got = false)
      (hv : Decodes (r.readField i got) v next) (hrest : Fills r next fields last) :
      Fills r got ((name, v) :: fields) last

end Record

/-- A field after the quote of its name. -/
def Layout.keyed (L : Layout) (f : String × Value) (rest : List Char) : List Char :=
  f.1.toList.flatMap escape ++ '"' :: ':' :: (L.gap ++ (L.write f.2 ++ rest))

theorem Layout.field_append (L : Layout) (f : String × Value) (rest : List Char) :
    L.field f ++ rest = L.line ++ '"' :: L.keyed f rest := by
  simp [field, keyed, quote]

theorem nextKey_end (L : Layout) (first : Bool) (rest : List Char) :
    nextKey first (L.line ++ '\x7d' :: rest) = .ok none := by
  unfold nextKey
  rw [skipSpace_blank L.blank_line (by decide)]
  rfl

theorem nextKey_first (L : Layout) (f : String × Value) (rest : List Char) :
    nextKey true (L.field f ++ rest) = .ok (some (L.keyed f rest)) := by
  unfold nextKey
  rw [L.field_append, skipSpace_blank L.blank_line (by decide)]
  rfl

theorem nextKey_later (L : Layout) (f : String × Value) (rest : List Char) :
    nextKey false (',' :: (L.field f ++ rest)) = .ok (some (L.keyed f rest)) := by
  have hfield : skipSpace (L.field f ++ rest) = '"' :: L.keyed f rest := by
    rw [L.field_append, skipSpace_blank L.blank_line (by decide)]
  unfold nextKey
  rw [skipSpace_cons (by decide)]
  simp [hfield]

namespace Record

variable {r : Record σ α} {got next last : σ} {f : String × Value}
  {fields : List (String × Value)} {fuel i : Nat} {s tail : List Char} {first : Bool}

/-- One field is read. -/
theorem readFields_keyed (hkey : nextKey first s = .ok (some (L.keyed f tail)))
    (hi : r.names.findIdx? (· == f.1) = some i) (hnew : r.has i got = false)
    (hv : Decodes (r.readField i got) f.2 next) (ht : Ends tail) :
    r.readFields (fuel + 1) first got s = r.readFields fuel false next tail := by
  have hname := readString_flatMap_escape f.1.toList (':' :: (L.gap ++ (L.write f.2 ++ tail)))
  have hcolon : afterColon (':' :: (L.gap ++ (L.write f.2 ++ tail))) =
      .ok (L.gap ++ (L.write f.2 ++ tail)) := by
    rw [afterColon, skipSpace_cons (by decide)]
    rfl
  rw [readFields, hkey]
  simp only [bind, Except.bind, keyed, hname, String.ofList_toList, hi, hnew, hcolon,
    hv L L.gap tail L.blank_gap ht]
  rfl

/-- The fields after the first one are read up to the brace. -/
theorem readFields_later (h : r.Fills got fields last) (hf : fields.length < fuel) (L M : Layout)
    (rest : List Char) :
    r.readFields fuel false got (later L.field fields ++ (M.line ++ '\x7d' :: rest)) =
      .ok (last, M.line ++ '\x7d' :: rest) := by
  induction h generalizing fuel with
  | nil got =>
    obtain ⟨fuel, rfl⟩ := Nat.exists_eq_succ_of_ne_zero (Nat.ne_of_gt hf)
    simp only [later, List.flatMap_nil, List.nil_append]
    rw [readFields, nextKey_end]
    rfl
  | @cons got next last name v fields i hi hnew hv _ ih =>
    obtain ⟨fuel, rfl⟩ := Nat.exists_eq_succ_of_ne_zero (Nat.ne_of_gt (Nat.zero_lt_of_lt hf))
    have hlater : later L.field ((name, v) :: fields) ++ (M.line ++ '\x7d' :: rest) =
        ',' :: (L.field (name, v) ++ (later L.field fields ++ (M.line ++ '\x7d' :: rest))) := by
      simp [later]
    rw [hlater, readFields_keyed (nextKey_later L (name, v) _) hi hnew hv
      (ends_later L.field fields M rest (.inr rfl))]
    exact ih (Nat.lt_of_succ_lt_succ hf)

/-- A record is read if its fields arrive one by one and make it complete. -/
theorem decodes_read (h : r.Fills r.empty (f :: fields) last) (ha : r.finish last = .ok a) :
    Decodes r.read (.object (f :: fields)) a := by
  intro L before rest hb _
  obtain ⟨name, v⟩ := f
  cases h with
  | cons hi hnew hv hfields =>
    have hlen := length_le_later L.inner.field fields
    have hclose : closeObject (L.line ++ '\x7d' :: rest) = .ok rest := by
      unfold closeObject
      rw [skipSpace_blank L.blank_line (by decide)]
      rfl
    have hfirst : ∀ fuel, fields.length < fuel →
        r.readFields (fuel + 1) true r.empty (L.inner.field (name, v) ++
          (later L.inner.field fields ++ (L.line ++ '\x7d' :: rest))) =
            .ok (last, L.line ++ '\x7d' :: rest) := by
      intro fuel hfuel
      rw [readFields_keyed (nextKey_first L.inner (name, v) _) hi hnew hv
        (ends_later L.inner.field fields L rest (.inr rfl))]
      exact readFields_later hfields hfuel L.inner L rest
    unfold read
    rw [write_object_cons, skipSpace_blank hb (by decide)]
    simp only [bind, Except.bind]
    rw [hfirst _ (by simp only [List.length_append, List.length_cons]; omega)]
    simp only [ha, hclose]

end Record

/-! ### Whole texts -/

/-- A value that a reader decodes is what the whole text holds, in either layout. -/
theorem Decodes.parse (h : Decodes reader v a) (L : Layout) :
    parse reader (String.ofList (L.write v)) = .ok a := by
  have hr := h L [] [] nofun nofun
  simp only [List.nil_append, List.append_nil] at hr
  unfold Json.parse
  rw [String.toList_ofList, hr]
  rfl

end EventSim.Json
