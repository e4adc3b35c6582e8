import EventSim.Proofs.Json.Decoding

/-!
# Objects of strings

An object of strings has blanks around each of its tokens, and its keys and values may be spelled in
any way.  Its texts are stated as a relation, by concatenation; what is written in either layout is one
of them.  **The fields arrive in their order** at a record whose fields are strings, up to the first
one that is unknown or has arrived already (`Record.parse_objectText`).
-/

namespace EventSim.Json

/-! ### Texts -/

/-- The texts of a field of an object: a key, a colon and a value, each after blanks. -/
def FieldText (f : String × String) (text : List Char) : Prop :=
  ∃ b₁ key b₂ b₃ value, Blank b₁ ∧ StringText f.1 key ∧ Blank b₂ ∧ Blank b₃ ∧
    StringText f.2 value ∧ text = b₁ ++ (key ++ (b₂ ++ ':' :: (b₃ ++ value)))

/-- The texts between the braces of an object that has fields. -/
inductive Members : List (String × String) → List Char → Prop
  | last {f : String × String} {t b : List Char} (hf : FieldText f t) (hb : Blank b) :
      Members [f] (t ++ b)
  | cons {f : String × String} {fs : List (String × String)} {t b ts : List Char}
      (hf : FieldText f t) (hb : Blank b) (hfs : Members fs ts) :
      Members (f :: fs) (t ++ (b ++ ',' :: ts))

/-- The texts of an object whose values are strings, with blanks around it. -/
inductive ObjectText : List (String × String) → List Char → Prop
  | empty {b₁ b₂ b₃ : List Char} (h₁ : Blank b₁) (h₂ : Blank b₂) (h₃ : Blank b₃) :
      ObjectText [] (b₁ ++ '\x7b' :: (b₂ ++ '\x7d' :: b₃))
  | members {fs : List (String × String)} {b₁ ts b₂ : List Char} (h₁ : Blank b₁)
      (hfs : Members fs ts) (h₂ : Blank b₂) :
      ObjectText fs (b₁ ++ '\x7b' :: (ts ++ '\x7d' :: b₂))

variable {b ts rest before : List Char} {f : String × String} {fs : List (String × String)}

theorem FieldText.length_pos (h : FieldText f ts) : 0 < ts.length := by
  obtain ⟨b₁, key, b₂, b₃, value, -, -, -, -, -, rfl⟩ := h
  simp only [List.length_append, List.length_cons]
  omega

theorem Members.length_le (h : Members fs ts) : fs.length ≤ ts.length := by
  induction h with
  | last hf _ =>
    have hpos := hf.length_pos
    simp only [List.length_append, List.length_cons, List.length_nil]
    omega
  | cons hf _ _ ih =>
    simp only [List.length_append, List.length_cons]
    omega

/-! ### What is written -/

theorem fieldText_field (L : Layout) (f : String × String) :
    FieldText f (L.field (f.1, .string f.2)) := by
  refine ⟨L.line, _, [], L.gap, _, L.blank_line, stringText_quote f.1, blank_nil, L.blank_gap,
    stringText_quote f.2, ?_⟩
  rw [Layout.field, Layout.write_string, List.nil_append]

theorem members_later (L : Layout) (f : String × String) (fs : List (String × String))
    (hb : Blank b) :
    Members (f :: fs) (L.field (f.1, .string f.2) ++
      (Layout.later L.field (fs.map fun f => (f.1, .string f.2)) ++ b)) := by
  induction fs generalizing f with
  | nil => exact .last (fieldText_field L f) hb
  | cons g fs ih =>
    have hlater : Layout.later L.field ((g :: fs).map fun f => (f.1, .string f.2)) ++ b =
        [] ++ ',' :: (L.field (g.1, .string g.2) ++
          (Layout.later L.field (fs.map fun f => (f.1, .string f.2)) ++ b)) := by
      simp [Layout.later]
    rw [hlater]
    exact .cons (fieldText_field L f) blank_nil (ih g)

/-- An object of strings that is written in either layout has one of the texts of that object. -/
theorem objectText_write (L : Layout) (f : String × String) (fs : List (String × String)) :
    ObjectText (f :: fs) (L.write (.object ((f :: fs).map fun f => (f.1, .string f.2)))) := by
  have h := L.write_object_cons (f.1, .string f.2) (fs.map fun f => (f.1, .string f.2)) []
  rw [List.append_nil] at h
  rw [List.map_cons, h]
  have hm : ObjectText (f :: fs) ([] ++ '\x7b' :: (_ ++ '\x7d' :: [])) :=
    .members blank_nil (members_later L.inner f fs L.blank_line) blank_nil
  rwa [List.nil_append, List.append_assoc, List.append_assoc] at hm

/-! ### Records whose fields are strings -/

/-- What stands in front of a field: nothing in front of the first one, blanks and a comma in front
of the others. -/
def Leads (first : Bool) (before : List Char) : Prop :=
  if first then before = [] else ∃ b, Blank b ∧ before = b ++ [',']

theorem nextKey_leads {first : Bool} (h : Leads first before) (hb : Blank b) (rest : List Char) :
    nextKey first (before ++ (b ++ '"' :: rest)) = .ok (some rest) := by
  unfold Leads at h
  unfold nextKey
  cases first with
  | true =>
    obtain rfl : before = [] := h
    rw [List.nil_append, skipSpace_blank hb (by decide)]
    rfl
  | false =>
    obtain ⟨b', hb', rfl⟩ := h
    have hcomma : b' ++ [','] ++ (b ++ '"' :: rest) = b' ++ ',' :: (b ++ '"' :: rest) := by simp
    rw [hcomma, skipSpace_blank hb' (by decide)]
    simp [skipSpace_blank hb (show isSpace '"' = false by decide)]

theorem nextKey_brace (first : Bool) (hb : Blank b) (rest : List Char) :
    nextKey first (b ++ '\x7d' :: rest) = .ok none := by
  unfold nextKey
  rw [skipSpace_blank hb (by decide)]
  rfl

theorem afterColon_blank (hb : Blank b) (rest : List Char) :
    afterColon (b ++ ':' :: rest) = .ok rest := by
  unfold afterColon
  rw [skipSpace_blank hb (by decide)]
  rfl

theorem closeObject_blank (hb : Blank b) (rest : List Char) :
    closeObject (b ++ '\x7d' :: rest) = .ok rest := by
  unfold closeObject
  rw [skipSpace_blank hb (by decide)]
  rfl

namespace Record

variable {σ α : Type} {r : Record σ α} {put : Nat → σ → String → σ} {got : σ} {fuel : Nat}
  {first : Bool}

/-- Every field of the record is a string, which `put` stores, and there are no other fields. -/
structure Stringly (r : Record σ α) (put : Nat → σ → String → σ) : Prop where
  strict : r.tolerant = false
  readField (i : Nat) (got : σ) {s rest : List Char} {v : String} (h : string s = .ok (v, rest)) :
    r.readField i got s = .ok (put i got v, rest)

/-- The unfinished record once a field has arrived. -/
def arrive (r : Record σ α) (put : Nat → σ → String → σ) (got : σ) (f : String × String) :
    Except Fault σ :=
  match r.names.findIdx? (· == f.1) with
  | none => .error (.unknownField f.1 r.names)
  | some i => if r.has i got then .error (.duplicateField f.1) else .ok (put i got f.2)

/-- One field is read. -/
theorem readFields_fieldText (hr : r.Stringly put) (h : Leads first before) {t : List Char}
    (hf : FieldText f t) (rest : List Char) :
    r.readFields (fuel + 1) first got (before ++ (t ++ rest)) =
      match r.arrive put got f with
      | .ok next => r.readFields fuel false next rest
      | .error e => .error e := by
  obtain ⟨b₁, key, b₂, b₃, value, hb₁, ⟨ts, hts, rfl⟩, hb₂, hb₃, hvalue, rfl⟩ := hf
  have hkey := nextKey_leads h hb₁ (ts ++ '"' :: (b₂ ++ ':' :: (b₃ ++ (value ++ rest))))
  have htext : before ++ (b₁ ++ ('"' :: (ts ++ ['"']) ++ (b₂ ++ ':' :: (b₃ ++ value))) ++ rest) =
      before ++ (b₁ ++ '"' :: (ts ++ '"' :: (b₂ ++ ':' :: (b₃ ++ (value ++ rest))))) := by
    simp
  rw [htext, readFields, hkey]
  simp only [bind, Except.bind, readString_spelled hts, String.ofList_toList, arrive]
  cases r.names.findIdx? (· == f.1) with
  | none =>
    simp only [hr.strict]
    rfl
  | some i =>
    dsimp only
    by_cases hhas : r.has i got = true
    · simp only [if_pos hhas]
    · simp only [if_neg hhas, afterColon_blank hb₂, hr.readField i got (string_text hvalue hb₃ rest)]

/-- The fields of a text arrive in their order. -/
theorem readFields_members (hr : r.Stringly put) (hfs : Members fs ts) (h : Leads first before)
    (hfuel : fs.length < fuel) (got : σ) (rest : List Char) :
    ∃ b, Blank b ∧ r.readFields fuel first got (before ++ (ts ++ '\x7d' :: rest)) =
      (fs.foldlM (r.arrive put) got).map (·, b ++ '\x7d' :: rest) := by
  induction hfs generalizing first before got fuel with
  | @last f t b hf hb =>
    obtain ⟨fuel, rfl⟩ := Nat.exists_eq_add_of_lt hfuel
    refine ⟨b, hb, ?_⟩
    rw [List.append_assoc, readFields_fieldText hr h hf, List.foldlM_cons]
    cases r.arrive put got f with
    | error e => rfl
    | ok next =>
      dsimp only
      rw [List.length_singleton, Nat.add_comm 1, readFields, nextKey_brace false hb]
      rfl
  | @cons f fs t b ts hf hb hfs ih =>
    obtain ⟨fuel, rfl⟩ := Nat.exists_eq_succ_of_ne_zero (Nat.ne_of_gt (Nat.zero_lt_of_lt hfuel))
    have hcomma : t ++ (b ++ ',' :: ts) ++ '\x7d' :: rest =
        t ++ (b ++ [','] ++ (ts ++ '\x7d' :: rest)) := by
      simp
    rw [hcomma, readFields_fieldText hr h hf, List.foldlM_cons]
    cases r.arrive put got f with
    | error e => exact ⟨[], blank_nil, rfl⟩
    | ok next =>
      have hleads : Leads false (b ++ [',']) := ⟨b, hb, rfl⟩
      exact ih hleads (Nat.lt_of_succ_lt_succ hfuel) next

theorem skipSpace_eq_nil (hb : Blank b) : skipSpace b = [] := by
  have h := skipSpace_append hb []
  rwa [List.append_nil] at h

/-- An object is the whole text if its fields are read up to its brace and blanks follow. -/
theorem parse_of_readFields {b₁ b₂ b₃ inner : List Char} {u : Except Fault σ} {text : String}
    (h₁ : Blank b₁) (h₂ : Blank b₂) (h₃ : Blank b₃) (ht : text.toList = b₁ ++ '\x7b' :: inner)
    (h : r.readFields (inner.length + 1) true r.empty inner = u.map (·, b₂ ++ '\x7d' :: b₃)) :
    parse r.read text = u >>= r.finish := by
  unfold parse read
  rw [ht, skipSpace_blank h₁ (by decide)]
  simp only [h]
  cases u with
  | error e => rfl
  | ok got =>
    simp only [Except.map, bind, Except.bind]
    cases r.finish got with
    | error e => rfl
    | ok a =>
      simp only [closeObject_blank h₂, skipSpace_eq_nil h₃]
      rfl

/-- **The fields of an object arrive in their order**, and then the record is finished. -/
theorem parse_objectText (hr : r.Stringly put) {text : String} (h : ObjectText fs text.toList) :
    parse r.read text = fs.foldlM (r.arrive put) r.empty >>= r.finish := by
  generalize ht : text.toList = t at h
  cases h with
  | empty h₁ h₂ h₃ =>
    refine parse_of_readFields h₁ h₂ h₃ ht ?_
    rw [readFields, nextKey_brace true h₂]
    rfl
  | @members _ b₁ ts b₂ h₁ hfs h₂ =>
    have hfuel : fs.length < (ts ++ '\x7d' :: b₂).length + 1 := by
      have hlen := hfs.length_le
      rw [List.length_append]
      omega
    have hleads : Leads true [] := rfl
    obtain ⟨b, hb, h⟩ := readFields_members hr hfs hleads hfuel r.empty b₂
    exact parse_of_readFields h₁ hb h₂ ht h

end Record

end EventSim.Json
