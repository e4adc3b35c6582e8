import EventSim.Proofs.Facade.Configuration
import EventSim.Proofs.Json.Objects
import Mathlib.Data.List.Induction
import Mathlib.Data.List.Nodup

/-!
# Saved configurations

A configuration is saved as a JSON object with the two names as its keys.  Which objects of strings
are read is decided by their keys alone, however the text is spelled and laid out: **an object is
read if its keys are distinct and among the two names**, and then each name has the value given to
it, whatever the order, or its default (`ofJson_objectText`).  So what is written is read back.
-/

namespace EventSim.Config

open Json

/-- The unfinished configuration with one more name. -/
def put (i : Nat) (u : Unfinished) (value : String) : Unfinished :=
  if i = 0 then (some value, u.2) else (u.1, some value)

/-- The keys are distinct, and each is one of the two names. -/
def Readable (pairs : List (String × String)) : Prop :=
  (pairs.map Prod.fst).Nodup ∧ ∀ f ∈ pairs, f.1 = kernelKey ∨ f.1 = schedulerKey

/-- A field cannot be taken after others: its key has been there, or is neither of the names. -/
def Rejects (before : List (String × String)) (f : String × String) (fault : Fault) : Prop :=
  f.1 ∈ before.map Prod.fst ∧ fault = .duplicateField f.1 ∨
    (f.1 ≠ kernelKey ∧ f.1 ≠ schedulerKey) ∧ fault = .unknownField f.1 [kernelKey, schedulerKey]

/-- The value given to a key, and the default if none is given. -/
def Gives (pairs : List (String × String)) (key absent value : String) : Prop :=
  (∀ v, (key, v) ∈ pairs → value = v) ∧ (key ∉ pairs.map Prod.fst → value = absent)

/-- The names that pairs give a value to. -/
def gathered (pairs : List (String × String)) : Unfinished :=
  (pairs.lookup kernelKey, pairs.lookup schedulerKey)

variable {pairs before : List (String × String)} {f : String × String} {key : String}

theorem record_stringly : record.Stringly put where
  strict := rfl
  readField i got s rest v h := by
    have hread : record.readField i got s = string s >>= fun p => .ok (put i got p.1, p.2) := rfl
    rw [hread, h]
    rfl

/-! ### Fields that arrive -/

theorem lookup_concat (before : List (String × String)) (f : String × String) (key : String) :
    (before ++ [f]).lookup key =
      (before.lookup key).or (if key = f.1 then some f.2 else none) := by
  rw [List.lookup_append]
  exact congrArg _ (NameTable.find?_cons [] f.1 key f.2)

theorem mem_of_lookup {v : String} (h : pairs.lookup key = some v) : (key, v) ∈ pairs := by
  obtain ⟨l, l', rfl, -⟩ := List.lookup_eq_some_iff.1 h
  exact List.mem_append_right _ List.mem_cons_self

theorem lookup_eq_none : pairs.lookup key = none ↔ key ∉ pairs.map Prod.fst := by
  rw [List.lookup_eq_none_iff]
  constructor
  · intro h hmem
    obtain ⟨p, hp, rfl⟩ := List.mem_map.1 hmem
    simpa using h p hp
  · intro h p hp
    have hne : key ≠ p.1 := fun he => h (he ▸ List.mem_map_of_mem hp)
    simpa using hne

theorem arrive_kernelKey (u : Unfinished) (v : String) :
    record.arrive put u (kernelKey, v) =
      if u.1.isSome then .error (.duplicateField kernelKey) else .ok (some v, u.2) := by
  have hi : record.names.findIdx? (· == kernelKey) = some 0 := by decide
  rw [Record.arrive, hi]
  rfl

theorem arrive_schedulerKey (u : Unfinished) (v : String) :
    record.arrive put u (schedulerKey, v) =
      if u.2.isSome then .error (.duplicateField schedulerKey) else .ok (u.1, some v) := by
  have hi : record.names.findIdx? (· == schedulerKey) = some 1 := by decide
  rw [Record.arrive, hi]
  rfl

theorem arrive_unknown (u : Unfinished) (v : String) (hk : key ≠ kernelKey)
    (hs : key ≠ schedulerKey) :
    record.arrive put u (key, v) = .error (.unknownField key [kernelKey, schedulerKey]) := by
  have hi : record.names.findIdx? (· == key) = none := by
    simp [record, hk.symm, hs.symm]
  rw [Record.arrive, hi]
  rfl

/-- A new field is taken. -/
theorem arrive_new (hf : f.1 = kernelKey ∨ f.1 = schedulerKey) (hnew : f.1 ∉ before.map Prod.fst) :
    record.arrive put (gathered before) f = .ok (gathered (before ++ [f])) := by
  obtain ⟨key, v⟩ := f
  have hnone : before.lookup key = none := lookup_eq_none.2 hnew
  have hconcat : gathered (before ++ [(key, v)]) =
      ((before.lookup kernelKey).or (if kernelKey = key then some v else none),
        (before.lookup schedulerKey).or (if schedulerKey = key then some v else none)) :=
    Prod.ext (lookup_concat before (key, v) kernelKey) (lookup_concat before (key, v) schedulerKey)
  rw [hconcat]
  rcases hf with rfl | rfl
  · rw [arrive_kernelKey, gathered, hnone]
    simp [kernelKey_ne_schedulerKey.symm]
  · rw [arrive_schedulerKey, gathered, hnone]
    simp [kernelKey_ne_schedulerKey]

/-- A field whose key has been there or is unknown is refused. -/
theorem arrive_rejects {fault : Fault} (hb : Readable before) (h : Rejects before f fault) :
    record.arrive put (gathered before) f = .error fault := by
  obtain ⟨key, v⟩ := f
  rcases h with ⟨hmem, rfl⟩ | ⟨⟨hk, hs⟩, rfl⟩
  · have hsome : (before.lookup key).isSome = true := by
      rw [Option.isSome_iff_ne_none, Ne, lookup_eq_none, not_not]
      exact hmem
    obtain ⟨g, hg, rfl : g.1 = key⟩ := List.mem_map.1 hmem
    rcases hb.2 g hg with hkey | hkey
    · rw [hkey] at hsome ⊢
      rw [arrive_kernelKey]
      exact if_pos hsome
    · rw [hkey] at hsome ⊢
      rw [arrive_schedulerKey]
      exact if_pos hsome
  · exact arrive_unknown _ v hk hs

theorem readable_concat : Readable (before ++ [f]) ↔
    Readable before ∧ (f.1 = kernelKey ∨ f.1 = schedulerKey) ∧ f.1 ∉ before.map Prod.fst := by
  unfold Readable
  rw [List.map_append, List.map_singleton, ← List.concat_eq_append, List.nodup_concat,
    List.forall_mem_append, List.forall_mem_singleton]
  tauto

/-- Whatever follows, nothing is readable that begins with a field that cannot be taken. -/
theorem not_readable_of_rejects {fault : Fault} {after : List (String × String)}
    (h : Rejects before f fault) : ¬ Readable (before ++ f :: after) := by
  intro hr
  rcases h with ⟨hmem, -⟩ | ⟨⟨hk, hs⟩, -⟩
  · have hnodup := hr.1
    rw [List.map_append, List.map_cons, List.nodup_append] at hnodup
    exact hnodup.2.2 _ hmem _ List.mem_cons_self rfl
  · exact (hr.2 f (List.mem_append_right _ List.mem_cons_self)).elim hk hs

/-- Fields arrive up to the first one that cannot be taken. -/
theorem foldlM_arrive (pairs : List (String × String)) :
    Readable pairs ∧ pairs.foldlM (record.arrive put) record.empty = .ok (gathered pairs) ∨
      ∃ before f after fault, pairs = before ++ f :: after ∧ Readable before ∧
        Rejects before f fault ∧ pairs.foldlM (record.arrive put) record.empty = .error fault := by
  induction pairs using List.reverseRecOn with
  | nil => exact .inl ⟨⟨List.nodup_nil, nofun⟩, rfl⟩
  | append_singleton before f ih =>
    rw [List.foldlM_append]
    rcases ih with ⟨hb, hok⟩ | ⟨first, g, after, fault, rfl, hfirst, hg, herror⟩
    · have hsingle : [f].foldlM (record.arrive put) (gathered before) =
          record.arrive put (gathered before) f := by
        simp
      rw [hok]
      by_cases hmem : f.1 ∈ before.map Prod.fst
      · have hr : Rejects before f (.duplicateField f.1) := .inl ⟨hmem, rfl⟩
        exact .inr ⟨before, f, [], _, rfl, hb, hr, hsingle.trans (arrive_rejects hb hr)⟩
      by_cases hf : f.1 = kernelKey ∨ f.1 = schedulerKey
      · exact .inl ⟨readable_concat.2 ⟨hb, hf, hmem⟩, hsingle.trans (arrive_new hf hmem)⟩
      · have hr : Rejects before f (.unknownField f.1 [kernelKey, schedulerKey]) :=
          .inr ⟨not_or.1 hf, rfl⟩
        exact .inr ⟨before, f, [], _, rfl, hb, hr, hsingle.trans (arrive_rejects hb hr)⟩
    · rw [herror]
      exact .inr ⟨first, g, after ++ [f], fault, by simp, hfirst, hg, rfl⟩

/-! ### Texts -/

theorem ofJson_eq {text : String} (h : ObjectText pairs text.toList) :
    ofJson text =
      match pairs.foldlM (record.arrive put) record.empty with
      | .ok u => .ok (ofUnfinished u)
      | .error fault => .error (.configuration (.unreadable fault)) := by
  rw [ofJson, Record.parse_objectText record_stringly h]
  cases pairs.foldlM (record.arrive put) record.empty <;> rfl

theorem gives_lookup (h : (pairs.map Prod.fst).Nodup) (key absent : String) :
    Gives pairs key absent ((pairs.lookup key).getD absent) := by
  constructor
  · intro v hv
    cases hl : pairs.lookup key with
    | none => exact absurd (List.mem_map_of_mem hv) (lookup_eq_none.1 hl)
    | some w =>
      have heq := List.inj_on_of_nodup_map h (mem_of_lookup hl) hv rfl
      exact congrArg Prod.snd heq
  · intro hnone
    rw [lookup_eq_none.2 hnone, Option.getD_none]

/-- A configuration is written as an object with both names. -/
theorem objectText_toJson (c : Config) (L : Layout) :
    ObjectText [(kernelKey, c.kernelType), (schedulerKey, c.schedulerType)]
      (String.ofList (L.write c.toJson)).toList := by
  rw [String.toList_ofList]
  exact objectText_write L (kernelKey, c.kernelType) [(schedulerKey, c.schedulerType)]

/-- A configuration that is written in either layout is read back. -/
theorem ofJson_toJson (c : Config) (L : Layout) :
    ofJson (String.ofList (L.write c.toJson)) = .ok c := by
  have hfields : [(kernelKey, c.kernelType), (schedulerKey, c.schedulerType)].foldlM
      (record.arrive put) record.empty = .ok (some c.kernelType, some c.schedulerType) := by
    rw [List.foldlM_cons, arrive_kernelKey]
    exact congrArg (· >>= _) (arrive_schedulerKey (some c.kernelType, none) c.schedulerType)
  rw [ofJson_eq (objectText_toJson c L), hfields]
  rfl

/-- **An object is read if its keys are distinct and among the two names.**  Take pairs of a key and
a value, all of them strings, and any text of the object that has these fields in this order: any
blanks between the tokens, any spelling of the strings.  Then a configuration is read if and only if
no key comes twice and each is one of the two names; the configuration has each value that is given,
and the default for a name that is not there, whatever the order of the fields.  Otherwise the text
is refused for the first field whose key has been there already or is unknown.  And the two texts
that a configuration is written as are read as that configuration. -/
theorem ofJson_objectText {pairs : List (String × String)} {text : String}
    (h : ObjectText pairs text.toList) :
    ((∃ c, ofJson text = .ok c) ↔
      (pairs.map Prod.fst).Nodup ∧ ∀ f ∈ pairs, f.1 = kernelKey ∨ f.1 = schedulerKey) ∧
    (∀ c, ofJson text = .ok c →
      Gives pairs kernelKey default.kernelType c.kernelType ∧
        Gives pairs schedulerKey default.schedulerType c.schedulerType) ∧
    (∀ e, ofJson text = .error e →
      ∃ before f after fault, pairs = before ++ f :: after ∧ Readable before ∧
        Rejects before f fault ∧ e = .configuration (.unreadable fault)) ∧
    ∀ (c : Config) (L : Layout), ofJson (String.ofList (L.write c.toJson)) = .ok c := by
  rw [ofJson_eq h]
  rcases foldlM_arrive pairs with ⟨hr, hok⟩ | ⟨before, f, after, fault, rfl, hb, hf, herror⟩
  · rw [hok]
    dsimp only
    refine ⟨⟨fun _ => hr, fun _ => ⟨_, rfl⟩⟩, fun c hc => ?_, fun e he => ?_, ofJson_toJson⟩
    · cases hc
      exact ⟨gives_lookup hr.1 _ _, gives_lookup hr.1 _ _⟩
    · cases he
  · rw [herror]
    dsimp only
    refine ⟨⟨nofun, fun hr => absurd hr (not_readable_of_rejects hf)⟩, nofun, fun e he => ?_,
      ofJson_toJson⟩
    cases he
    exact ⟨before, f, after, fault, rfl, hb, hf, rfl⟩

/-- An object with its names in the other order, an escape in a key and a pair of surrogates. -/
def clefText : String :=
  "\x7b \"\\u0053chedulerType\" :\n\"\\ud834\\uDD1E\" ,\"SimulatorImplementationType\":\"a\"\x7d\t"

theorem objectText_clefText :
    ObjectText [(schedulerKey, "𝄞"), (kernelKey, "a")] clefText.toList := by
  have hs : Hex ['0', '0', '5', '3'] 83 :=
    .digits (show hexValue? '0' = some 0 by decide) (show hexValue? '0' = some 0 by decide)
      (show hexValue? '5' = some 5 by decide) (show hexValue? '3' = some 3 by decide)
  have hhigh : Hex ['d', '8', '3', '4'] 0xD834 :=
    .digits (show hexValue? 'd' = some 13 by decide) (show hexValue? '8' = some 8 by decide)
      (show hexValue? '3' = some 3 by decide) (show hexValue? '4' = some 4 by decide)
  have hlow : Hex ['D', 'D', '1', 'E'] 0xDD1E :=
    .digits (show hexValue? 'D' = some 13 by decide) (show hexValue? 'D' = some 13 by decide)
      (show hexValue? '1' = some 1 by decide) (show hexValue? 'E' = some 14 by decide)
  have hkey : StringText schedulerKey _ :=
    ⟨_, .cons (.escaped (.number hs)) (spelled_flatMap_escape "chedulerType".toList), rfl⟩
  have hvalue : StringText "𝄞" _ :=
    ⟨_, .cons (.escaped (.pair hhigh hlow (by decide) (by decide) (by decide))) .nil, rfl⟩
  have hspace : Blank [' '] := by decide
  have hfirst : FieldText (schedulerKey, "𝄞") _ :=
    ⟨_, _, _, _, _, hspace, hkey, hspace, (by decide : Blank ['\n']), hvalue, rfl⟩
  have hlast : FieldText (kernelKey, "a") _ :=
    ⟨_, _, _, _, _, blank_nil, stringText_quote kernelKey, blank_nil,
      blank_nil, stringText_quote "a", rfl⟩
  have htext : ObjectText [(schedulerKey, "𝄞"), (kernelKey, "a")] ([] ++ _) :=
    .members blank_nil (.cons hfirst hspace (.last hlast blank_nil))
      (by decide : Blank ['\t'])
  exact htext

theorem ofJson_objectText_clefText : ofJson clefText = .ok ⟨"a", "𝄞"⟩ := by
  obtain ⟨hiff, hgives, -, -⟩ := ofJson_objectText objectText_clefText
  obtain ⟨c, hc⟩ := hiff.2 ⟨by decide, by decide⟩
  obtain ⟨hk, hs⟩ := hgives c hc
  have hkernel : c.kernelType = "a" := hk.1 "a" (by decide)
  have hscheduler : c.schedulerType = "𝄞" := hs.1 "𝄞" (by decide)
  rw [hc, ← hkernel, ← hscheduler]

end EventSim.Config
