import EventSim.Proofs.Facade.Configuration
import Mathlib.Data.List.TakeWhile
import Mathlib.Tactic.ByContra

/-!
# A text of assignments and its grammar

`assign` walks over the segments of a text and stops at the first fault.  Here that walk is compared
with the grammar, which is stated by concatenation: a segment is an assignment if it has the form
`before ++ '=' :: after`, with no equals sign in `before`, and the text is cut at every semicolon by
the `splitOn` of the library.

**What the segments before the first fault ask for is done, and no more** (`assign_grammar`).
-/

namespace EventSim.Config

/-! ### Segments -/

theorem splitOn_eq (separator : Char) (text : List Char) :
    splitOn separator text = text.splitOn separator := by
  induction text with
  | nil => rfl
  | cons c rest ih =>
    rw [splitOn, ih, List.splitOn_cons_eq_if_modifyHead]
    by_cases h : c = separator
    · simp [h]
    · rw [if_neg h, if_neg (by simpa using h)]
      cases hs : rest.splitOn separator with
      | nil => exact absurd hs (List.splitOn_ne_nil _ _)
      | cons part parts => rfl

theorem segments_eq (text : List Char) :
    segments text = ((text.splitOn ';').map Text.trim).filter (· ≠ []) := by
  unfold segments
  rw [splitOn_eq]
  refine congrArg (List.filter · _) (funext fun s => ?_)
  cases s <;> rfl

/-- No segment reaches over a semicolon. -/
theorem segments_append (a b : List Char) :
    segments (a ++ ';' :: b) = segments a ++ segments b := by
  rw [segments_eq, segments_eq, segments_eq, List.splitOn_append_cons_self, List.map_append,
    List.filter_append]

/-! ### Assignments -/

/-- A segment has an equals sign; around the first one, blanks left out, are a name and a value. -/
def Reads (segment : List Char) (name value : String) : Prop :=
  ∃ before after, segment = before ++ '=' :: after ∧ '=' ∉ before ∧
    Text.trim before = name.toList ∧ Text.trim after = value.toList

/-- The name of a segment is that of one of the two values. -/
def Good (segment : List Char) : Prop :=
  ∃ value, Reads segment kernelKey value ∨ Reads segment schedulerKey value

/-- The last segment that has the name holds the value, or none has it and the value stays. -/
def Leaves (segments : List (List Char)) (name old new : String) : Prop :=
  (∃ earlier last later, segments = earlier ++ last :: later ∧ Reads last name new ∧
      ∀ s ∈ later, ∀ value, ¬ Reads s name value) ∨
    (∀ s ∈ segments, ∀ value, ¬ Reads s name value) ∧ new = old

/-- Segments leave a value to each of the two names. -/
def Follows (c : Config) (segments : List (List Char)) (d : Config) : Prop :=
  Leaves segments kernelKey c.kernelType d.kernelType ∧
    Leaves segments schedulerKey c.schedulerType d.schedulerType

/-- A segment is refused because it has no equals sign, or else because of its name. -/
def Blames (segment : List Char) (fault : ConfigFault) : Prop :=
  '=' ∉ segment ∧ fault = .notAssignment (String.ofList segment) ∨
    ∃ name value, Reads segment name value ∧ fault = .unknownName name

/-- What a segment is refused for. -/
def complaint (segment : List Char) : ConfigFault :=
  match parted segment with
  | none => .notAssignment (String.ofList segment)
  | some (name, _) => .unknownName name

variable {c d : Config} {segment : List Char} {segments before after : List (List Char)}
  {name value : String}

theorem parted_append {before : List Char} (h : '=' ∉ before) (after : List Char) :
    parted (before ++ '=' :: after) =
      some (String.ofList (Text.trim before), String.ofList (Text.trim after)) := by
  have hb : ∀ a ∈ before, decide (a ≠ '=') = true := fun a ha =>
    decide_eq_true fun he => h (he ▸ ha)
  unfold parted
  rw [List.dropWhile_append_of_pos hb, List.takeWhile_append_of_pos hb]
  simp

/-- A segment without an equals sign has no parts. -/
theorem parted_eq_none_iff : parted segment = none ↔ '=' ∉ segment := by
  constructor
  · intro h hmem
    obtain ⟨before, after, rfl, hb⟩ := List.eq_append_cons_of_mem hmem
    rw [parted_append hb] at h
    cases h
  · intro h
    have hall : ∀ a ∈ segment, decide (a ≠ '=') = true := fun a ha =>
      decide_eq_true fun he => h (he ▸ ha)
    unfold parted
    rw [List.dropWhile_eq_nil_iff.2 hall]

theorem parted_eq_some_iff : parted segment = some (name, value) ↔ Reads segment name value := by
  constructor
  · intro h
    have hmem : '=' ∈ segment := by
      by_contra hn
      rw [parted_eq_none_iff.2 hn] at h
      cases h
    obtain ⟨before, after, rfl, hb⟩ := List.eq_append_cons_of_mem hmem
    rw [parted_append hb] at h
    obtain ⟨rfl, rfl⟩ := Prod.mk.inj (Option.some.inj h)
    exact ⟨before, after, rfl, hb, String.toList_ofList.symm, String.toList_ofList.symm⟩
  · rintro ⟨before, after, rfl, hb, hname, hvalue⟩
    rw [parted_append hb, hname, hvalue, String.ofList_toList, String.ofList_toList]

theorem assigns_iff_good : Assigns segment ↔ Good segment := by
  unfold Assigns Good
  simp only [← parted_eq_some_iff]
  constructor
  · rintro ⟨⟨name, value⟩, hp, rfl | rfl⟩
    · exact ⟨value, .inl hp⟩
    · exact ⟨value, .inr hp⟩
  · rintro ⟨value, hp | hp⟩
    · exact ⟨_, hp, .inl rfl⟩
    · exact ⟨_, hp, .inr rfl⟩

theorem blames_complaint (segment : List Char) : Blames segment (complaint segment) := by
  unfold complaint
  cases hp : parted segment with
  | none => exact .inl ⟨parted_eq_none_iff.1 hp, rfl⟩
  | some p => exact .inr ⟨p.1, p.2, parted_eq_some_iff.1 hp, rfl⟩

/-- A segment that is no assignment is refused for what is wrong with it. -/
theorem assignSegment_of_not_assigns (h : ¬ Assigns segment) (c : Config) :
    c.assignSegment segment = .error (complaint segment) := by
  rw [assignSegment_eq]
  unfold complaint
  cases hp : parted segment with
  | none => rfl
  | some p =>
    obtain ⟨name, value⟩ := p
    have hk : name ≠ kernelKey := fun hk => h ⟨_, hp, .inl hk⟩
    have hs : name ≠ schedulerKey := fun hs => h ⟨_, hp, .inr hs⟩
    dsimp only
    rw [set, if_neg hk, if_neg hs]

/-! ### The walk over the segments -/

theorem assignSegments_append (c : Config) (earlier later : List (List Char)) :
    c.assignSegments (earlier ++ later) =
      match c.assignSegments earlier with
      | (d, none) => d.assignSegments later
      | failed => failed := by
  induction earlier generalizing c with
  | nil => rfl
  | cons s rest ih =>
    rw [List.cons_append, assignSegments, assignSegments]
    split
    · rfl
    · exact ih _

/-- The walk ends at the first fault, and what was asked for before it is done. -/
theorem assignSegments_of_not_assigns (hbefore : ∀ s ∈ before, Assigns s) (h : ¬ Assigns segment) :
    c.assignSegments (before ++ segment :: after) =
      (c.overlaid before, some (complaint segment)) := by
  rw [assignSegments_append, assignSegments_eq_none_iff.2 ⟨hbefore, rfl⟩]
  dsimp only
  rw [assignSegments, assignSegment_of_not_assigns h]

theorem lastFor_append (name : String) (earlier later : List (List Char)) :
    lastFor name (earlier ++ later) = (lastFor name later).or (lastFor name earlier) := by
  unfold lastFor
  rw [List.filterMap_append, List.reverse_append]
  exact List.lookup_append

theorem reads_of_lastFor_singleton (h : lastFor name [segment] = some value) :
    Reads segment name value := by
  have hnil : lastFor name [] = none := rfl
  rw [← parted_eq_some_iff]
  cases hp : parted segment with
  | none => simp [lastFor, NameTable.find?, hp] at h
  | some p =>
    obtain ⟨key, v⟩ := p
    rw [lastFor_cons hp, hnil, Option.none_or] at h
    split at h
    · rename_i hk
      rw [hk, Option.some.inj h]
    · cases h

theorem not_reads_of_lastFor (h : lastFor name segments = none) :
    ∀ s ∈ segments, ∀ value, ¬ Reads s name value := by
  intro s hs value hr
  have hmem : (name, value) ∈ (segments.filterMap parted).reverse :=
    List.mem_reverse.2 (List.mem_filterMap.2 ⟨s, hs, parted_eq_some_iff.2 hr⟩)
  simpa using List.lookup_eq_none_iff.1 h _ hmem

theorem last_of_lastFor (h : lastFor name segments = some value) :
    ∃ earlier last later, segments = earlier ++ last :: later ∧ Reads last name value ∧
      ∀ s ∈ later, ∀ v, ¬ Reads s name v := by
  induction segments with
  | nil => cases h
  | cons s rest ih =>
    rw [← List.singleton_append, lastFor_append] at h
    cases hrest : lastFor name rest with
    | none =>
      rw [hrest, Option.none_or] at h
      exact ⟨[], s, rest, rfl, reads_of_lastFor_singleton h, not_reads_of_lastFor hrest⟩
    | some v =>
      rw [hrest, Option.some_or] at h
      obtain ⟨earlier, last, later, rfl, hlast, hlater⟩ := ih (hrest.trans h)
      exact ⟨s :: earlier, last, later, rfl, hlast, hlater⟩

theorem leaves_lastFor (segments : List (List Char)) (name old : String) :
    Leaves segments name old ((lastFor name segments).getD old) := by
  cases h : lastFor name segments with
  | none => exact .inr ⟨not_reads_of_lastFor h, rfl⟩
  | some value => exact .inl (last_of_lastFor h)

theorem follows_overlaid (c : Config) (segments : List (List Char)) :
    Follows c segments (c.overlaid segments) :=
  ⟨leaves_lastFor segments kernelKey _, leaves_lastFor segments schedulerKey _⟩

/-- A text that is walked over in two parts, cut at a semicolon. -/
theorem assign_append (c : Config) (a b : String) :
    c.assign (a ++ ";" ++ b) =
      match c.assign a with
      | (d, none) => d.assign b
      | failed => failed := by
  have htext : (a ++ ";" ++ b).toList = a.toList ++ ';' :: b.toList := by simp
  unfold assign
  rw [htext, segments_append, assignSegments_append]

/-- **What the segments before the first fault ask for is done, and no more.**  Cut a text at each
semicolon, leave out the blanks around the pieces and then the empty pieces; call a segment good if
what stands before its first equals sign is, without blanks, one of the two names.  If all segments
are good then the text is accepted, and each field holds what stands after the first equals sign of
the last segment that names it, or its old value if no segment does.  Otherwise the text is refused
for the first segment that is not good, and the fields are what the segments before that one
leave.  So a text that has a semicolon between two parts is the second part assigned after the
first, unless the first is refused. -/
theorem assign_grammar (c : Config) (text : String) (segments : List (List Char))
    (h : segments = ((text.toList.splitOn ';').map Text.trim).filter (· ≠ [])) :
    ((∀ s ∈ segments, Good s) →
      ∃ d, c.assign text = (d, none) ∧ c.assigned text = .ok d ∧ Follows c segments d) ∧
    (∀ before bad after, segments = before ++ bad :: after →
      (∀ s ∈ before, Good s) → ¬ Good bad →
      ∃ d fault, c.assign text = (d, some fault) ∧
        c.assigned text = .error (.configuration fault) ∧ Blames bad fault ∧ Follows c before d) ∧
    ∀ next : String, c.assign (text ++ ";" ++ next) =
      match c.assign text with
      | (d, none) => d.assign next
      | failed => failed := by
  rw [← segments_eq] at h
  subst h
  refine ⟨fun hall => ?_, fun before bad after hs hbefore hbad => ?_, assign_append c text⟩
  · have ha : c.assign text = (c.overlaid (Config.segments text.toList), none) :=
      assignSegments_eq_none_iff.2 ⟨fun s hs => assigns_iff_good.2 (hall s hs), rfl⟩
    exact ⟨_, ha, by rw [assigned, ha], follows_overlaid c _⟩
  · have ha : c.assign text = (c.overlaid before, some (complaint bad)) := by
      unfold assign
      rw [hs]
      exact assignSegments_of_not_assigns (fun s hs => assigns_iff_good.2 (hbefore s hs))
        (mt assigns_iff_good.1 hbad)
    exact ⟨_, _, ha, by rw [assigned, ha], blames_complaint bad, follows_overlaid c before⟩

/-- A name is given twice, the second time a value with blanks and an equals sign in it; the segment
after that has no equals sign, and the one behind it is not carried out, nor is a next text. -/
theorem assign_grammar_partial :
    ∃ d : Config, d = ⟨Config.builtInKernel, "c = d"⟩ ∧
      Follows .default ["SchedulerType=a=b".toList, "SchedulerType =\tc = d".toList] d ∧
      (∀ next, Config.default.assign
        ("SchedulerType=a=b; ;SchedulerType =\tc = d ;x;SchedulerType=y" ++ ";" ++ next) =
          (d, some (.notAssignment "x"))) := by
  obtain ⟨-, hbad, happend⟩ := assign_grammar .default
    "SchedulerType=a=b; ;SchedulerType =\tc = d ;x;SchedulerType=y"
    ["SchedulerType=a=b".toList, "SchedulerType =\tc = d".toList, "x".toList,
      "SchedulerType=y".toList] (by decide +kernel)
  obtain ⟨d, fault, hd, -, -, hfollows⟩ := hbad
    ["SchedulerType=a=b".toList, "SchedulerType =\tc = d".toList] "x".toList
    ["SchedulerType=y".toList] rfl
    (fun s hs => assigns_iff_good.1
      ((by decide +kernel : ∀ s ∈ ["SchedulerType=a=b".toList, "SchedulerType =\tc = d".toList],
        Assigns s) s hs))
    (mt assigns_iff_good.2 (by decide +kernel))
  have hval : Config.default.assign
      "SchedulerType=a=b; ;SchedulerType =\tc = d ;x;SchedulerType=y" =
        (⟨Config.builtInKernel, "c = d"⟩, some (.notAssignment "x")) := by decide +kernel
  obtain ⟨rfl, -⟩ := Prod.mk.inj (hd.symm.trans hval)
  exact ⟨_, rfl, hfollows, fun next => by rw [happend, hval]⟩

end EventSim.Config
