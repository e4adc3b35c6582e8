import EventSim.Setup

/-!
# The configuration can always be resolved

Both names of the configuration stand for something in the registry, whatever is registered,
written, assigned, chosen or restored.  A registration only adds names or changes what a name stands
for, and a configuration is written only when both its names are known.

What an assignment asks for is told apart from how it is carried out: every segment names one of the
two values, and the last segment for a name wins.  **Adjustments keep the configuration resolvable,
and each is made as a whole or not at all** (`adjust_all_or_nothing`).
-/

namespace EventSim

/-! ### Tables of names -/

namespace NameTable

variable {α : Type}

theorem find?_cons (t : NameTable α) (name other : String) (a : α) :
    find? ((name, a) :: t) other = if other = name then some a else t.find? other := by
  unfold find?
  rw [List.lookup_cons]
  by_cases h : other = name
  · simp [h]
  · simp [h, beq_false_of_ne h]

theorem find?_register (t : NameTable α) (name other : String) (a : α) :
    (register name a t).find? other = if other = name then some a else t.find? other := by
  induction t with
  | nil => exact find?_cons [] name other a
  | cons entry rest ih =>
    obtain ⟨n, b⟩ := entry
    unfold register
    split
    · exact find?_cons _ name other a
    · split
      · rename_i hn
        subst hn
        rw [find?_cons, find?_cons]
        split <;> rfl
      · rename_i hn
        rw [find?_cons, find?_cons, ih]
        grind

/-- Registering forgets no name. -/
theorem isSome_find?_register {t : NameTable α} {other : String} (name : String) (a : α)
    (h : (t.find? other).isSome) : ((register name a t).find? other).isSome := by
  rw [find?_register]
  split
  · rfl
  · exact h

end NameTable

namespace Registry

variable {r : Registry} {c d : Config} {name : String}

theorem kernel_eq_ok_iff :
    (∃ spec, r.kernel name = .ok spec) ↔ (r.kernels.find? name).isSome := by
  unfold kernel
  cases r.kernels.find? name <;> simp

theorem scheduler_eq_ok_iff :
    (∃ b, r.scheduler name = .ok b) ↔ (r.schedulers.find? name).isSome := by
  unfold scheduler
  cases r.schedulers.find? name <;> simp

/-- A configuration validates if both its names are known. -/
theorem validate_eq_ok_iff :
    r.validate c = .ok () ↔
      (r.kernels.find? c.kernelType).isSome ∧ (r.schedulers.find? c.schedulerType).isSome := by
  unfold validate kernel scheduler
  cases r.kernels.find? c.kernelType <;> cases r.schedulers.find? c.schedulerType <;> simp

instance : Decidable (r.validate c = .ok ()) := decidable_of_iff _ validate_eq_ok_iff.symm

theorem validate_registerKernel (spec : KernelSpec) (h : r.validate c = .ok ()) :
    { r with kernels := NameTable.register name spec r.kernels }.validate c = .ok () := by
  rw [validate_eq_ok_iff] at h ⊢
  exact ⟨NameTable.isSome_find?_register name spec h.1, h.2⟩

theorem validate_registerScheduler (b : Backend) (h : r.validate c = .ok ()) :
    { r with schedulers := NameTable.register name b r.schedulers }.validate c = .ok () := by
  rw [validate_eq_ok_iff] at h ⊢
  exact ⟨h.1, NameTable.isSome_find?_register name b h.2⟩

end Registry

/-! ### What a text asks for -/

namespace Config

/-- The name and the value that a segment holds. -/
def parted (segment : List Char) : Option (String × String) :=
  match segment.dropWhile (· ≠ '=') with
  | [] => none
  | _ :: value =>
    some (String.ofList (Text.trim (segment.takeWhile (· ≠ '='))),
      String.ofList (Text.trim value))

/-- A segment gives a value to one of the two names. -/
def Assigns (segment : List Char) : Prop :=
  ∃ p ∈ parted segment, p.1 = kernelKey ∨ p.1 = schedulerKey

instance : DecidablePred Assigns := fun segment =>
  inferInstanceAs (Decidable (∃ p ∈ parted segment, _))

/-- The value that the last segment for a name gives to it. -/
def lastFor (name : String) (segments : List (List Char)) : Option String :=
  NameTable.find? (segments.filterMap parted).reverse name

/-- The configuration with the values that segments ask for and the other values kept. -/
def overlaid (c : Config) (segments : List (List Char)) : Config :=
  ⟨(lastFor kernelKey segments).getD c.kernelType,
    (lastFor schedulerKey segments).getD c.schedulerType⟩

theorem kernelKey_ne_schedulerKey : kernelKey ≠ schedulerKey := by decide

variable {c d : Config} {segment : List Char} {segments : List (List Char)}

theorem assignSegment_eq (c : Config) (segment : List Char) :
    c.assignSegment segment =
      match parted segment with
      | none => .error (.notAssignment (String.ofList segment))
      | some (name, value) => c.set name value := by
  unfold assignSegment parted
  cases segment.dropWhile (· ≠ '=') <;> rfl

theorem lastFor_cons {name key value : String} (h : parted segment = some (key, value)) :
    lastFor name (segment :: segments) =
      (lastFor name segments).or (if name = key then some value else none) := by
  unfold lastFor
  rw [List.filterMap_cons_some h, List.reverse_cons]
  exact List.lookup_append.trans
    (congrArg (Option.or _) (NameTable.find?_cons [] key name value))

/-- A segment that gives a value to a name is carried out, and what the later segments ask for hides
it. -/
theorem assignSegment_of_assigns (h : Assigns segment) (c : Config) :
    ∃ d, c.assignSegment segment = .ok d ∧
      ∀ segments, d.overlaid segments = c.overlaid (segment :: segments) := by
  obtain ⟨⟨name, value⟩, hp, hname⟩ := h
  have hp : parted segment = some (name, value) := hp
  rcases hname with rfl | rfl
  · refine ⟨{ c with kernelType := value }, by simp [assignSegment_eq, hp, set], fun segments => ?_⟩
    simp only [overlaid, lastFor_cons hp, kernelKey_ne_schedulerKey.symm, if_true, if_false]
    cases lastFor kernelKey segments <;> cases lastFor schedulerKey segments <;> rfl
  · refine ⟨{ c with schedulerType := value },
      by simp [assignSegment_eq, hp, set, kernelKey_ne_schedulerKey.symm], fun segments => ?_⟩
    simp only [overlaid, lastFor_cons hp, kernelKey_ne_schedulerKey, if_true, if_false]
    cases lastFor kernelKey segments <;> cases lastFor schedulerKey segments <;> rfl

theorem assigns_of_assignSegment (h : c.assignSegment segment = .ok d) : Assigns segment := by
  rw [assignSegment_eq] at h
  split at h
  · cases h
  · rename_i name value hp
    refine ⟨(name, value), hp, ?_⟩
    unfold set at h
    grind

/-- Segments are carried out to the end if each of them is an assignment, and then they leave the
values that they ask for. -/
theorem assignSegments_eq_none_iff :
    c.assignSegments segments = (d, none) ↔
      (∀ s ∈ segments, Assigns s) ∧ d = c.overlaid segments := by
  induction segments generalizing c with
  | nil => simp [assignSegments, overlaid, lastFor, NameTable.find?, eq_comm]
  | cons s rest ih =>
    rw [assignSegments]
    constructor
    · intro h
      split at h
      · cases h
      · rename_i hs
        have ha := assigns_of_assignSegment hs
        obtain ⟨_, hd, ho⟩ := assignSegment_of_assigns ha c
        cases hs.symm.trans hd
        obtain ⟨hrest, rfl⟩ := ih.1 h
        exact ⟨List.forall_mem_cons.2 ⟨ha, hrest⟩, ho rest⟩
    · rintro ⟨hall, rfl⟩
      obtain ⟨ha, hrest⟩ := List.forall_mem_cons.1 hall
      obtain ⟨_, hd, ho⟩ := assignSegment_of_assigns ha c
      rw [hd]
      exact ih.2 ⟨hrest, (ho rest).symm⟩

/-- A text is accepted if each of its segments is an assignment, and then the configuration has the
values that it asks for. -/
theorem assigned_eq_ok_iff {text : String} :
    c.assigned text = .ok d ↔
      (∀ s ∈ Config.segments text.toList, Assigns s) ∧
        d = c.overlaid (Config.segments text.toList) := by
  rw [← assignSegments_eq_none_iff, assigned, assign]
  split <;> rename_i h <;> simp [h]

end Config

/-! ### Adjustments -/

/-- A call that changes the registry or the configuration. -/
inductive Adjustment where
  | registerKernel (name : String) (spec : KernelSpec)
  | registerScheduler (name : String) (backend : Backend)
  | apply (c : Config)
  | assign (text : String)
  | chooseKernel (name : String)
  | chooseScheduler (name : String)
  | reset

namespace Adjustment

/-- The configuration that a call asks for, `c` being the present one. -/
def requested (c : Config) : Adjustment → Config
  | .registerKernel .. | .registerScheduler .. => c
  | .apply d => d
  | .assign text => c.overlaid (Config.segments text.toList)
  | .chooseKernel name => { c with kernelType := name }
  | .chooseScheduler name => { c with schedulerType := name }
  | .reset => .default

/-- The text of a call, if it has one, consists of assignments. -/
def WellFormed : Adjustment → Prop
  | .assign text => ∀ s ∈ Config.segments text.toList, Config.Assigns s
  | _ => True

instance : DecidablePred WellFormed
  | .assign text =>
    inferInstanceAs (Decidable (∀ s ∈ Config.segments text.toList, Config.Assigns s))
  | .registerKernel .. | .registerScheduler .. | .apply _ | .chooseKernel _ | .chooseScheduler _
  | .reset => .isTrue trivial

end Adjustment

namespace World

/-- The world after a call on the registry or the configuration, and what it answers. -/
def adjust (w : World) : Adjustment → Except Panic Reply × World
  | .registerKernel name spec => w.enroll (.registerKernel name spec)
  | .registerScheduler name b => w.enroll (.registerScheduler name b)
  | .apply c => w.apply c
  | .assign text => w.configure (.assign text)
  | .chooseKernel name => w.configure (.chooseKernel name)
  | .chooseScheduler name => w.configure (.chooseScheduler name)
  | .reset => w.configure .reset

/-- The world after calls on the registry and the configuration, one after another. -/
def adjustAll (w : World) (calls : List Adjustment) : World :=
  calls.foldl (fun w a => (w.adjust a).2) w

/-- The configuration is `c`; both its names are known, and the names of the default are. -/
structure Resolvable (w : World) (c : Config) : Prop where
  config : w.config = .ok c
  validates : w.registry.validate c = .ok ()
  default : w.registry.validate .default = .ok ()

variable {w : World} {c d : Config} {a : Adjustment}

theorem Resolvable.write (h : w.Resolvable c) (hd : w.registry.validate d = .ok ()) :
    w.write d = (.ok .done, { w with written := some d }) ∧
      { w with written := some d }.Resolvable d := by
  unfold World.write
  rw [h.config]
  exact ⟨rfl, rfl, hd, h.default⟩

/-- A configuration is written if both its names are known; otherwise nothing happens. -/
theorem Resolvable.apply (h : w.Resolvable c) (d : Config) :
    (∃ e, w.apply d = (.ok (.refused e), w) ∧ w.registry.validate d = .error e) ∨
      w.apply d = (.ok .done, { w with written := some d }) ∧
        { w with written := some d }.Resolvable d := by
  unfold World.apply
  split
  · exact .inl ⟨_, rfl, ‹_›⟩
  · exact .inr (h.write ‹_›)

/-- A configuration that differs from the present one in a known kernel is written. -/
theorem Resolvable.chooseKernel (h : w.Resolvable c) (name : String) :
    w.chooseKernel name = w.apply { c with kernelType := name } := by
  obtain ⟨-, hs⟩ := Registry.validate_eq_ok_iff.1 h.validates
  obtain ⟨b, hs⟩ := Registry.scheduler_eq_ok_iff.2 hs
  unfold World.chooseKernel World.apply onConfig Registry.validate
  rw [h.config]
  dsimp only
  rw [hs]
  cases w.registry.kernel name <;> rfl

/-- A configuration that differs from the present one in a known scheduler is written. -/
theorem Resolvable.chooseScheduler (h : w.Resolvable c) (name : String) :
    w.chooseScheduler name = w.apply { c with schedulerType := name } := by
  obtain ⟨hk, -⟩ := Registry.validate_eq_ok_iff.1 h.validates
  obtain ⟨spec, hk⟩ := Registry.kernel_eq_ok_iff.2 hk
  unfold World.chooseScheduler World.apply onConfig Registry.validate
  rw [h.config]
  dsimp only
  rw [hk]
  cases w.registry.scheduler name <;> rfl

/-- A text is applied if each of its segments is an assignment; otherwise nothing happens. -/
theorem Resolvable.assign (h : w.Resolvable c) (text : String) :
    (∃ e, w.configure (.assign text) = (.ok (.refused e), w) ∧
        ¬ (Adjustment.assign text).WellFormed) ∨
      w.configure (.assign text) = w.apply ((Adjustment.assign text).requested c) ∧
        (Adjustment.assign text).WellFormed := by
  unfold configure onConfig
  rw [h.config]
  dsimp only
  split
  · rename_i e he
    refine .inl ⟨e, rfl, fun hwell => ?_⟩
    cases he.symm.trans (Config.assigned_eq_ok_iff.2 ⟨hwell, rfl⟩)
  · rename_i d hd
    obtain ⟨hwell, rfl⟩ := Config.assigned_eq_ok_iff.1 hd
    exact .inr ⟨rfl, hwell⟩

/-- A call whose text consists of assignments and whose configuration has known names. -/
def Accepts (w : World) (c : Config) (a : Adjustment) : Prop :=
  a.WellFormed ∧ w.registry.validate (a.requested c) = .ok ()

instance : Decidable (w.Accepts c a) := inferInstanceAs (Decidable (_ ∧ _))

/-- A call is refused and does nothing, or the configuration is the one that it asks for. -/
def Settles (w : World) (c : Config) (a : Adjustment) : Prop :=
  (∃ e, w.adjust a = (.ok (.refused e), w) ∧ ¬ w.Accepts c a) ∨
    ∃ x, (w.adjust a).1 = .ok x ∧ (∀ e, x ≠ .refused e) ∧ w.Accepts c a ∧
      (w.adjust a).2.Resolvable (a.requested c)

/-- A call that comes down to writing a configuration. -/
theorem Resolvable.settles_of_apply (h : w.Resolvable c)
    (ha : w.adjust a = w.apply (a.requested c)) (hwell : a.WellFormed) : w.Settles c a := by
  rcases h.apply (a.requested c) with ⟨e, he, hv⟩ | ⟨hd, hr⟩
  · exact .inl ⟨e, ha.trans he, fun hacc => by cases hv.symm.trans hacc.2⟩
  · refine .inr ⟨.done, by rw [ha, hd], by simp, ⟨hwell, hr.validates⟩, ?_⟩
    rw [ha, hd]
    exact hr

theorem Resolvable.settles (h : w.Resolvable c) (a : Adjustment) : w.Settles c a := by
  cases a with
  | registerKernel name spec =>
    exact .inr ⟨_, rfl, by simp, ⟨trivial, h.validates⟩, h.config,
      Registry.validate_registerKernel spec h.validates,
      Registry.validate_registerKernel spec h.default⟩
  | registerScheduler name b =>
    exact .inr ⟨_, rfl, by simp, ⟨trivial, h.validates⟩, h.config,
      Registry.validate_registerScheduler b h.validates,
      Registry.validate_registerScheduler b h.default⟩
  | apply d => exact h.settles_of_apply rfl trivial
  | assign text =>
    rcases h.assign text with ⟨e, he, hill⟩ | ⟨ha, hwell⟩
    · exact .inl ⟨e, he, fun hacc => hill hacc.1⟩
    · exact h.settles_of_apply ha hwell
  | chooseKernel name => exact h.settles_of_apply (h.chooseKernel name) trivial
  | chooseScheduler name => exact h.settles_of_apply (h.chooseScheduler name) trivial
  | reset =>
    obtain ⟨hd, hr⟩ := h.write h.default
    have ha : w.adjust .reset = w.write .default := rfl
    refine .inr ⟨.done, by rw [ha, hd], by simp, ⟨trivial, h.default⟩, ?_⟩
    rw [ha, hd]
    exact hr

/-- Some configuration can be resolved after every call. -/
theorem Resolvable.adjustAll (h : w.Resolvable c) (calls : List Adjustment) :
    ∃ d, (w.adjustAll calls).Resolvable d := by
  induction calls generalizing w c with
  | nil => exact ⟨c, h⟩
  | cons a rest ih =>
    rcases h.settles a with ⟨e, he, -⟩ | ⟨x, -, -, -, hr⟩
    · have hw : (w.adjust a).2 = w := by rw [he]
      exact ih (hw.symm ▸ h)
    · exact ih hr

/-- A kernel can be built. -/
theorem Resolvable.construct (h : w.Resolvable c) : ∃ made, w.construct = .ok made := by
  obtain ⟨hk, hs⟩ := Registry.validate_eq_ok_iff.1 h.validates
  obtain ⟨spec, hk⟩ := Registry.kernel_eq_ok_iff.2 hk
  obtain ⟨b, hs⟩ := Registry.scheduler_eq_ok_iff.2 hs
  unfold World.construct
  rw [h.config]
  dsimp only
  rw [hk, hs]
  exact ⟨_, rfl⟩

/-- **Adjustments keep the configuration resolvable, and each is made as a whole or not at all.**
Begin with a configuration whose two names are known, in a registry that knows the names of the
default, and make any calls on the registry and the configuration.  Then the present configuration
`d` validates, and the facade can build its kernel.  Whatever call comes next answers, without a
panic.  Either it is refused and the world is as it was before; that happens if its text has a
segment that is no assignment to one of the two values, or if one of the names that it asks for is
unknown.  Or it is carried out and the configuration is exactly what it asks for. -/
theorem adjust_all_or_nothing (w : World) (c : Config) (hc : w.config = .ok c)
    (hv : w.registry.validate c = .ok ()) (hd : w.registry.validate .default = .ok ())
    (calls : List Adjustment) :
    ∃ d, (w.adjustAll calls).config = .ok d ∧
      (w.adjustAll calls).registry.validate d = .ok () ∧
      (∃ made, (w.adjustAll calls).construct = .ok made) ∧
      ∀ a, if (w.adjustAll calls).Accepts d a then
          (∃ x, ((w.adjustAll calls).adjust a).1 = .ok x ∧ ∀ e, x ≠ .refused e) ∧
            ((w.adjustAll calls).adjust a).2.config = .ok (a.requested d)
        else ∃ e, (w.adjustAll calls).adjust a = (.ok (.refused e), w.adjustAll calls) := by
  obtain ⟨d, h⟩ := Resolvable.adjustAll ⟨hc, hv, hd⟩ calls
  refine ⟨d, h.config, h.validates, h.construct, fun a => ?_⟩
  rcases h.settles a with ⟨e, he, hn⟩ | ⟨x, hx, hn, hacc, hr⟩
  · rw [if_neg hn]
    exact ⟨e, he⟩
  · rw [if_pos hacc]
    exact ⟨⟨x, hx, hn⟩, hr.config⟩

/-- A scheduler is registered and chosen; then an assignment whose last segment names nothing is
refused, and one that sets a value twice leaves the later one. -/
theorem adjust_all_or_nothing_registered :
    ∃ w : World, w = (pristine none).adjustAll
        [.registerScheduler "list" .list, .registerKernel "other" (.builtIn 7),
          .chooseScheduler "list", .chooseKernel "missing"] ∧
      w.config = .ok ⟨Config.builtInKernel, "list"⟩ ∧
      (∃ e, w.adjust (.assign "SchedulerType=tempo::HeapScheduler; Nothing=list") =
        (.ok (.refused e), w)) ∧
      (w.adjust (.assign
        "SchedulerType=a; SimulatorImplementationType = other;;SchedulerType=list")).2.config =
          .ok ⟨"other", "list"⟩ := by
  obtain ⟨d, hd, -, -, hall⟩ := adjust_all_or_nothing (pristine none) .default rfl (by decide)
    (by decide) [.registerScheduler "list" .list, .registerKernel "other" (.builtIn 7),
        .chooseScheduler "list", .chooseKernel "missing"]
  obtain rfl : d = ⟨Config.builtInKernel, "list"⟩ := Except.ok.inj (hd.symm.trans rfl)
  refine ⟨_, rfl, hd, ?_, ?_⟩
  · have h := hall (.assign "SchedulerType=tempo::HeapScheduler; Nothing=list")
    rwa [if_neg (show ¬ Accepts _ _ _ by decide +kernel)] at h
  · have h := hall (.assign
      "SchedulerType=a; SimulatorImplementationType = other;;SchedulerType=list")
    rw [if_pos (show Accepts _ _ _ by decide +kernel)] at h
    exact h.2.trans (congrArg Except.ok (by decide +kernel))

end World

end EventSim
