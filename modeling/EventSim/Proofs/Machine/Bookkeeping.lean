import EventSim.Proofs.Machine.Carries

/-!
# The books of every kernel agree

`Machine.Reached p` are the states of all sessions whose programs are made of commands that satisfy
`p`: calls follow one another, a call is carried out step by step, and at any moment a panic may
unwind it as far as some caller.  Calls out of running actions are steps like any other, so runs and
destructions are nested to any depth.

* `Command.Lawful`: no handle is put together by hand, and only built-in backends are brought in.
* `Reached.sound`: the worlds of lawful sessions are sound.
* `Reached.consistent`: **in every state of a lawful session the books of every kernel agree.**
-/

namespace EventSim

/-- The command puts no handle together and brings in none but the built-in backends. -/
def Command.Lawful : Command → Prop
  | .forge .. => False
  | .attach _ b | .registry (.registerScheduler _ b) => b.isBuiltIn = true
  | _ => True

theorem Command.Staged.lawful {c : Command} (h : c.Staged) : c.Lawful := by
  cases c with
  | registry call => cases call <;> first | exact h.elim | trivial
  | forge => exact h
  | attach => exact h.elim
  | _ => trivial

theorem Command.Lawful.brings {w : World} {c : Command} {x : Happening} (h : c.Lawful)
    (hx : c.Brings w x) : x.Lawful := by
  cases x with
  | did id d =>
    cases d with
    | attached b =>
      obtain ⟨t, rfl⟩ := hx
      exact h
    | _ => trivial
  | forged =>
    obtain ⟨_, _, _, _, _, _, rfl⟩ := hx
    exact h
  | enlisted b =>
    obtain ⟨name, rfl⟩ := hx
    exact h
  | _ => trivial

theorem World.Sound.perform {w : World} {c : Command} (s : w.Sound) (h : c.Lawful) :
    (w.perform c).2.Sound :=
  s.evolves ((w.evolves_perform c).mono fun _ => h.brings)

theorem Frame.All.lawful {w : World} {f : Frame} {x : Happening} (h : f.All Command.Lawful)
    (hx : f.Brings w x) : x.Lawful := by
  cases f with
  | body reporting left =>
    cases left with
    | nil => cases hx; trivial
    | cons c left => exact (h c List.mem_cons_self).self.brings hx
  | answering => cases hx; trivial
  | running id =>
    rcases hx with hx | ⟨d, hd, rfl⟩
    · cases x <;> first | exact hx.elim | trivial
    · cases d <;> first | exact hd.elim | trivial
  | destroying id =>
    rcases hx with hx | ⟨d, hd, rfl⟩
    · cases x <;> first | exact hx.elim | trivial
    · cases d <;> first | exact hd.elim | trivial
  | clearing found => rcases hx with rfl | rfl | ⟨id, -, rfl⟩ <;> trivial
  | scenario run stage =>
    cases stage with
    | probing saved left replies =>
      cases left with
      | nil => cases hx; trivial
      | cons probe left => exact (h probe List.mem_cons_self).self.brings hx
    | judged => rcases hx with rfl | rfl <;> trivial
    | _ => cases hx; trivial

namespace Machine

/-- The states of sessions with commands that satisfy `p`. -/
inductive Reached (p : Command → Prop) : Machine → Prop
  | pristine (environment : Option String) : Reached p ⟨.pristine environment, [], none⟩
  | call {m : Machine} {c : Command} :
      Reached p m → m.stack = [] → c.All p → Reached p (.ofCall m.world c)
  | step {m : Machine} : Reached p m → Reached p m.step
  /-- A panic unwinds the call as far as one of its frames, or altogether. -/
  | unwound {m : Machine} {rest : List Frame} :
      Reached p m → rest <:+ m.stack → Reached p { m with stack := rest }

variable {p : Command → Prop} {m : Machine}

theorem Reached.carries (hp : ∀ c, c.Staged → p c) (h : Reached p m) : m.Carries p := by
  induction h with
  | pristine environment => exact ⟨fun _ _ _ hk => (by cases hk), fun _ hf => by cases hf⟩
  | call _ _ hc ih => exact .ofCall ih.stored hc
  | step _ ih => exact ih.step hp
  | unwound _ hs ih => exact ⟨ih.stored, fun f hf => ih.waiting f (hs.subset hf)⟩

/-- The worlds of lawful sessions are sound. -/
theorem Reached.sound (h : Reached Command.Lawful m) : m.world.Sound := by
  induction h with
  | pristine environment => exact World.sound_pristine environment
  | call _ _ hc ih => exact ih.evolves ((evolves_start _).mono fun x => hc.self.brings)
  | @step m hm ih =>
    have hcarries := hm.carries fun _ => Command.Staged.lawful
    obtain ⟨w, stack, result⟩ := m
    cases stack with
    | nil => exact ih
    | cons f rest =>
      have hf := hcarries.waiting f List.mem_cons_self
      exact ih.evolves ((evolves_step f rest).mono fun x => hf.lawful)
  | unwound _ _ ih => exact ih

/-- **In every state of a lawful session the books of every kernel agree**: what is stored is what
will run or be skipped, no number is used twice, all numbers were handed out, and nothing is due
before the present. -/
theorem Reached.consistent (h : Reached Command.Lawful m) {id : KernelId} {watched : Bool}
    {k : Kernel Action} (hk : m.world.engine? id = some (.builtIn watched k)) : k.Consistent :=
  (h.sound.kernels hk).toConsistent

/-- A session in the middle of a run: its first event has just cancelled the second. -/
def cancellingRun : Machine :=
  let t : Target := .kernel (.numbered 0)
  let w := (ofCall (.pristine none) (.build none (.builtIn 0))).world
  let w := (ofCall w
    (.schedule t (.after (.clamp 1)) (.numbered 1) (.silent [.cancel t (.numbered 2)]))).world
  let w := (ofCall w (.schedule t (.after (.clamp 2)) (.numbered 2) (.silent []))).world
  (ofCall w (.run t)).step.step

theorem reached_cancellingRun : Reached Command.Lawful cancellingRun := by
  unfold cancellingRun
  refine .step (.step (.call (.call (.call (.call (.pristine none) ?_ ?_) ?_ ?_) ?_ ?_) ?_ ?_))
  all_goals first | rfl | simp [Command.All, Action.silent, Action.All, allOf, Command.Lawful]

theorem consistent_cancellingRun : cancellingRun.stack ≠ [] ∧
    ∃ k, cancellingRun.world.engine? 0 = some (.builtIn false k) ∧ k.cancelled = [2] ∧
      k.Consistent := by
  obtain ⟨k, hk, hc⟩ : ∃ k,
      cancellingRun.world.engine? 0 = some (.builtIn false k) ∧ k.cancelled = [2] :=
    ⟨_, rfl, rfl⟩
  exact ⟨by decide +kernel, k, hk, hc, reached_cancellingRun.consistent hk⟩

end Machine

end EventSim
