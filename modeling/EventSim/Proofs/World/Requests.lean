import EventSim.Proofs.Kernel.Record
import EventSim.Proofs.World.Sound

/-!
# What commands ask of the kernels

`World.notes` reads off a command what is to be noted of it: a scheduling call that a kernel accepts
is noted under the handle that it answers, and so is every withdrawal that reaches the kernel that
has issued the handle.  All other commands that run nothing leave no trace in the books.

`Request.Outcome` lists how a scheduling call can end, whether an action is scheduled or a stop.
`World.Lives` says that between two worlds every kernel has gone through the notes about it, and
`lives_perform` that **a command does to the kernels just what is noted of it**.
-/

namespace EventSim

/-- A scheduling call, from the world in which it is made to the one in which it has ended. -/
structure Request where
  before : World
  target : Target
  timing : Timing
  payload : Payload Action
  reply : Except Panic Reply
  after : World

/-- What is noted of a scheduling call: that a kernel has answered a handle of its own. -/
def Request.note? (q : Request) : Option (KernelId × Note Action) :=
  match q.reply with
  | .ok (.handle h) => h.owner.map fun id => (id, .issued h q.payload)
  | _ => none

/-- The notes about one kernel. -/
def notesAbout (id : KernelId) (l : List (KernelId × Note Action)) : List (Note Action) :=
  l.filterMap fun p => if p.1 = id then some p.2 else none

namespace World

variable {w w' w'' : World} {id : KernelId} {l l' : List (KernelId × Note Action)}

/-- The built-in kernel of an identity. -/
def kernel? (w : World) (id : KernelId) : Option (Kernel Action) :=
  match w.engine? id with
  | some (.builtIn _ k) => some k
  | _ => none

/-- An action is scheduled. -/
def requestAction (w : World) (t : Target) (timing : Timing) (name : HandleName) (a : Action) :
    Request :=
  let r := w.schedule t timing name a
  ⟨w, t, timing, .act a, r.1, r.2⟩

/-- A stop is scheduled. -/
def requestStop (w : World) (t : Target) (delay : Time) (name : HandleName) : Request :=
  let r := w.stopAfter t delay name
  ⟨w, t, .after delay, .halt, r.1, r.2⟩

/-- An action is scheduled after each of several delays; a panic ends the series. -/
def requestsEach (w : World) (t : Target) (name : Option HandleName) (a : Action) :
    Nat → List Time → List Request
  | _, [] => []
  | i, delay :: rest =>
    let b := a.numbered i
    let q := w.requestAction t (.after delay) (name.getD (.word (b.tag.getD ""))) b
    q :: match q.reply with
      | .error _ => []
      | .ok _ => q.after.requestsEach t name a (i + 1) rest

/-- The scheduling calls that a command makes, in their order. -/
def requests (w : World) : Command → List Request
  | .schedule t timing name a => [w.requestAction t timing name a]
  | .scheduleEach t delays name a => w.requestsEach t name a 0 delays
  | .chain t tag delay (left + 1) name =>
    [w.requestAction t (.after delay) name (link t tag delay left name)]
  | .stopAfter t delay name => [w.requestStop t delay name]
  | _ => []

/-- What is noted of a deed of a kernel. -/
def noted (w : World) (id : KernelId) (d : Deed Action) : List (KernelId × Note Action) :=
  (((w.kernel? id).bind fun k => k.note? d).map fun n => (id, n)).toList

/-- What is noted of a deed of the kernel of a target. -/
def notedOn (w : World) (t : Target) (d : Deed Action) : List (KernelId × Note Action) :=
  match w.find t with
  | .ok (some id) => w.noted id d
  | _ => []

/-- What is noted of a command by itself, the first note first. -/
def notes (w : World) : Command → List (KernelId × Note Action)
  | .cancel t name => w.notedOn t (.cancelled (w.handle name))
  | .remove t name => w.notedOn t (.removed (w.handle name))
  | c => (w.requests c).filterMap Request.note?

/-! ### The lives of kernels -/

theorem kernel?_eq_some {k : Kernel Action} :
    w.kernel? id = some k ↔ ∃ watched, w.engine? id = some (.builtIn watched k) := by
  unfold kernel?
  split
  · rename_i watched k' he
    simp [he]
  · rename_i hne
    simp only [reduceCtorEq, false_iff, not_exists]
    exact fun watched he => hne watched k he

theorem kernel?_eq_none (h : ∀ watched k, w.engine? id ≠ some (.builtIn watched k)) :
    w.kernel? id = none := by
  rw [Option.eq_none_iff_forall_ne_some]
  intro k hk
  obtain ⟨watched, he⟩ := kernel?_eq_some.1 hk
  exact h watched k he

theorem kernel?_congr (h : w'.engines = w.engines) (id : KernelId) :
    w'.kernel? id = w.kernel? id := by
  rw [kernel?, engine?, h, ← engine?, ← kernel?]

theorem kernel?_of_length_le (h : w.engines.length ≤ id) : w.kernel? id = none :=
  kernel?_eq_none fun watched k he => by
    rw [engine?, List.getElem?_eq_none h] at he
    cases he

/-- The kernel is behind the identity, or it may still be made there. -/
def Has (w : World) (id : KernelId) (k : Kernel Action) : Prop :=
  w.kernel? id = some k ∨ w.engines.length ≤ id ∧ ∃ systemId, k = .fresh id systemId

/-- There is at most one kernel behind an identity. -/
theorem Has.eq_of_kernel? {k k' : Kernel Action} (h : w.Has id k) (hk : w.kernel? id = some k') :
    k = k' := by
  rcases h with h | ⟨hlen, -⟩
  · exact Option.some.inj (h.symm.trans hk)
  · rw [kernel?_of_length_le hlen] at hk
    cases hk

theorem Has.sound {k : Kernel Action} (h : w.Has id k) (s : w.Sound) : k.Sound := by
  rcases h with h | ⟨-, systemId, rfl⟩
  · obtain ⟨watched, he⟩ := kernel?_eq_some.1 h
    exact s.kernels he
  · exact Kernel.sound_fresh id systemId

/-- Every kernel goes through the notes about it. -/
structure Lives (l : List (KernelId × Note Action)) (w w' : World) : Prop where
  undergoes : ∀ {id k'}, w'.Has id k' → ∃ k, w.Has id k ∧ k.Undergoes (notesAbout id l) k'
  stays : ∀ {id}, (w.kernel? id).isSome → (w'.kernel? id).isSome

theorem Lives.refl (w : World) : w.Lives [] w := ⟨fun {_ k} hk => ⟨k, hk, .refl k⟩, id⟩

theorem Lives.trans (h : w.Lives l w') (g : w'.Lives l' w'') : w.Lives (l ++ l') w'' := by
  refine ⟨fun {id k''} hk'' => ?_, fun hk => g.stays (h.stays hk)⟩
  obtain ⟨k', hk', hu'⟩ := g.undergoes hk''
  obtain ⟨k, hk, hu⟩ := h.undergoes hk'
  rw [notesAbout, List.filterMap_append]
  exact ⟨k, hk, hu.trans hu'⟩

/-- As long as the kernels stay as they are, nothing is noted. -/
theorem Lives.of_engines (h : w'.engines = w.engines) : w.Lives [] w' := by
  refine ⟨fun {id k} hk => ⟨k, ?_, .refl k⟩, fun {id} hk => kernel?_congr h id ▸ hk⟩
  rwa [Has, kernel?_congr h, h, ← Has] at hk

theorem Lives.aside (h : w.Lives l w') (g : w'.Aside w'') : w.Lives l w'' := by
  have hl := h.trans (.of_engines g.engines)
  rwa [List.append_nil] at hl

theorem kernel?_made {k : Kernel Action} (hk : w.kernel? id = some k) (spec : KernelSpec) :
    { w with engines := w.engines ++ [Engine.make w.engines.length spec] }.kernel? id = some k := by
  obtain ⟨watched, he⟩ := kernel?_eq_some.1 hk
  refine kernel?_eq_some.2 ⟨watched, ?_⟩
  exact (List.getElem?_append_left (List.getElem?_eq_some_iff.1 he).1).trans he

/-- A kernel that was made just now was not there before. -/
theorem has_of_made {k : Kernel Action} {spec : KernelSpec}
    (hk : { w with engines := w.engines ++ [Engine.make w.engines.length spec] }.kernel? id =
      some k) : w.Has id k := by
  obtain ⟨watched, he⟩ := kernel?_eq_some.1 hk
  rcases engine?_append he with hold | ⟨rfl, hnew⟩
  · exact .inl (kernel?_eq_some.2 ⟨watched, hold⟩)
  · refine .inr ⟨Nat.le_refl _, ?_⟩
    cases spec with
    | builtIn s => cases hnew; exact ⟨s, rfl⟩
    | watched s => cases hnew; exact ⟨s, rfl⟩
    | fixed => cases hnew

theorem lives_made (w : World) (spec : KernelSpec) :
    w.Lives [] { w with engines := w.engines ++ [Engine.make w.engines.length spec] } := by
  constructor
  case undergoes =>
    intro id k hk
    refine ⟨k, ?_, .refl k⟩
    rcases hk with hk | ⟨hlen, hk⟩
    · exact has_of_made hk
    · rw [List.length_append] at hlen
      exact .inr ⟨Nat.le_of_add_right_le hlen, hk⟩
  case stays =>
    intro id hk
    obtain ⟨k, hk⟩ := Option.isSome_iff_exists.1 hk
    exact Option.isSome_iff_exists.2 ⟨k, kernel?_made hk spec⟩

theorem notesAbout_self (id : KernelId) (n : Option (Note Action)) :
    notesAbout id (n.map fun n => (id, n)).toList = n.toList := by
  cases n <;> simp [notesAbout]

theorem notesAbout_ne {j : KernelId} (h : id ≠ j) (n : Option (Note Action)) :
    notesAbout j (n.map fun n => (id, n)).toList = [] := by
  cases n <;> simp [notesAbout, h]

/-- A deed of a kernel is noted with this kernel alone. -/
theorem lives_did {watched : Bool} {k k' : Kernel Action} {d : Deed Action}
    (hk : w.engine? id = some (.builtIn watched k)) (hd : k.Does d k') (ha : k.Admits d) :
    w.Lives ((k.note? d).map fun n => (id, n)).toList (w.setEngine id (.builtIn watched k')) := by
  constructor
  case undergoes =>
    rintro j k'' (hj | ⟨hlen, hj⟩)
    · obtain ⟨watched', he⟩ := kernel?_eq_some.1 hj
      rcases engine?_setEngine he with ⟨rfl, hset⟩ | ⟨hne, hkept⟩
      · cases hset
        rw [notesAbout_self]
        exact ⟨k, .inl (kernel?_eq_some.2 ⟨watched, hk⟩), .single hd ha⟩
      · rw [notesAbout_ne hne]
        exact ⟨k'', .inl (kernel?_eq_some.2 ⟨watched', hkept⟩), .refl k''⟩
    · rw [length_setEngine] at hlen
      have hlt := (List.getElem?_eq_some_iff.1 hk).1
      rw [notesAbout_ne (Nat.ne_of_lt (Nat.lt_of_lt_of_le hlt hlen))]
      exact ⟨k'', .inr ⟨hlen, hj⟩, .refl k''⟩
  case stays =>
    intro j hj
    obtain ⟨k'', hj⟩ := Option.isSome_iff_exists.1 hj
    obtain ⟨watched', he⟩ := kernel?_eq_some.1 hj
    by_cases hne : id = j
    · subst hne
      exact Option.isSome_iff_exists.2 ⟨k', kernel?_eq_some.2 ⟨_, engine?_setEngine_self hk _⟩⟩
    · refine Option.isSome_iff_exists.2 ⟨k'', kernel?_eq_some.2 ⟨watched', ?_⟩⟩
      exact (engine?_setEngine_ne _ hne).trans he

/-! ### Quiet happenings -/

end World

/-- Nothing is noted of it. -/
def Happening.Quiet : Happening → Prop
  | .did _ (.attached _) | .did _ .stopped | .did _ .began => True
  | .did .. => False
  | _ => True

namespace World

variable {w w' : World} {id : KernelId} {x : Happening}

theorem lives_attach {b : Backend} (hb : b.isBuiltIn = true) (w : World) (id : KernelId) :
    w.Lives [] (w.attach id b) :=
  attach_induction (I := fun v => w.Lives [] v) (.refl w) (fun _ _ ha hv => hv.aside ha)
    fun _ _ _ hk hv => hv.trans (lives_did hk (.attached _ b) hb)

theorem Happens.lives (h : w.Happens x w') (s : w.Sound) (hl : x.Lawful) (hq : x.Quiet) :
    w.Lives [] w' := by
  cases h with
  | aside ha => exact .of_engines ha.engines
  | made spec => exact lives_made w spec
  | @did id watched k k' d hk hd hp =>
    have h := lives_did hk hd (s.admits hk hp hl)
    cases d <;> first | exact h | exact hq.elim
  | issued name hk hi => cases hi <;> exact hq.elim
  | @occupied id name b hs hb =>
    have hslot : w.Lives [] { w with slot := some id } := .of_engines rfl
    have hattach := hslot.trans (lives_attach (s.isBuiltIn hb) { w with slot := some id } id)
    exact hattach.trans (.of_engines rfl)
  | configured hb => exact lives_attach (s.isBuiltIn hb) w _
  | _ => exact .of_engines rfl

/-- Quiet happenings leave no notes. -/
theorem Sound.lives (s : w.Sound) (h : Evolves (fun x => x.Lawful ∧ x.Quiet) w w') :
    w.Lives [] w' := by
  refine (h.keeps (I := fun v => v.Sound ∧ w.Lives [] v) (fun v x v' hx hp hv => ?_)
    ⟨s, .refl w⟩).2
  exact ⟨hv.1.happens hx hp.1, hv.2.trans (hx.lives hv.1 hp.1 hp.2)⟩

theorem Building.lawful (h : Building x) : x.Lawful ∧ x.Quiet := by
  cases x <;> first | exact h.elim | exact ⟨trivial, trivial⟩

theorem Sound.building (s : w.Sound) (h : Evolves Building w w') : w'.Sound ∧ w.Lives [] w' :=
  ⟨s.evolves (h.mono fun _ hx => hx.lawful.1), s.lives (h.mono fun _ => Building.lawful)⟩

end World

/-! ### How scheduling calls end -/

/-- The context of an event that is scheduled while `present` is the context. -/
def Timing.context (present : Context) : Timing → Context
  | .after _ | .immediately => present
  | .under context _ => context
  | .atTeardown => noContext

theorem Kernel.context_of_schedule {α : Type} {k k' : Kernel α} {timing : Timing} {a : α}
    {h : Handle} (hs : k.schedule timing a = .ok (h, k')) :
    h.context = timing.context k.context := by
  cases timing with
  | after delay =>
    obtain ⟨time, -, heq⟩ := insert_eq_ok hs
    cases heq
    rfl
  | immediately =>
    cases hs
    rfl
  | under context delay =>
    obtain ⟨time, -, heq⟩ := insert_eq_ok hs
    cases heq
    rfl
  | atTeardown =>
    cases hs
    rfl

/-- How a scheduling call can end.  The facade may have traced it before the kernel is asked. -/
inductive Request.Outcome (q : Request) : Prop
  /-- There is no kernel to be had. -/
  | unreached {p : Panic} :
      q.before.reach q.target = .error p → q.reply = .error p →
      q.after = q.before.releaseAll q.payload.action?.toList → Outcome q
  /-- Nothing stands behind the identity. -/
  | absent {id : KernelId} {v : World} :
      q.before.reach q.target = .ok (id, v) → v.engine? id = none →
      q.reply = .ok .done → q.after = v → Outcome q
  | accepted {id : KernelId} {v : World} {watched : Bool} {k k' : Kernel Action} {d : Deed Action}
      {h : Handle} (trace : Trace) (name : HandleName) :
      q.before.reach q.target = .ok (id, v) → v.engine? id = some (.builtIn watched k) →
      k.Issues d h k' → d.taken = [q.payload] → h.context = q.timing.context k.context →
      q.reply = .ok (.handle h) →
      q.after = ({ v with trace := trace }.setEngine id (.builtIn watched k')).save name h →
      Outcome q
  | refused {id : KernelId} {v : World} {watched : Bool} {k : Kernel Action} {e : SimError}
      (trace : Trace) :
      q.before.reach q.target = .ok (id, v) → v.engine? id = some (.builtIn watched k) →
      q.reply = .ok (.refused e) →
      q.after = { v with trace := trace }.releaseAll q.payload.action?.toList → Outcome q
  /-- The kernel takes nothing in and answers the handle of no kernel. -/
  | fixed {id : KernelId} {v : World} {k : FixedKernel} (trace : Trace) (name : HandleName) :
      q.before.reach q.target = .ok (id, v) → v.engine? id = some (.fixed k) →
      q.reply = .ok (.handle .none) →
      q.after = ({ v with trace := trace }.releaseAll q.payload.action?.toList).save name .none →
      Outcome q

namespace World

variable {w w' : World} {id : KernelId}

theorem exists_trace (w : World) (t : Target) (e : Engine Action) (timing : Timing) :
    ∃ trace, (if t = .facade then w.traced e timing else w) = { w with trace := trace } := by
  split
  · cases timing <;> exact ⟨_, rfl⟩
  · exact ⟨w.trace, rfl⟩

theorem outcome_requestAction (w : World) (t : Target) (timing : Timing) (name : HandleName)
    (a : Action) : (w.requestAction t timing name a).Outcome := by
  cases hr : w.reach t with
  | error p =>
    exact .unreached hr (by simp only [requestAction, schedule, hr])
      (by simp only [requestAction, schedule, hr]; rfl)
  | ok r =>
    obtain ⟨id, v⟩ := r
    cases he : v.engine? id with
    | none =>
      refine .absent hr he ?_ ?_ <;> simp only [requestAction, schedule, hr, he]
    | some e =>
      obtain ⟨trace, htrace⟩ := exists_trace v t e timing
      have heu : { v with trace := trace }.engine? id = some e := he
      cases e with
      | builtIn watched k =>
        cases hs : k.schedule timing a with
        | ok r =>
          obtain ⟨h, k'⟩ := r
          obtain ⟨d, ha, hi⟩ := Kernel.issues_of_schedule hs
          have htaken : d.taken = [.act a] := by cases ha <;> rfl
          refine .accepted trace name hr he hi htaken (Kernel.context_of_schedule hs) ?_ ?_ <;>
            simp only [requestAction, schedule, hr, he, htrace, Engine.schedule, hs]
          rfl
        | error error =>
          refine .refused (e := error) trace hr he ?_ ?_ <;>
            simp only [requestAction, schedule, hr, he, htrace, Engine.schedule, hs,
              setEngine_of_engine? heu]
          rfl
      | fixed k =>
        refine .fixed trace name hr he ?_ ?_ <;>
          simp only [requestAction, schedule, hr, he, htrace, Engine.schedule,
            setEngine_of_engine? heu]
        rfl

theorem outcome_requestStop (w : World) (t : Target) (delay : Time) (name : HandleName) :
    (w.requestStop t delay name).Outcome := by
  cases hr : w.reach t with
  | error p =>
    refine .unreached hr ?_ ?_ <;> simp only [requestStop, stopAfter, onReached, hr]
    rfl
  | ok r =>
    obtain ⟨id, v⟩ := r
    cases he : v.engine? id with
    | none =>
      refine .absent hr he ?_ ?_ <;> simp only [requestStop, stopAfter, onReached, hr, he]
    | some e =>
      cases e with
      | builtIn watched k =>
        cases hs : k.stopAfter delay with
        | ok r =>
          obtain ⟨h, k'⟩ := r
          obtain ⟨key, hi⟩ := Kernel.issues_of_stopAfter hs
          have hcontext : h.context = k.context := by
            obtain ⟨time, -, heq⟩ := Kernel.insert_eq_ok hs
            cases heq
            rfl
          refine .accepted v.trace name hr he hi rfl hcontext ?_ ?_ <;>
            simp only [requestStop, stopAfter, onReached, hr, he, Engine.stopAfter, hs]
        | error error =>
          refine .refused (e := error) v.trace hr he ?_ ?_ <;>
            simp only [requestStop, stopAfter, onReached, hr, he, Engine.stopAfter, hs,
              setEngine_of_engine? he]
          rfl
      | fixed k =>
        refine .fixed v.trace name hr he ?_ ?_ <;>
          simp only [requestStop, stopAfter, onReached, hr, he, Engine.stopAfter,
            setEngine_of_engine? he]
        rfl

/-! ### Scheduling -/

/-- A kernel that issues a handle notes it. -/
theorem note?_of_issues {k k' : Kernel Action} {d : Deed Action} {h : Handle}
    (hi : k.Issues d h k') (p : Payload Action) (hp : d.taken = [p]) :
    k.note? d = some (.issued h p) := by
  cases hi <;> cases hp <;> rfl

theorem owner_of_issues {k k' : Kernel Action} {d : Deed Action} {h : Handle}
    (hi : k.Issues d h k') : h.owner = some k.id := by
  cases hi <;> rfl

/-- A scheduling call does to the kernels just what is noted of it. -/
theorem Sound.lives_request {q : Request} (s : q.before.Sound) (h : q.Outcome) :
    q.before.Lives q.note?.toList q.after := by
  unfold Request.note?
  cases h with
  | unreached _ hr ha =>
    rw [hr, ha]
    exact .of_engines (aside_releaseAll _ _).engines
  | absent hv _ hr ha =>
    rw [hr, ha]
    exact (s.building (evolves_reach hv)).2
  | @accepted id v watched k k' d h trace name hv he hi hp _ hr ha =>
    obtain ⟨sv, hl⟩ := s.building (evolves_reach hv)
    have hid : k.id = id := sv.numbered _ _ _ he
    have hd := lives_did he (.issued hi) (by cases hi <;> trivial)
    rw [note?_of_issues hi _ hp] at hd
    rw [hr, ha]
    dsimp only
    rw [owner_of_issues hi, hid]
    exact hl.trans (hd.trans (.of_engines rfl))
  | @refused id v watched k e trace hv _ hr ha =>
    rw [hr, ha]
    have hl := (s.building (evolves_reach hv)).2
    exact hl.trans (.of_engines (aside_releaseAll { v with trace := trace } _).engines)
  | @fixed id v k trace name hv _ hr ha =>
    rw [hr, ha]
    have hl := (s.building (evolves_reach hv)).2
    exact hl.trans (.of_engines (aside_releaseAll { v with trace := trace } _).engines)

/-- Scheduling keeps a world sound. -/
theorem Sound.schedule (s : w.Sound) (t : Target) (timing : Timing) (name : HandleName)
    (a : Action) : (w.schedule t timing name a).2.Sound :=
  s.evolves (evolves_schedule (fun _ hx => hx.lawful.1) trivial
    (fun _ _ hd => by cases hd <;> trivial) w t timing name)

theorem filterMap_note?_cons (q : Request) (l : List Request) :
    (q :: l).filterMap Request.note? = q.note?.toList ++ l.filterMap Request.note? := by
  cases h : q.note? <;> simp [h]

theorem Sound.lives_requestsEach (t : Target) (name : Option HandleName) (a : Action)
    (delays : List Time) : ∀ {w : World}, w.Sound → ∀ i,
      w.Lives ((w.requestsEach t name a i delays).filterMap Request.note?)
        (w.scheduleEach t name a i delays).2 := by
  induction delays with
  | nil => exact fun _ _ => .refl _
  | cons delay rest ih =>
    intro w s i
    have hq := Sound.lives_request s (outcome_requestAction w t (.after delay)
      (name.getD (.word ((a.numbered i).tag.getD ""))) (a.numbered i))
    have hs := s.schedule t (.after delay) (name.getD (.word ((a.numbered i).tag.getD "")))
      (a.numbered i)
    rw [requestsEach, filterMap_note?_cons]
    refine Lives.trans hq ?_
    unfold scheduleEach requestAction
    dsimp only
    generalize w.schedule t (.after delay) (name.getD (.word ((a.numbered i).tag.getD "")))
      (a.numbered i) = r at hs ⊢
    obtain ⟨reply, v⟩ := r
    cases reply with
    | error p => exact .refl v
    | ok reply =>
      dsimp only at hs ⊢
      have hrest := ih hs (i + 1)
      split <;> rename_i heq <;> rwa [heq] at hrest

/-! ### Withdrawing -/

theorem Sound.lives_notedOn {t : Target} {d : Deed Action} {without : Reply}
    {f : KernelId → Engine Action → Except Panic Reply × World} (s : w.Sound)
    (hp : w.Permits d) (hl : ∀ id, (Happening.did id d).Lawful)
    (hf : ∀ id watched k, w.engine? id = some (.builtIn watched k) →
      ∃ k', k.Does d k' ∧
        (w.setEngine id (.builtIn watched k')).Aside (f id (.builtIn watched k)).2)
    (hfixed : ∀ id k, w.engine? id = some (.fixed k) → w.Aside (f id (.fixed k)).2) :
    w.Lives (w.notedOn t d) (w.onFound t without f).2 := by
  unfold notedOn onFound
  cases hfind : w.find t with
  | error p => exact .refl w
  | ok found =>
    cases found with
    | none => exact .refl w
    | some id =>
      dsimp only
      cases he : w.engine? id with
      | none =>
        have hk : w.kernel? id = none := by rw [kernel?, he]
        rw [noted, hk]
        exact .refl w
      | some e =>
        cases e with
        | builtIn watched k =>
          obtain ⟨k', hd, ha⟩ := hf id watched k he
          have hk : w.kernel? id = some k := kernel?_eq_some.2 ⟨watched, he⟩
          rw [noted, hk]
          exact (lives_did he hd (s.admits he hp (hl id))).aside ha
        | fixed k =>
          have hk : w.kernel? id = none := by rw [kernel?, he]
          rw [noted, hk]
          exact (Lives.refl w).aside (hfixed id k he)

theorem Sound.lives_cancel (s : w.Sound) (t : Target) (name : HandleName) :
    w.Lives (w.notedOn t (.cancelled (w.handle name))) (w.cancel t (w.handle name)).2 := by
  refine s.lives_notedOn (keeps_handle w name) (fun _ => trivial) (fun id watched k he => ?_)
    fun id k he => ?_
  · exact ⟨_, .cancelled k _, aside_releaseAll _ _⟩
  · simp only [Engine.cancel, setEngine_of_engine? he]
    exact aside_releaseAll w _

theorem Sound.lives_remove (s : w.Sound) (t : Target) (name : HandleName) :
    w.Lives (w.notedOn t (.removed (w.handle name))) (w.remove t (w.handle name)).2 := by
  refine s.lives_notedOn (keeps_handle w name) (fun _ => trivial) (fun id watched k he => ?_)
    fun id k he => ?_
  · exact ⟨_, .removed k _, aside_releaseAll _ _⟩
  · simp only [Engine.remove, setEngine_of_engine? he]
    exact aside_releaseAll w _

end World

/-! ### All commands -/

/-- The command neither schedules nor withdraws anything. -/
def Command.Quiet : Command → Prop
  | .schedule .. | .scheduleEach .. | .chain .. | .stopAfter .. | .cancel .. | .remove .. => False
  | _ => True

theorem Command.Quiet.brings {w : World} {c : Command} {x : Happening} (hc : c.Quiet)
    (hx : c.Brings w x) : x.Quiet := by
  cases x with
  | did id d =>
    have hx : c.Calls w d := hx
    cases d with
    | stored key payload =>
      cases payload with
      | halt =>
        obtain ⟨t, delay, name, rfl⟩ := hx
        exact hc.elim
      | act a => cases c <;> first | exact hc.elim | exact hx.elim
    | registered e => cases c <;> first | exact hc.elim | exact hx.elim
    | removed h =>
      obtain ⟨t, name, rfl, -⟩ := hx
      exact hc.elim
    | cancelled h =>
      obtain ⟨t, name, rfl, -⟩ := hx
      exact hc.elim
    | attached | stopped | began => trivial
    | _ => exact hx.elim
  | _ => trivial

theorem World.notes_of_quiet {c : Command} (hc : c.Quiet) (w : World) : w.notes c = [] := by
  cases c <;> first | exact hc.elim | rfl

namespace World

variable {w : World}

theorem Lives.singleton {q : Request} {w' : World} (h : w.Lives q.note?.toList w') :
    w.Lives ([q].filterMap Request.note?) w' := by
  rw [filterMap_note?_cons]
  exact h.trans (.refl w')

/-- What a command that schedules or withdraws does to the kernels is what is noted of it. -/
theorem Sound.lives_perform (s : w.Sound) (c : Command) (hc : ¬ c.Quiet) :
    w.Lives (w.notes c) (w.perform c).2 := by
  cases c with
  | schedule t timing name a =>
    exact (s.lives_request (outcome_requestAction w t timing name a)).singleton
  | scheduleEach t delays name a =>
    have h := s.lives_requestsEach t name a delays 0
    rw [perform]
    split <;> rename_i heq <;> rwa [heq] at h
  | chain t tag delay length name =>
    cases length with
    | zero => exact .refl w
    | succ left => exact (s.lives_request (outcome_requestAction w t _ name _)).singleton
  | stopAfter t delay name =>
    exact (s.lives_request (outcome_requestStop w t delay name)).singleton
  | cancel t name => exact s.lives_cancel t name
  | remove t name => exact s.lives_remove t name
  | _ => exact (hc trivial).elim

/-! ### Where notes come from -/

/-- A scheduling call of a command ends like all of them, and it is made in a world where everything
holds that scheduling keeps. -/
theorem outcome_of_mem {I : World → Prop} {q : Request} {c : Command}
    (hI : ∀ v t timing name a, I v → I (v.schedule t timing name a).2) (hw : I w)
    (hq : q ∈ w.requests c) : q.Outcome ∧ I q.before := by
  have heach (t : Target) (name : Option HandleName) (a : Action) (delays : List Time) :
      ∀ (v : World) (i : Nat), I v → q ∈ v.requestsEach t name a i delays →
        q.Outcome ∧ I q.before := by
    induction delays with
    | nil => exact fun _ _ _ hm => by cases hm
    | cons delay rest ih =>
      intro v i hv hm
      rw [requestsEach] at hm
      rcases List.mem_cons.1 hm with rfl | hm
      · exact ⟨outcome_requestAction v t _ _ _, hv⟩
      · split at hm
        · cases hm
        · exact ih _ _ (hI v t _ _ _ hv) hm
  cases c with
  | schedule t timing name a =>
    rw [List.mem_singleton.1 hq]
    exact ⟨outcome_requestAction w t timing name a, hw⟩
  | scheduleEach t delays name a => exact heach t name a delays w 0 hw hq
  | chain t tag delay length name =>
    cases length with
    | zero => cases hq
    | succ left =>
      rw [List.mem_singleton.1 hq]
      exact ⟨outcome_requestAction w t _ name _, hw⟩
  | stopAfter t delay name =>
    rw [List.mem_singleton.1 hq]
    exact ⟨outcome_requestStop w t delay name, hw⟩
  | _ => cases hq

/-- A command is noted for what it schedules and for what it withdraws. -/
theorem mem_notes {c : Command} {id : KernelId} {n : Note Action} (hn : (id, n) ∈ w.notes c) :
    (∃ q ∈ w.requests c, q.note? = some (id, n)) ∨ ∃ h lost, n = .withdrawn h lost := by
  have hfound {t : Target} {d : Deed Action} (hm : (id, n) ∈ w.notedOn t d) :
      ∃ k : Kernel Action, k.note? d = some n := by
    unfold notedOn at hm
    split at hm
    · rw [noted, Option.mem_toList, Option.map_eq_some_iff] at hm
      obtain ⟨n', hn', heq⟩ := hm
      cases heq
      obtain ⟨k, -, hk⟩ := Option.bind_eq_some_iff.1 hn'
      exact ⟨k, hk⟩
    · cases hm
  cases c with
  | cancel t name =>
    obtain ⟨k, hk⟩ := hfound hn
    rw [Kernel.note?] at hk
    split at hk <;> cases hk
    exact .inr ⟨_, _, rfl⟩
  | remove t name =>
    obtain ⟨k, hk⟩ := hfound hn
    rw [Kernel.note?] at hk
    split at hk <;> cases hk
    exact .inr ⟨_, _, rfl⟩
  | _ => exact .inl (List.mem_filterMap.1 hn)

end World

/-! ### The context of a handle -/

namespace Request

variable {q : Request} {h : Handle}

/-- The handle has the context that the call gives, or the one that is present at the call. -/
def Inherits (q : Request) (h : Handle) : Prop :=
  match q.timing with
  | .after _ | .immediately => ∃ w, q.before.contextOf q.target = .ok (h.context, w)
  | .under context _ => h.context = context
  | .atTeardown => h.context = noContext

theorem Outcome.inherits (ho : q.Outcome) (hr : q.reply = .ok (.handle h)) (hs : h.owner.isSome) :
    q.Inherits h := by
  cases ho with
  | unreached _ hr' | absent _ _ hr' | refused _ _ _ hr' => cases hr'.symm.trans hr
  | fixed _ _ _ _ hr' =>
    cases hr'.symm.trans hr
    cases hs
  | @accepted id v watched k _ _ _ _ _ hv he _ _ hc hr' =>
    cases hr'.symm.trans hr
    have hnow : q.before.contextOf q.target = .ok (k.context, v) := by
      simp only [World.contextOf, hv, he, Option.map_some, Option.getD_some, Engine.context]
    unfold Inherits
    split <;> rename_i htiming <;> rw [htiming] at hc
    · exact ⟨v, hc ▸ hnow⟩
    · exact ⟨v, hc ▸ hnow⟩
    · exact hc
    · exact hc

/-- **The handle that a kernel answers has the context that the call gives or that is present.** -/
theorem inherits_of_mem {w : World} {c : Command} (hq : q ∈ w.requests c)
    (hr : q.reply = .ok (.handle h)) (ho : h.owner.isSome) : q.Inherits h :=
  (World.outcome_of_mem (I := fun _ => True) (fun _ _ _ _ _ => id) trivial hq).1.inherits hr ho

end Request

end EventSim
