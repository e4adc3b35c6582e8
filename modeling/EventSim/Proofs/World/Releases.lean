import EventSim.Proofs.Kernel.Accounts
import EventSim.Proofs.World.Requests

/-!
# What the journal tells of actions that are given up

An action with a tag that is given up is told in the journal.  `World.released` reads these tags off
the journal.  Calls that want a kernel, ask, print, configure or enroll tell of none;
`releases_perform` says of every command that runs nothing: **the journal tells of just the actions
that its notes and its refused scheduling calls give up.**  So a scheduling call that reaches a
kernel is `SettledBy` it: the event was accepted, or the action is told to be given up.
-/

namespace EventSim

/-- The tag of the action that was given up. -/
def Entry.released? : Entry → Option String
  | .released tag => some tag
  | _ => none

/-- The actions among what was given up. -/
def Note.discarded (n : Note Action) : List Action :=
  n.givenUp.filterMap fun i => i.payload.action?

/-- The action of a scheduling call, unless a built-in kernel has taken it in. -/
def Request.refused (q : Request) : List Action :=
  match q.reply with
  | .ok (.handle h) => if h.owner.isSome then [] else q.payload.action?.toList
  | .ok (.refused _) | .error _ => q.payload.action?.toList
  | .ok _ => []

namespace World

variable {w w' : World} {id : KernelId}

/-- The tags of the actions that were given up, the newest first. -/
def released (w : World) : List String := w.journal.filterMap Entry.released?

/-- The journal tells in the second world of the actions that were given up in between. -/
def Releases (l : List Action) (w w' : World) : Prop :=
  w'.released = (l.filterMap Action.tag).reverse ++ w.released

theorem Releases.refl (w : World) : w.Releases [] w := rfl

theorem Releases.trans {l l' : List Action} {w'' : World} (h : w.Releases l w')
    (g : w'.Releases l' w'') : w.Releases (l ++ l') w'' := by
  rw [Releases, g, h]
  simp

/-- Nothing more is given up. -/
theorem Releases.quietly {l : List Action} {w'' : World} (h : w.Releases l w')
    (g : w'.Releases [] w'') : w.Releases l w'' := by
  have hl := h.trans g
  rwa [List.append_nil] at hl

theorem Releases.of_journal (h : w'.journal = w.journal) : w.Releases [] w' := by
  rw [Releases, released, h]
  rfl

theorem Releases.of_log {e : Entry} (he : e.released? = none) : w.Releases [] (w.log e) := by
  rw [Releases, released, log, List.filterMap_cons_none he]
  rfl

theorem releases_release (w : World) (a : Action) : w.Releases [a] (w.release a) := by
  unfold release
  cases ht : a.tag with
  | none => simp [Releases, ht]
  | some tag => simp [Releases, released, log, Entry.released?, ht]

theorem releases_releaseAll (w : World) (l : List Action) : w.Releases l (w.releaseAll l) := by
  induction l generalizing w with
  | nil => exact .refl w
  | cons a l ih => exact (releases_release w a).trans (ih (w.release a))

/-! ### Calls that give nothing up -/

theorem releases_make (w : World) (spec : KernelSpec) : w.Releases [] (w.make spec).2 := by
  cases spec with
  | watched => exact .of_log rfl
  | builtIn | fixed => exact .refl w

theorem releases_attach (w : World) (id : KernelId) (b : Backend) :
    w.Releases [] (w.attach id b) := by
  unfold attach
  split
  · exact .refl w
  · dsimp only
    split
    · exact Releases.of_log (e := .watched ..) rfl
    · exact .refl w

theorem releases_construct (h : w.construct = .ok (id, w')) : w.Releases [] w' := by
  unfold construct at h
  split at h
  · cases h
  · split at h
    · cases h
    · rename_i spec _
      split at h
      · cases h
      · rename_i b _
        cases h
        exact (releases_make w spec).trans (releases_attach _ _ b)

theorem releases_reach {t : Target} (h : w.reach t = .ok (id, w')) : w.Releases [] w' := by
  unfold reach resolve at h
  split at h
  · split at h
    · cases h
      exact .refl w
    · exact releases_construct h
  · split at h
    · cases h
    · cases h
      exact .refl w

theorem releases_nowOf {t : Target} {now : Time} (h : w.nowOf t = .ok (now, w')) :
    w.Releases [] w' := by
  unfold nowOf at h
  split at h
  · cases h
  · rename_i hr
    cases h
    exact releases_reach hr

theorem releases_contextOf {t : Target} {context : Context}
    (h : w.contextOf t = .ok (context, w')) : w.Releases [] w' := by
  unfold contextOf at h
  split at h
  · cases h
  · rename_i hr
    cases h
    exact releases_reach hr

theorem releases_onReached {t : Target}
    {f : KernelId → Engine Action → World → Except Panic Reply × World}
    (hf : ∀ id e (v : World), v.Releases [] (f id e v).2) : w.Releases [] (w.onReached t f).2 := by
  unfold onReached
  split
  · exact .refl w
  · rename_i id v hr
    refine (releases_reach hr).trans ?_
    split
    · exact .refl v
    · exact hf _ _ v

theorem releases_onFound {t : Target} {without : Reply}
    {f : KernelId → Engine Action → Except Panic Reply × World}
    (hf : ∀ id e, w.Releases [] (f id e).2) : w.Releases [] (w.onFound t without f).2 := by
  unfold onFound
  split
  · exact .refl w
  · exact .refl w
  · split
    · exact .refl w
    · exact hf _ _

theorem releases_install (h : w.install id = .ok (.ok w')) : w.Releases [] w' := by
  unfold install at h
  split at h
  · cases h
  · split at h
    · cases h
    · rename_i b _
      split at h
      · cases h
      · cases h
        exact releases_attach { w with slot := some id } id b

theorem releases_installFrom (w : World) (source : KernelSource) :
    w.Releases [] (w.installFrom source).2 := by
  cases source with
  | held name =>
    rw [installFrom]
    split
    · exact .refl w
    · split
      · exact .refl w
      · exact .refl w
      · rename_i h
        exact releases_install h
  | fresh spec =>
    rw [installFrom]
    dsimp only
    refine (releases_make w spec).trans ?_
    split
    · exact .refl _
    · exact .refl _
    · rename_i h
      exact releases_install h

theorem releases_write (w : World) (c : Config) : w.Releases [] (w.write c).2 := by
  unfold write
  split <;> exact .refl w

theorem releases_apply (w : World) (c : Config) : w.Releases [] (w.apply c).2 := by
  unfold World.apply
  split
  · exact .refl w
  · exact releases_write w c

theorem releases_onConfig {f : Config → Except Panic Reply × World}
    (hf : ∀ c, w.Releases [] (f c).2) : w.Releases [] (w.onConfig f).2 := by
  unfold onConfig
  split
  · exact .refl w
  · exact hf _

theorem releases_chooseScheduler (w : World) (name : String) :
    w.Releases [] (w.chooseScheduler name).2 := by
  unfold chooseScheduler
  split
  · exact .refl w
  · exact releases_onConfig fun c => releases_write w _

theorem releases_load (w : World) (content : FileContent) : w.Releases [] (w.load content).2 := by
  unfold load
  split
  · split
    · exact .refl w
    · rename_i c _
      have h := releases_apply w c
      split <;> rename_i ha <;> rwa [ha] at h
  · exact .refl w

theorem releases_configure (w : World) (call : ConfigCall) :
    w.Releases [] (w.configure call).2 := by
  cases call with
  | get => exact releases_onConfig fun c => .refl w
  | chooseKernel name =>
    rw [configure, chooseKernel]
    split
    · exact .refl w
    · exact releases_onConfig fun c => releases_write w _
  | chooseScheduler name => exact releases_chooseScheduler w name
  | assign text =>
    refine releases_onConfig fun c => ?_
    split
    · exact .refl w
    · exact releases_apply w _
  | applyJson text =>
    rw [configure]
    split
    · exact .refl w
    · exact releases_apply w _
  | reset => exact releases_write w _
  | load content => exact releases_load w content
  | select name =>
    rw [configure]
    split <;> exact .refl w

theorem releases_enroll (w : World) (call : RegistryCall) : w.Releases [] (w.enroll call).2 := by
  cases call with
  | lookupKernel name =>
    rw [enroll]
    split
    · exact .refl w
    · exact releases_make w _
  | lookupScheduler name =>
    rw [enroll]
    split <;> exact .refl w
  | _ => exact .refl w

theorem releases_printPart {part : StampPart} {printer : Printer} {text : Option String}
    (h : w.printPart part printer = .ok (text, w')) : w.Releases [] w' := by
  unfold printPart at h
  split at h
  · split at h
    · split at h
      · cases h
      · rename_i hn
        cases h
        exact releases_nowOf hn
    · split at h
      · cases h
      · rename_i hc
        cases h
        exact releases_contextOf hc
  · split at h <;> cases h <;> exact .refl w
  · cases h
    exact .refl w

theorem releases_printAfter {before : String} {part : StampPart} {printer : Option Printer}
    {text : Except String String} (h : w.printAfter before part printer = .ok (text, w')) :
    w.Releases [] w' := by
  unfold printAfter at h
  split at h
  · cases h
    exact .refl w
  · split at h
    · cases h
    all_goals
      rename_i hp
      cases h
      exact releases_printPart hp

theorem releases_stamp (w : World) : w.Releases [] w.stamp.2 := by
  unfold stamp
  dsimp only
  split
  · exact .refl w
  · rename_i h
    exact releases_printAfter h
  · rename_i h
    refine (releases_printAfter h).trans ?_
    split
    · exact .refl _
    all_goals
      rename_i g
      exact releases_printAfter g

theorem releases_print (w : World) (call : PrinterCall) : w.Releases [] (w.print call).2 := by
  cases call with
  | install part printer => cases part <;> exact .refl w
  | installed => exact .refl w
  | stamp => exact releases_stamp w
  | print part =>
    rw [print]
    split
    · exact .refl w
    · rename_i h
      exact releases_printPart h

theorem releases_note (w : World) (s : Sighting) : w.Releases [] (w.note s).2 := by
  cases s with
  | number => exact .refl w
  | label => exact .refl w
  | now | nowAnd =>
    rw [note]
    dsimp only
    split
    · exact .refl w
    · rename_i h
      exact (releases_nowOf h).trans (.of_journal rfl)
  | context =>
    rw [note]
    dsimp only
    split
    · exact .refl w
    · rename_i h
      exact (releases_contextOf h).trans (.of_journal rfl)

/-! ### Scheduling -/

/-- A scheduling call gives its action up if no built-in kernel takes it in. -/
theorem releases_request {q : Request} (h : q.Outcome) : q.before.Releases q.refused q.after := by
  unfold Request.refused
  cases h with
  | unreached _ hr ha =>
    rw [hr, ha]
    exact releases_releaseAll _ _
  | absent hv _ hr ha =>
    rw [hr, ha]
    exact releases_reach hv
  | @accepted id v watched k k' d h trace name hv _ hi _ _ hr ha =>
    rw [hr, ha]
    simp only [owner_of_issues hi, Option.isSome_some, if_true]
    exact (releases_reach hv).trans (.of_journal rfl)
  | @refused id v watched k e trace hv _ hr ha =>
    rw [hr, ha]
    exact (releases_reach hv).trans (releases_releaseAll { v with trace := trace } _)
  | @fixed id v k trace name hv _ hr ha =>
    rw [hr, ha]
    exact (releases_reach hv).trans (releases_releaseAll { v with trace := trace } _)

theorem releases_requestsEach (t : Target) (name : Option HandleName) (a : Action)
    (delays : List Time) : ∀ (w : World) (i : Nat),
      w.Releases ((w.requestsEach t name a i delays).flatMap Request.refused)
        (w.scheduleEach t name a i delays).2 := by
  induction delays with
  | nil => exact fun w _ => .refl w
  | cons delay rest ih =>
    intro w i
    have hq := releases_request (outcome_requestAction w t (.after delay)
      (name.getD (.word ((a.numbered i).tag.getD ""))) (a.numbered i))
    rw [requestsEach, List.flatMap_cons]
    refine Releases.trans hq ?_
    unfold scheduleEach requestAction
    dsimp only
    generalize w.schedule t (.after delay) (name.getD (.word ((a.numbered i).tag.getD "")))
      (a.numbered i) = r
    obtain ⟨reply, v⟩ := r
    cases reply with
    | error p => exact .refl v
    | ok reply =>
      have hrest := ih v (i + 1)
      dsimp only
      split <;> rename_i heq <;> rwa [heq] at hrest

/-! ### Scheduling calls and the kernels that they reach -/

end World

namespace Request

/-- The call reaches a built-in kernel. -/
def Reaches (q : Request) (id : KernelId) : Prop :=
  ∃ w k, q.before.reach q.target = .ok (id, w) ∧ w.kernel? id = some k

/-- The kernel has accepted the event and answered a handle, or the call was refused and its action
given up before it returned. -/
def SettledBy (q : Request) (id : KernelId) : Prop :=
  (∃ h, q.reply = .ok (.handle h) ∧ q.note? = some (id, .issued h q.payload)) ∨
    (∃ e, q.reply = .ok (.refused e)) ∧ q.before.Releases q.payload.action?.toList q.after

variable {w : World} {id : KernelId} {q : Request}

theorem Outcome.settled (ho : q.Outcome) (s : q.before.Sound) (hr : q.Reaches id) :
    q.SettledBy id := by
  obtain ⟨v, k, hv, hk⟩ := hr
  obtain ⟨watched, he⟩ := World.kernel?_eq_some.1 hk
  have hreleases := World.releases_request ho
  cases ho with
  | unreached hv' => cases hv.symm.trans hv'
  | absent hv' he' =>
    cases hv.symm.trans hv'
    cases he.symm.trans he'
  | accepted _ _ hv' he' hi _ _ hreply =>
    cases hv.symm.trans hv'
    cases he.symm.trans he'
    refine .inl ⟨_, hreply, ?_⟩
    have hid : k.id = id := (s.building (World.evolves_reach hv)).1.numbered _ _ _ he
    rw [note?, hreply]
    simp only [World.owner_of_issues hi, hid, Option.map_some]
  | refused _ _ _ hreply =>
    rw [Request.refused, hreply] at hreleases
    exact .inr ⟨⟨_, hreply⟩, hreleases⟩
  | fixed _ _ hv' he' =>
    cases hv.symm.trans hv'
    cases he.symm.trans he'

/-- **A scheduling call that reaches a kernel is accepted by it, or gives its action up.** -/
theorem settled_of_mem {c : Command} (s : w.Sound) (hq : q ∈ w.requests c) (hr : q.Reaches id) :
    q.SettledBy id := by
  have hkeeps (v : World) (t : Target) (timing : Timing) (name : HandleName) (a : Action)
      (hv : v.Sound) : (v.schedule t timing name a).2.Sound := hv.schedule t timing name a
  obtain ⟨ho, hs⟩ := World.outcome_of_mem hkeeps s hq
  exact ho.settled hs hr

end Request

namespace World

variable {w w' : World} {id : KernelId}

/-! ### Withdrawing -/

/-- What is given up at once is what the kernel hands back. -/
theorem discarded_cancelled (k : Kernel Action) (h : Handle) :
    (k.note? (.cancelled h)).toList.flatMap Note.discarded = (k.cancel h).1.toList := by
  rw [Kernel.note?, Kernel.cancel]
  by_cases hi : k.Issued h
  · rw [if_pos hi, if_pos hi]
    cases hk : h.kind with
    | teardown =>
      simp only [Kernel.cancellation, hk, Kernel.takeTeardown, Kernel.teardownOf]
      cases k.teardowns.find? fun e => e.uid == h.uid <;> rfl
    | timed =>
      simp only [Kernel.cancellation, hk]
      split <;> rfl
  · rw [if_neg hi, if_neg hi]
    rfl

theorem discarded_removed (k : Kernel Action) (h : Handle) :
    (k.note? (.removed h)).toList.flatMap Note.discarded = (k.remove h).1.toList := by
  rw [Kernel.note?, Kernel.remove]
  by_cases hi : k.Issued h
  · rw [if_pos hi, if_pos hi]
    cases hk : h.kind with
    | teardown =>
      simp only [Kernel.removal, hk, Kernel.takeTeardown, Kernel.teardownOf]
      cases k.teardowns.find? fun e => e.uid == h.uid <;> rfl
    | timed =>
      simp only [Kernel.removal, hk]
      split
      · cases (k.scheduler.remove h.key).1 with
        | none => rfl
        | some e =>
          cases hp : e.payload <;> simp [Note.discarded, Note.givenUp, Event.item, hp] <;> rfl
      · rfl
  · rw [if_neg hi, if_neg hi]
    rfl

/-- The actions that are given up according to notes. -/
def discardedIn (l : List (KernelId × Note Action)) : List Action :=
  l.flatMap fun p => p.2.discarded

theorem discardedIn_noted {k : Kernel Action} {d : Deed Action} (hk : w.kernel? id = some k) :
    discardedIn (w.noted id d) = (k.note? d).toList.flatMap Note.discarded := by
  rw [noted, hk]
  cases hn : k.note? d <;> simp [discardedIn, hn]

theorem releases_notedOn {t : Target} {d : Deed Action} {without : Reply}
    {f : KernelId → Engine Action → Except Panic Reply × World}
    (hf : ∀ id watched k, w.engine? id = some (.builtIn watched k) →
      w.Releases ((k.note? d).toList.flatMap Note.discarded) (f id (.builtIn watched k)).2)
    (hfixed : ∀ id k, w.Releases [] (f id (.fixed k)).2) :
    w.Releases (discardedIn (w.notedOn t d)) (w.onFound t without f).2 := by
  unfold notedOn onFound
  cases hfind : w.find t with
  | error p => exact .refl w
  | ok found =>
    cases found with
    | none => exact .refl w
    | some id =>
      dsimp only
      cases he : w.engine? id with
      | none =>
        have hk : w.kernel? id = none := by rw [kernel?, he]
        rw [noted, hk]
        exact .refl w
      | some e =>
        cases e with
        | builtIn watched k =>
          rw [discardedIn_noted (kernel?_eq_some.2 ⟨watched, he⟩)]
          exact hf id watched k he
        | fixed k =>
          have hk : w.kernel? id = none := by rw [kernel?, he]
          rw [noted, hk]
          exact hfixed id k

theorem releases_cancel (w : World) (t : Target) (h : Handle) :
    w.Releases (discardedIn (w.notedOn t (.cancelled h))) (w.cancel t h).2 := by
  refine releases_notedOn (fun id watched k he => ?_) fun id k => .of_journal rfl
  rw [discarded_cancelled]
  exact releases_releaseAll (w.setEngine id _) _

theorem releases_remove (w : World) (t : Target) (h : Handle) :
    w.Releases (discardedIn (w.notedOn t (.removed h))) (w.remove t h).2 := by
  refine releases_notedOn (fun id watched k he => ?_) fun id k => .of_journal rfl
  rw [discarded_removed]
  exact releases_releaseAll (w.setEngine id _) _

/-! ### All commands -/

/-- The actions that a command gives up by itself. -/
def discards (w : World) (c : Command) : List Action :=
  discardedIn (w.notes c) ++ (w.requests c).flatMap Request.refused

theorem discardedIn_requests (l : List Request) :
    discardedIn (l.filterMap Request.note?) = [] := by
  rw [discardedIn, List.flatMap_eq_nil_iff]
  intro p hp
  obtain ⟨q, -, hq⟩ := List.mem_filterMap.1 hp
  unfold Request.note? at hq
  split at hq
  · obtain ⟨j, -, rfl⟩ := Option.map_eq_some_iff.1 hq
    rfl
  · cases hq

theorem discards_of_requests {c : Command}
    (hc : w.notes c = (w.requests c).filterMap Request.note?) :
    w.discards c = (w.requests c).flatMap Request.refused := by
  rw [discards, hc, discardedIn_requests, List.nil_append]

/-- **The journal tells of just the actions that a command gives up.** -/
theorem releases_perform (w : World) (c : Command) : w.Releases (w.discards c) (w.perform c).2 := by
  cases c with
  | schedule t timing name a =>
    rw [discards_of_requests rfl, requests, List.flatMap_singleton]
    exact releases_request (outcome_requestAction w t timing name a)
  | scheduleEach t delays name a =>
    have h := releases_requestsEach t name a delays w 0
    rw [discards_of_requests rfl, requests, perform]
    split <;> rename_i heq <;> rwa [heq] at h
  | chain t tag delay length name =>
    cases length with
    | zero => exact .refl w
    | succ left =>
      rw [discards_of_requests rfl, requests, List.flatMap_singleton]
      exact releases_request (outcome_requestAction w t (.after delay) name _)
  | stopAfter t delay name =>
    rw [discards_of_requests rfl, requests, List.flatMap_singleton]
    exact releases_request (outcome_requestStop w t delay name)
  | cancel t name => exact (releases_cancel w t _).trans (.refl _)
  | remove t name => exact (releases_remove w t _).trans (.refl _)
  | isExpired t name => exact releases_onFound fun id e => .refl w
  | delayLeft t name =>
    refine releases_onReached fun id e v => ?_
    split <;> exact .refl v
  | stop t => exact releases_onReached fun id e v => .of_journal rfl
  | attach t b => exact releases_onReached fun id e v => releases_attach v id b
  | query t q =>
    cases q with
    | systemId => exact releases_onFound fun id e => .refl w
    | _ => exact releases_onReached fun id e v => .refl v
  | build name spec => exact (releases_make w spec).trans (.of_journal rfl)
  | attachNamed name =>
    rw [perform]
    split
    · exact .refl w
    · exact releases_onReached fun id e v => releases_attach v id _
  | install source => exact releases_installFrom w source
  | config call => exact releases_configure w call
  | registry call => exact releases_enroll w call
  | printing call => exact releases_print w call
  | trace call => cases call <;> exact .of_journal rfl
  | observe s => exact releases_note w s
  | capture => exact releases_onReached fun id e v => .refl v
  | backendName name =>
    rw [perform]
    split <;> exact .refl w
  | _ => exact .of_journal rfl

end World

end EventSim
