import EventSim.Proofs.Kernel.Causality
import EventSim.Proofs.Machine.History

/-!
# Causality over the life of a kernel

`Permitted.causality` follows a kernel through any lawful history, with its runs, stops, nested
runs, withdrawals, migrations, destructions and panics: **the keys of the timed events that start
ascend**, and every event starts at the time and under the context of the handle that its scheduling
call answered, a context that the call gave or that was present when it was made.
-/

namespace EventSim

namespace History

open Machine

variable {environment : Option String} {l : List Move} {id : KernelId} {k : Kernel Action}

/-- What is in a record was noted of some move. -/
theorem exists_move {n : Note Action} (h : n ∈ record environment id l) :
    ∃ newer x older, l = newer ++ x :: older ∧ (id, n) ∈ (after environment older).notes x := by
  induction l with
  | nil => cases h
  | cons x l ih =>
    rcases List.mem_append.1 h with h | h
    · obtain ⟨⟨j, n'⟩, hm, heq⟩ := List.mem_filterMap.1 (List.mem_reverse.1 h)
      dsimp only at heq
      split at heq <;> cases heq
      subst j
      exact ⟨[], x, l, rfl, hm⟩
    · obtain ⟨newer, y, older, rfl, hm⟩ := ih h
      exact ⟨x :: newer, y, older, rfl, hm⟩

/-- A note about a turn is the only one of its move. -/
theorem record_of_turn {x : Move} {older : List Move} {n : Note Action}
    (h : (id, n) ∈ (after environment older).notes x) (hn : n.OfTurn) :
    record environment id (x :: older) = n :: record environment id older := by
  rw [record, (turn_of_mem_notes h hn).1]
  simp [notesAbout]

/-- The kernel that does a turn is there afterwards. -/
theorem Permitted.kernel_of_turn {x : Move} {older : List Move} {n : Note Action}
    (h : Permitted Command.Lawful environment (x :: older))
    (hm : (id, n) ∈ (after environment older).notes x) (hn : n.OfTurn) :
    ∃ k, (after environment (x :: older)).world.kernel? id = some k := by
  obtain ⟨-, k, d, -, hk, -⟩ := turn_of_mem_notes hm hn
  refine Option.isSome_iff_exists.1 (h.stays (List.suffix_cons x older) ?_)
  rw [hk]
  rfl

/-- The clock and the counters of a kernel are what its record says. -/
theorem Permitted.dated (h : Permitted Command.Lawful environment l)
    (hk : (after environment l).world.kernel? id = some k) :
    k.Dated (record environment id l) :=
  h.keeps hk (Kernel.dated_fresh id) fun _ _ he hI => hI.effect he

theorem Permitted.causal (h : Permitted Command.Lawful environment l)
    (hk : (after environment l).world.kernel? id = some k) :
    k.Causal (record environment id l) :=
  h.keeps hk (Kernel.causal_fresh id) fun s _ he hI => hI.effect s he

theorem Permitted.sourced (h : Permitted Command.Lawful environment l)
    (hk : (after environment l).world.kernel? id = some k) :
    k.Sourced (record environment id l) :=
  h.keeps hk (Kernel.sourced_fresh id) fun s _ he hI => hI.effect s he

/-- What a kernel has issued was answered by an earlier scheduling call. -/
theorem request_of_mem_record {g : Handle} {payload : Payload Action}
    (h : .issued g payload ∈ record environment id l) :
    ∃ newer x older, l = newer ++ x :: older ∧ ∃ q ∈ (after environment older).requests x,
      q.reply = .ok (.handle g) ∧ q.payload = payload ∧ q.Inherits g := by
  obtain ⟨newer, x, older, rfl, hm⟩ := exists_move h
  obtain ⟨q, hq, hr, hp, ho⟩ := request_of_issued hm
  exact ⟨newer, x, older, rfl, q, hq, hr, hp, inherits_of_mem_requests hq hr (by rw [ho]; rfl)⟩

/-- **The keys of the timed events that start ascend**, and each starts at the time and under the
context of the handle that its scheduling call has answered. -/
theorem Permitted.causality (h : Permitted Command.Lawful environment l)
    (hk : (after environment l).world.kernel? id = some k) :
    ((startedIn (record environment id l)).Pairwise fun later earlier =>
      earlier.key.Before later.key) ∧
    ∀ newer x older e, l = newer ++ x :: older →
      (id, .started e) ∈ (after environment older).notes x →
      (∃ k, (after environment (x :: older)).world.kernel? id = some k ∧
        k.now = e.key.time ∧ k.context = e.key.context) ∧
      ∃ between y earlier, older = between ++ y :: earlier ∧
        ∃ q ∈ (after environment earlier).requests y,
          q.reply = .ok (.handle (.ofKey (some id) e.key)) ∧ q.payload = e.payload ∧
          q.Inherits (.ofKey (some id) e.key) := by
  refine ⟨(h.causal hk).ascending, fun newer x older e hl hm => ?_⟩
  have hx : Permitted Command.Lawful environment (x :: older) := h.suffix ⟨newer, hl.symm⟩
  have hrecord := record_of_turn hm trivial
  obtain ⟨k', hk'⟩ := hx.kernel_of_turn hm trivial
  constructor
  · have hd := hx.dated hk'
    rw [hrecord] at hd
    exact ⟨k', hk', hd.now, hd.context⟩
  · have hs := (hx.sourced hk').started e (record environment id older)
      (hrecord ▸ List.suffix_refl _)
    rw [hx.id_eq hk'] at hs
    exact request_of_mem_record hs

/-- Two events tied in time, of which the first schedules a third one. -/
def tiedRun : List Move :=
  let t : Target := .kernel (.numbered 0)
  .replicate 6 .step ++ [.call (.run t),
    .call (.schedule t (.after (.clamp 1)) (.numbered 2) (.silent [])),
    .call (.schedule t (.under 5 (.clamp 1)) (.numbered 1)
      (.silent [.schedule t .immediately (.numbered 3) (.silent [])])),
    .call (.build none (.builtIn 0))]

theorem permitted_tiedRun : Permitted Command.Lawful none tiedRun := by
  simp only [tiedRun, List.replicate, List.cons_append, List.nil_append, Permitted, Allows]
  refine ⟨trivial, trivial, trivial, trivial, trivial, trivial, ⟨rfl, ?_⟩, ⟨rfl, ?_⟩, ⟨rfl, ?_⟩,
    ⟨rfl, ?_⟩, trivial⟩
  all_goals simp [Command.All, Action.silent, Action.All, allOf, Command.Lawful]

/-- Ties start in the order of their scheduling, and the third event inherits its context. -/
theorem causality_tiedRun :
    (startedIn (record none 0 tiedRun)).map (fun e => (e.key.uid, e.key.context)) =
      [(3, 5), (2, noContext), (1, 5)] ∧
    (startedIn (record none 0 tiedRun)).Pairwise fun later earlier =>
      earlier.key.Before later.key := by
  obtain ⟨k, hk⟩ : ∃ k, (after none tiedRun).world.kernel? 0 = some k :=
    Option.isSome_iff_exists.1 (rfl)
  exact ⟨rfl, (permitted_tiedRun.causality hk).1⟩

end History

end EventSim
