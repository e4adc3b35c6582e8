import EventSim.Proofs.Scheduler.Collection
import Mathlib.Data.List.Pairwise

/-!
# Schedulers that mirror one another

Two schedulers mirror one another if they hold the same events under pairwise different keys, the
payloads of one being images of those of the other.  How the events lie inside is left to each of
them.  Keys decide all that a scheduler hands out, so schedulers that mirror one another stay so,
whatever their backends are: `Mirrors.insert`, `Mirrors.pop`, `Mirrors.remove`, and
`Mirrors.migrate` if one of them alone moves to another backend.  `Mirrors.sorted_eq`: in the order
of their keys their events are the same.
-/

namespace EventSim

variable {α β : Type}

/-- The event with its payload changed. -/
def Event.map (g : α → β) (e : Event α) : Event β := ⟨e.key, g e.payload⟩

namespace Scheduler

variable {g : α → β} {s s' : Scheduler α} {t t' : Scheduler β} {e : Event α}

/-- The schedulers hold the same events, the payloads changed by `g`. -/
structure Mirrors (g : α → β) (s : Scheduler α) (t : Scheduler β) : Prop where
  ordered : s.Ordered
  ordered' : t.Ordered
  distinct : s.Distinct
  perm : t.toList.Perm (s.toList.map (Event.map g))

theorem Mirrors.empty {b b' : Backend} (hb : b.isBuiltIn = true) (hb' : b'.isBuiltIn = true) :
    Mirrors g (empty b) (empty b') where
  ordered := ordered_empty hb
  ordered' := ordered_empty hb'
  distinct := by
    rw [Distinct, toList_empty]
    exact List.Pairwise.nil
  perm := by
    rw [toList_empty, toList_empty]
    exact .nil

/-- Different events are under different keys. -/
theorem Distinct.eq_of_same (d : s.Distinct) {x y : Event α} (hx : x ∈ s.toList)
    (hy : y ∈ s.toList) (h : x.key.Same y.key) : x = y := by
  have hsymm : Std.Symm fun x y : Event α => ¬ x.key.Same y.key := ⟨fun _ _ h g => h g.symm⟩
  by_contra hne
  exact List.Pairwise.forall d hx hy hne h

theorem Mirrors.mem (m : Mirrors g s t) {y : Event β} :
    y ∈ t.toList ↔ ∃ x ∈ s.toList, x.map g = y := by
  rw [m.perm.mem_iff, List.mem_map]

theorem Mirrors.distinct' (m : Mirrors g s t) : t.Distinct := by
  have h : (s.toList.map (Event.map g)).Pairwise fun x y => ¬ x.key.Same y.key :=
    List.pairwise_map.2 m.distinct
  exact m.perm.symm.pairwise h fun hxy hyx => hxy hyx.symm

theorem Mirrors.insert (m : Mirrors g s t) (h : ∀ x ∈ s.toList, ¬ e.key.Same x.key) :
    Mirrors g (s.insert e) (t.insert (e.map g)) where
  ordered := m.ordered.insert e
  ordered' := m.ordered'.insert (e.map g)
  distinct := by
    refine (perm_insert h).symm.pairwise (List.pairwise_cons.2 ⟨h, m.distinct⟩) ?_
    exact fun hxy hyx => hxy hyx.symm
  perm := by
    have h' : ∀ y ∈ t.toList, ¬ (e.map g).key.Same y.key := fun y hy => by
      obtain ⟨x, hx, rfl⟩ := m.mem.1 hy
      exact h x hx
    exact (perm_insert h').trans ((m.perm.cons _).trans ((perm_insert h).map _).symm)

/-- What is left after the same event is gone from both. -/
theorem Mirrors.drop (m : Mirrors g s t) (hs : s'.Ordered) (ht : t'.Ordered)
    (h : s.toList.Perm (e :: s'.toList)) (h' : t.toList.Perm (e.map g :: t'.toList)) :
    Mirrors g s' t' where
  ordered := hs
  ordered' := ht
  distinct := (List.pairwise_cons.1 (h.pairwise m.distinct fun hxy hyx => hxy hyx.symm)).2
  perm := (h'.symm.trans (m.perm.trans (h.map _))).cons_inv

theorem Mirrors.pop_none (m : Mirrors g s t) (h : s.pop = none) : t.pop = none := by
  rw [pop_eq_none] at *
  rw [← List.length_eq_zero_iff, m.perm.length_eq, h]
  rfl

/-- **The same event comes out of both.** -/
theorem Mirrors.pop (m : Mirrors g s t) (h : s.pop = some (e, s')) :
    ∃ t', t.pop = some (e.map g, t') ∧ Mirrors g s' t' := by
  have he : e ∈ s.toList := (perm_pop h).mem_iff.2 List.mem_cons_self
  cases ht : t.pop with
  | none =>
    have : t.toList = [] := pop_eq_none.1 ht
    have hm := m.mem.2 ⟨e, he, rfl⟩
    rw [this] at hm
    cases hm
  | some r =>
    obtain ⟨y, t'⟩ := r
    obtain ⟨x, hx, rfl⟩ := m.mem.1 ((perm_pop ht).mem_iff.2 List.mem_cons_self)
    -- neither comes out before the other, so their keys are the same
    have hxe : ¬ x.key.Before e.key := m.ordered.pop_first h x hx
    have hex : ¬ e.key.Before x.key := m.ordered'.pop_first ht _ (m.mem.2 ⟨e, he, rfl⟩)
    have hsame : x.key.Same e.key := by
      rcases EventKey.before_or_same_or_before x.key e.key with h | h | h
      · exact absurd h hxe
      · exact h
      · exact absurd h hex
    cases m.distinct.eq_of_same hx he hsame
    exact ⟨t', rfl, m.drop (m.ordered.pop h) (m.ordered'.pop ht) (perm_pop h) (perm_pop ht)⟩

/-- **The same event is removed from both.** -/
theorem Mirrors.remove (m : Mirrors g s t) (key : EventKey) :
    (t.remove key).1 = (s.remove key).1.map (Event.map g) ∧
      Mirrors g (s.remove key).2 (t.remove key).2 := by
  have hps := perm_remove s key
  have hpt := perm_remove t key
  cases hs : (s.remove key).1 with
  | none =>
    have hnone : (t.remove key).1 = none := by
      by_contra hsome
      obtain ⟨y, hy⟩ := Option.ne_none_iff_exists'.1 hsome
      rw [hy] at hpt
      obtain ⟨x, hx, rfl⟩ := m.mem.1 (hpt.mem_iff.2 List.mem_cons_self)
      have hsame : (x.map g).key.Same key := remove_some hy
      exact m.ordered.remove_none hs x hx hsame
    rw [hs] at hps
    rw [hnone] at hpt
    refine ⟨hnone, m.ordered.remove key, m.ordered'.remove key, m.distinct.perm hps, ?_⟩
    exact hpt.symm.trans (m.perm.trans (hps.map _))
  | some e =>
    rw [hs] at hps
    have he : e ∈ s.toList := hps.mem_iff.2 List.mem_cons_self
    cases ht : (t.remove key).1 with
    | none => exact absurd (remove_some hs) (m.ordered'.remove_none ht _ (m.mem.2 ⟨e, he, rfl⟩))
    | some y =>
      rw [ht] at hpt
      obtain ⟨x, hx, rfl⟩ := m.mem.1 (hpt.mem_iff.2 List.mem_cons_self)
      have hsame : x.key.Same e.key := (remove_some ht).trans (remove_some hs).symm
      cases m.distinct.eq_of_same hx he hsame
      exact ⟨rfl, m.drop (m.ordered.remove key) (m.ordered'.remove key) hps hpt⟩

/-- One of them may move to another backend. -/
theorem Mirrors.migrate (m : Mirrors g s t) {b : Backend} (hb : b.isBuiltIn = true) :
    Mirrors g (s.migrate b) t where
  ordered := ordered_migrate s hb
  ordered' := m.ordered'
  distinct := m.distinct.perm (perm_migrate m.distinct b).symm
  perm := m.perm.trans ((perm_migrate m.distinct b).symm.map _)

/-! ### The common view -/

/-- The events inside, in the order of their keys. -/
def sorted (s : Scheduler α) : List (Event α) := (s.migrate .map).toList

theorem pairwise_sorted (s : Scheduler α) : s.sorted.Pairwise fun x y => x.key.Before y.key := by
  have hmap (l : List (Event α)) (m : SortedMap α) :
      ∃ m', l.foldl Scheduler.insert (map m) = map m' := by
    induction l generalizing m with
    | nil => exact ⟨m, rfl⟩
    | cons e l ih => exact ih (m.insert e)
  have ho := ordered_migrate s (b := .map) rfl
  obtain ⟨m, hm⟩ := hmap s.drain .empty
  have hs : s.migrate .map = map m := hm
  rw [hs] at ho
  rw [sorted, hs]
  exact ho

/-- **Whatever their layout, the schedulers hold the same events.** -/
theorem Mirrors.sorted_eq (m : Mirrors g s t) : t.sorted = s.sorted.map (Event.map g) := by
  have hs : s.sorted.Perm s.toList := perm_migrate m.distinct .map
  have ht : t.sorted.Perm t.toList := perm_migrate m.distinct' .map
  have hsorted : (s.sorted.map (Event.map g)).Pairwise fun x y => x.key.Before y.key :=
    List.pairwise_map.2 s.pairwise_sorted
  refine List.Perm.eq_of_pairwise ?_ t.pairwise_sorted hsorted
    (ht.trans (m.perm.trans (hs.map _).symm))
  exact fun x y _ _ hxy hyx => absurd hyx hxy.asymm

end Scheduler

end EventSim
