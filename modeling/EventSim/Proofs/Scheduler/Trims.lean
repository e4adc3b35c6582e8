import EventSim.Proofs.Scheduler.Mirrors

/-!
# Schedulers that hold a part of the events

A scheduler trims another one if it holds those of its events that are kept, with their payloads
changed; where the events lie is left to each of them.  Keys decide all that a scheduler hands out,
so the kept events come out of both in the same order: a kept event that is next in the one is next
in the other (`Trims.pop`), and an event that is not kept is gone from the one alone
(`Trims.pop_apart`).  `Trims.sorted_eq`: in the order of their keys the kept events are the same.

`mapPayloads` changes the payloads where they lie; if every event is kept, a scheduler is trimmed
that way.
-/

namespace EventSim

namespace Scheduler

variable {α β : Type} {g : α → β} {keep keep' : Event α → Bool} {s s' : Scheduler α}
  {t t' : Scheduler β} {e : Event α} {key : EventKey}

/-- The scheduler `t` holds the events of `s` that are kept, their payloads changed by `g`. -/
structure Trims (g : α → β) (keep : Event α → Bool) (s : Scheduler α) (t : Scheduler β) :
    Prop where
  ordered : s.Ordered
  ordered' : t.Ordered
  distinct : s.Distinct
  perm : t.toList.Perm ((s.toList.filter keep).map (Event.map g))

theorem Trims.mem (m : Trims g keep s t) {y : Event β} :
    y ∈ t.toList ↔ ∃ x ∈ s.toList, keep x = true ∧ x.map g = y := by
  rw [m.perm.mem_iff, List.mem_map]
  constructor
  · rintro ⟨x, hx, rfl⟩
    obtain ⟨hx, hk⟩ := List.mem_filter.1 hx
    exact ⟨x, hx, hk, rfl⟩
  · rintro ⟨x, hx, hk, rfl⟩
    exact ⟨x, List.mem_filter.2 ⟨hx, hk⟩, rfl⟩

/-- Only what is inside matters. -/
theorem Trims.congr (m : Trims g keep s t) (h : ∀ x ∈ s.toList, keep' x = keep x) :
    Trims g keep' s t where
  ordered := m.ordered
  ordered' := m.ordered'
  distinct := m.distinct
  perm := by
    rw [List.filter_congr h]
    exact m.perm

theorem Trims.empty {b b' : Backend} (hb : b.isBuiltIn = true) (hb' : b'.isBuiltIn = true) :
    Trims g keep (empty b) (empty b') where
  ordered := ordered_empty hb
  ordered' := ordered_empty hb'
  distinct := by
    rw [Distinct, toList_empty]
    exact List.Pairwise.nil
  perm := by
    rw [toList_empty, toList_empty]
    exact .nil

theorem Trims.distinct' (m : Trims g keep s t) : t.Distinct := by
  have hfilter : (s.toList.filter keep).Pairwise fun x y => ¬ x.key.Same y.key :=
    List.Pairwise.sublist List.filter_sublist m.distinct
  have hmap : ((s.toList.filter keep).map (Event.map g)).Pairwise fun x y => ¬ x.key.Same y.key :=
    List.pairwise_map.2 hfilter
  exact m.perm.symm.pairwise hmap fun hxy hyx => hxy hyx.symm

theorem Trims.insert (m : Trims g keep s t) (h : ∀ x ∈ s.toList, ¬ e.key.Same x.key)
    (hk : keep e = true) : Trims g keep (s.insert e) (t.insert (e.map g)) where
  ordered := m.ordered.insert e
  ordered' := m.ordered'.insert (e.map g)
  distinct := by
    refine (perm_insert h).symm.pairwise (List.pairwise_cons.2 ⟨h, m.distinct⟩) ?_
    exact fun hxy hyx => hxy hyx.symm
  perm := by
    have h' : ∀ y ∈ t.toList, ¬ (e.map g).key.Same y.key := fun y hy => by
      obtain ⟨x, hx, -, rfl⟩ := m.mem.1 hy
      exact h x hx
    have hfilter := (perm_insert h).filter keep
    rw [List.filter_cons_of_pos hk] at hfilter
    exact (perm_insert h').trans ((m.perm.cons _).trans (hfilter.map _).symm)

/-! ### What is left when an event is gone -/

/-- A kept event is gone from both. -/
theorem Trims.drop (m : Trims g keep s t) (hs : s'.Ordered) (ht : t'.Ordered)
    (hk : keep e = true) (h : s.toList.Perm (e :: s'.toList))
    (h' : t.toList.Perm (e.map g :: t'.toList)) : Trims g keep s' t' where
  ordered := hs
  ordered' := ht
  distinct := (List.pairwise_cons.1 (h.pairwise m.distinct fun hxy hyx => hxy hyx.symm)).2
  perm := by
    have hfilter := h.filter keep
    rw [List.filter_cons_of_pos hk] at hfilter
    exact (h'.symm.trans (m.perm.trans (hfilter.map _))).cons_inv

/-- An event that is not kept is gone. -/
theorem Trims.drop_apart (m : Trims g keep s t) (hs : s'.Ordered) (hk : keep e = false)
    (h : s.toList.Perm (e :: s'.toList)) : Trims g keep s' t where
  ordered := hs
  ordered' := m.ordered'
  distinct := (List.pairwise_cons.1 (h.pairwise m.distinct fun hxy hyx => hxy hyx.symm)).2
  perm := by
    have hfilter := h.filter keep
    rw [List.filter_cons_of_neg (Bool.eq_false_iff.1 hk)] at hfilter
    exact m.perm.trans (hfilter.map _)

/-- An event that was kept is kept no more, and gone from the other scheduler. -/
theorem Trims.discard (m : Trims g keep s t) (ht : t'.Ordered) (he : e ∈ s.toList)
    (hk : keep e = true) (hk' : keep' e = false)
    (h : ∀ x ∈ s.toList, ¬ x.key.Same e.key → keep' x = keep x)
    (h' : t.toList.Perm (e.map g :: t'.toList)) : Trims g keep' s t' where
  ordered := m.ordered
  ordered' := ht
  distinct := m.distinct
  perm := by
    obtain ⟨l, l', hl⟩ := List.append_of_mem he
    have hperm : s.toList.Perm (e :: (l ++ l')) := by
      rw [hl]
      exact List.perm_middle
    have hrest : ∀ x ∈ l ++ l', keep' x = keep x := fun x hx => by
      have hd := hperm.pairwise m.distinct fun hxy hyx => hxy hyx.symm
      refine h x (hperm.mem_iff.2 (List.mem_cons_of_mem _ hx)) fun hs => ?_
      exact (List.pairwise_cons.1 hd).1 x hx hs.symm
    have hbefore := hperm.filter keep
    have hafter := hperm.filter keep'
    rw [List.filter_cons_of_pos hk] at hbefore
    rw [List.filter_cons_of_neg (Bool.eq_false_iff.1 hk'), List.filter_congr hrest] at hafter
    exact (h'.symm.trans (m.perm.trans (hbefore.map _))).cons_inv.trans (hafter.map _).symm

/-! ### Dequeuing -/

theorem Trims.pop_none (m : Trims g keep s t) (h : s.pop = none) : t.pop = none := by
  rw [pop_eq_none] at *
  rw [← List.length_eq_zero_iff, m.perm.length_eq, h]
  rfl

/-- **A kept event that is next is next in both.** -/
theorem Trims.pop (m : Trims g keep s t) (h : s.pop = some (e, s')) (hk : keep e = true) :
    ∃ t', t.pop = some (e.map g, t') ∧ Trims g keep s' t' := by
  have he : e ∈ s.toList := (perm_pop h).mem_iff.2 List.mem_cons_self
  cases ht : t.pop with
  | none =>
    have hnil : t.toList = [] := pop_eq_none.1 ht
    have hm := m.mem.2 ⟨e, he, hk, rfl⟩
    rw [hnil] at hm
    cases hm
  | some r =>
    obtain ⟨y, t'⟩ := r
    obtain ⟨x, hx, hkx, rfl⟩ := m.mem.1 ((perm_pop ht).mem_iff.2 List.mem_cons_self)
    -- neither comes out before the other, so their keys are the same
    have hxe : ¬ x.key.Before e.key := m.ordered.pop_first h x hx
    have hex : ¬ e.key.Before x.key := m.ordered'.pop_first ht _ (m.mem.2 ⟨e, he, hk, rfl⟩)
    have hsame : x.key.Same e.key := by
      rcases EventKey.before_or_same_or_before x.key e.key with h | h | h
      · exact absurd h hxe
      · exact h
      · exact absurd h hex
    cases m.distinct.eq_of_same hx he hsame
    exact ⟨t', rfl, m.drop (m.ordered.pop h) (m.ordered'.pop ht) hk (perm_pop h) (perm_pop ht)⟩

/-- An event that is not kept comes out of one of them alone. -/
theorem Trims.pop_apart (m : Trims g keep s t) (h : s.pop = some (e, s')) (hk : keep e = false) :
    Trims g keep s' t := m.drop_apart (m.ordered.pop h) hk (perm_pop h)

/-! ### Removal -/

/-- A kept event is found under its key. -/
theorem Trims.find (m : Trims g keep s t) (he : e ∈ s.toList) (hk : keep e = true)
    (hs : e.key.Same key) :
    (t.remove key).1 = some (e.map g) ∧ t.toList.Perm (e.map g :: (t.remove key).2.toList) := by
  have hperm := perm_remove t key
  cases hr : (t.remove key).1 with
  | none =>
    exact absurd hs (m.ordered'.remove_none hr _ (m.mem.2 ⟨e, he, hk, rfl⟩))
  | some y =>
    rw [hr] at hperm
    obtain ⟨x, hx, -, rfl⟩ := m.mem.1 (hperm.mem_iff.2 List.mem_cons_self)
    have hkey : (x.map g).key.Same key := remove_some hr
    have hsame : x.key.Same e.key := hkey.trans hs.symm
    cases m.distinct.eq_of_same hx he hsame
    exact ⟨rfl, hperm⟩

/-! ### Moving into another backend -/

/-- Both move into a backend. -/
theorem Trims.migrate (m : Trims g keep s t) {b : Backend} (hb : b.isBuiltIn = true) :
    Trims g keep (s.migrate b) (t.migrate b) where
  ordered := ordered_migrate s hb
  ordered' := ordered_migrate t hb
  distinct := m.distinct.perm (perm_migrate m.distinct b).symm
  perm := by
    have hs := ((perm_migrate m.distinct b).filter keep).map (Event.map g)
    exact (perm_migrate m.distinct' b).trans (m.perm.trans hs.symm)

/-! ### The common view -/

/-- **In the order of their keys the kept events are the same.** -/
theorem Trims.sorted_eq (m : Trims g keep s t) :
    t.sorted = (s.sorted.filter keep).map (Event.map g) := by
  have hs : s.sorted.Perm s.toList := perm_migrate m.distinct .map
  have ht : t.sorted.Perm t.toList := perm_migrate m.distinct' .map
  have hfilter : (s.sorted.filter keep).Pairwise fun x y => x.key.Before y.key :=
    List.Pairwise.sublist List.filter_sublist s.pairwise_sorted
  have hsorted : ((s.sorted.filter keep).map (Event.map g)).Pairwise
      fun x y => x.key.Before y.key := List.pairwise_map.2 hfilter
  refine List.Perm.eq_of_pairwise ?_ t.pairwise_sorted hsorted
    (ht.trans (m.perm.trans ((hs.filter keep).map _).symm))
  intro x y _ _ hxy hyx
  exact absurd hyx hxy.asymm

/-! ### The same events with other payloads -/

/-- The scheduler with its payloads changed, all events where they are. -/
def mapPayloads (g : α → β) : Scheduler α → Scheduler β
  | .map m => .map ⟨m.events.map (Event.map g)⟩
  | .heap h => .heap ⟨h.entries.map (Event.map g)⟩
  | .list l => .list ⟨l.events.map (Event.map g), l.capacity, l.head⟩
  | .pile q => .pile ⟨q.preference, q.sticky, q.events.map (Event.map g)⟩

theorem toList_mapPayloads (g : α → β) (s : Scheduler α) :
    (s.mapPayloads g).toList = s.toList.map (Event.map g) := by
  cases s with
  | heap h => exact Array.toList_map
  | _ => rfl

/-- The order is one of the keys. -/
theorem Ordered.mapPayloads (o : s.Ordered) (g : α → β) : (s.mapPayloads g).Ordered := by
  cases s with
  | map m => exact List.pairwise_map.2 o
  | heap h =>
    intro c p hc hp hchild
    simp only [Array.size_map] at hc hp
    simp only [Array.getElem_map]
    exact o c p hc hp hchild
  | list l => exact List.pairwise_map.2 o
  | pile q => cases o

theorem trims_mapPayloads (o : s.Ordered) (d : s.Distinct) (h : ∀ x ∈ s.toList, keep x = true) :
    Trims g keep s (s.mapPayloads g) where
  ordered := o
  ordered' := o.mapPayloads g
  distinct := d
  perm := by
    rw [toList_mapPayloads, List.filter_eq_self.2 h]

end Scheduler

end EventSim
