import EventSim.Proofs.KeyOrder
import EventSim.Scheduler.BinaryHeap

/-!
# The order of the heap

`Ordered` says that no event comes out before its parent.  While an event moves, the order is broken
at one position, the hole: `SinkOrder` leaves out every pair that the hole is part of and compares
its children with its parent instead, `UpOrder` adds that the children do not come out before the
event in the hole, and `DownOrder` asks for order at and below a level only and leaves out the pairs
of the hole with its children.  Each sift swaps the hole along one edge, which keeps its condition,
and ends where the condition says that the array is ordered.

* `perm_pop`, `perm_insert`, `perm_remove`: nothing is lost and nothing is added.
* `Ordered.insert`, `Ordered.pop`, `ordered_ofArray`: the operations answer ordered heaps.
* `Ordered.root_first`: nothing comes out before the root.
-/

namespace EventSim.BinaryHeap

variable {α : Type} {a : Array (Event α)} {i c p n : Nat}

/-- `c` is a child of `p`. -/
def IsChild (c p : Nat) : Prop := c = 2 * p + 1 ∨ c = 2 * p + 2

theorem IsChild.lt (h : IsChild c p) : p < c := by
  unfold IsChild at h
  omega

theorem IsChild.parent_unique {q : Nat} (h : IsChild c p) (g : IsChild c q) : p = q := by
  unfold IsChild at *
  omega

theorem isChild_parent (h : 0 < c) : IsChild c ((c - 1) / 2) := by
  unfold IsChild
  omega

/-- No event of the array comes out before its parent. -/
def Ordered (a : Array (Event α)) : Prop :=
  ∀ c p (hc : c < a.size) (hp : p < a.size), IsChild c p → ¬ a[c].key.Before a[p].key

/-- The order at and below the position `n`. -/
def OrderedFrom (n : Nat) (a : Array (Event α)) : Prop :=
  ∀ c p (hc : c < a.size) (hp : p < a.size), IsChild c p → n ≤ p → ¬ a[c].key.Before a[p].key

/-- What is left of the order while the event at `i` sinks. -/
structure SinkOrder (a : Array (Event α)) (i : Nat) : Prop where
  except : ∀ c p (hc : c < a.size) (hp : p < a.size), IsChild c p → c ≠ i → p ≠ i →
    ¬ a[c].key.Before a[p].key
  grand : ∀ c p (hc : c < a.size) (hp : p < a.size), IsChild c i → IsChild i p →
    ¬ a[c].key.Before a[p].key

/-- What is left of the order while the event at `i` rises. -/
structure UpOrder (a : Array (Event α)) (i : Nat) : Prop extends SinkOrder a i where
  below : ∀ c (hc : c < a.size) (hi : i < a.size), IsChild c i → ¬ a[c].key.Before a[i].key

/-- What is left of the order from `n` on while the event at `i` goes down. -/
structure DownOrder (n : Nat) (a : Array (Event α)) (i : Nat) : Prop where
  except : ∀ c p (hc : c < a.size) (hp : p < a.size), IsChild c p → n ≤ p → p ≠ i →
    ¬ a[c].key.Before a[p].key
  grand : ∀ c p (hc : c < a.size) (hp : p < a.size), IsChild c i → IsChild i p → n ≤ p →
    ¬ a[c].key.Before a[p].key

/-! ### The first child -/

theorem firstChild_isChild (h : firstChild a i = some c) : IsChild c i := by
  unfold firstChild at h
  unfold IsChild
  split at h
  · split at h <;> cases h <;> omega
  · split at h
    · cases h
      omega
    · cases h

theorem firstChild_none (h : firstChild a i = none) (hc : c < a.size) : ¬ IsChild c i := by
  unfold firstChild at h
  unfold IsChild
  split at h
  · split at h <;> cases h
  · split at h
    · cases h
    · omega

theorem firstChild_first (h : firstChild a i = some c) {d : Nat} (hd : d < a.size)
    (hc : c < a.size) (hdi : IsChild d i) : ¬ a[d].key.Before a[c].key := by
  unfold firstChild at h
  unfold IsChild at hdi
  split at h
  · split at h
    · rename_i hb
      cases h
      rcases hdi with rfl | rfl
      · exact EventKey.before_irrefl _
      · exact hb.asymm
    · rename_i hb
      cases h
      rcases hdi with rfl | rfl
      · exact hb
      · exact EventKey.before_irrefl _
  · split at h
    · cases h
      obtain rfl : d = 2 * i + 1 := by omega
      exact EventKey.before_irrefl _
    · cases h

/-! ### Rising -/

theorem UpOrder.swap (o : UpOrder a i) (hi : i < a.size) (hp : p < a.size) (hip : IsChild i p)
    (hb : a[i].key.Before a[p].key) : UpOrder (a.swap i p hi hp) p := by
  have hlt := hip.lt
  refine ⟨⟨?_, ?_⟩, ?_⟩
  · intro c q hc hq hcq hcp hqp
    have hc' : c < a.size := by simpa using hc
    have hq' : q < a.size := by simpa using hq
    simp only [Array.getElem_swap, if_neg hcp, if_neg hqp]
    by_cases hci : c = i
    · subst hci
      exact absurd (hcq.parent_unique hip) hqp
    · by_cases hqi : q = i
      · subst hqi
        rw [if_neg hci, if_pos rfl]
        exact o.grand c p hc' hp hcq hip
      · rw [if_neg hci, if_neg hqi]
        exact o.except c q hc' hq' hcq hci hqi
  · intro c q hc hq hcp hpq
    have hc' : c < a.size := by simpa using hc
    have hq' : q < a.size := by simpa using hq
    have hqp := hpq.lt
    have hup : ¬ a[p].key.Before a[q].key :=
      o.except p q hp hq' hpq (by omega) (by omega)
    simp only [Array.getElem_swap, if_neg (show q ≠ i by omega), if_neg (show q ≠ p by omega)]
    have hcgt := hcp.lt
    by_cases hci : c = i
    · subst hci
      rw [if_pos rfl]
      exact hup
    · rw [if_neg hci, if_neg (show c ≠ p by omega)]
      exact EventKey.not_before_trans hup (o.except c p hc' hp hcp hci (by omega))
  · intro c hc _ hcp
    have hc' : c < a.size := by simpa using hc
    have hcgt := hcp.lt
    simp only [Array.getElem_swap, if_neg (show c ≠ p by omega), if_neg (show p ≠ i by omega),
      if_pos trivial]
    by_cases hci : c = i
    · subst hci
      rw [if_pos rfl]
      exact hb.asymm
    · rw [if_neg hci]
      exact EventKey.not_before_trans hb.asymm (o.except c p hc' hp hcp hci (by omega))

/-- The hole is closed when its event is not before its parent. -/
theorem UpOrder.ordered (o : UpOrder a i)
    (h : ∀ p (hi : i < a.size) (hp : p < a.size), IsChild i p → ¬ a[i].key.Before a[p].key) :
    Ordered a := by
  intro c p hc hp hcp
  by_cases hci : c = i
  · subst hci
    exact h p hc hp hcp
  · by_cases hpi : p = i
    · subst hpi
      exact o.below c hc hp hcp
    · exact o.except c p hc hp hcp hci hpi

theorem UpOrder.ordered_siftUp (o : UpOrder a i) : Ordered (siftUp a i) := by
  fun_induction siftUp a i with
  | case1 a i h hp hb ih => exact ih (o.swap h.2 hp (isChild_parent h.1) hb)
  | case2 a i h hp hb =>
    refine o.ordered fun q hi hq hiq => ?_
    obtain rfl := hiq.parent_unique (isChild_parent h.1)
    exact hb
  | case3 a i h =>
    refine o.ordered fun q hi hq hiq => ?_
    have := hiq.lt
    omega

/-! ### Sinking -/

theorem SinkOrder.swap (o : SinkOrder a i) (hi : i < a.size) (hc : c < a.size)
    (h : firstChild a i = some c) : SinkOrder (a.swap i c hi hc) c := by
  have hci := firstChild_isChild h
  have hlt := hci.lt
  refine ⟨?_, ?_⟩
  · intro d q hd hq hdq hdc hqc
    have hd' : d < a.size := by simpa using hd
    have hq' : q < a.size := by simpa using hq
    have hlt' := hdq.lt
    simp only [Array.getElem_swap, if_neg hdc, if_neg hqc]
    by_cases hdi : d = i
    · subst hdi
      rw [if_pos rfl, if_neg (show q ≠ d by omega)]
      exact o.grand c q hc hq' hci hdq
    · by_cases hqi : q = i
      · subst hqi
        rw [if_neg hdi, if_pos rfl]
        exact firstChild_first h hd' hc hdq
      · rw [if_neg hdi, if_neg hqi]
        exact o.except d q hd' hq' hdq hdi hqi
  · intro d q hd hq hdc hcq
    have hd' : d < a.size := by simpa using hd
    have hq' : q < a.size := by simpa using hq
    obtain rfl := hci.parent_unique hcq
    have hlt' := hdc.lt
    simp only [Array.getElem_swap, if_neg (show d ≠ i by omega), if_neg (show d ≠ c by omega),
      if_pos trivial]
    exact o.except d c hd' hc hdc (by omega) (by omega)

theorem SinkOrder.upOrder_sink (o : SinkOrder a i) : UpOrder (sink a i).1 (sink a i).2 := by
  fun_induction sink a i with
  | case1 a i h =>
    exact ⟨o, fun c hc _ hci => absurd hci (firstChild_none h hc)⟩
  | case2 a i c h hc ih => exact ih (o.swap (by omega) hc.2 h)

/-! ### Going down -/

theorem DownOrder.swap (o : DownOrder n a i) (hi : i < a.size) (hc : c < a.size)
    (h : firstChild a i = some c) (hb : a[c].key.Before a[i].key) :
    DownOrder n (a.swap i c hi hc) c := by
  have hci := firstChild_isChild h
  have hlt := hci.lt
  refine ⟨?_, ?_⟩
  · intro d q hd hq hdq hn hqc
    have hd' : d < a.size := by simpa using hd
    have hq' : q < a.size := by simpa using hq
    have hlt' := hdq.lt
    simp only [Array.getElem_swap, if_neg hqc]
    by_cases hdi : d = i
    · subst hdi
      rw [if_pos rfl, if_neg (show q ≠ d by omega)]
      exact o.grand c q hc hq' hci hdq hn
    · rw [if_neg hdi]
      by_cases hqi : q = i
      · subst hqi
        rw [if_pos rfl]
        by_cases hdc : d = c
        · subst hdc
          rw [if_pos rfl]
          exact hb.asymm
        · rw [if_neg hdc]
          exact firstChild_first h hd' hc hdq
      · rw [if_neg hqi]
        have hdc : d ≠ c := fun e => hqi (hdq.parent_unique (e ▸ hci))
        rw [if_neg hdc]
        exact o.except d q hd' hq' hdq hn hqi
  · intro d q hd hq hdc hcq hn
    have hd' : d < a.size := by simpa using hd
    have hq' : q < a.size := by simpa using hq
    obtain rfl := hci.parent_unique hcq
    have hlt' := hdc.lt
    simp only [Array.getElem_swap, if_neg (show d ≠ i by omega), if_neg (show d ≠ c by omega),
      if_pos trivial]
    exact o.except d c hd' hc hdc (by omega) (by omega)

theorem DownOrder.orderedFrom_siftDown (o : DownOrder n a i) : OrderedFrom n (siftDown a i) := by
  fun_induction siftDown a i with
  | case1 a i h =>
    intro c p hc hp hcp hn
    by_cases hpi : p = i
    · subst hpi
      exact absurd hcp (firstChild_none h hc)
    · exact o.except c p hc hp hcp hn hpi
  | case2 a i c h hc hi hb ih => exact ih (o.swap hi hc.2 h hb)
  | case3 a i c h hc hi hb =>
    intro d p hd hp hdp hn
    by_cases hpi : p = i
    · subst hpi
      exact EventKey.not_before_trans hb (firstChild_first h hd hc.2 hdp)
    · exact o.except d p hd hp hdp hn hpi

theorem OrderedFrom.heapify (o : OrderedFrom n a) : Ordered (heapify a n) := by
  induction n generalizing a with
  | zero => exact fun c p hc hp hcp => o c p hc hp hcp (Nat.zero_le p)
  | succ n ih =>
    refine ih (DownOrder.orderedFrom_siftDown ⟨?_, ?_⟩)
    · intro c p hc hp hcp hn hne
      exact o c p hc hp hcp (by omega)
    · intro c p _ _ _ hip hn
      have := hip.lt
      omega

/-! ### Nothing is lost -/

theorem perm_siftUp (a : Array (Event α)) (i : Nat) : (siftUp a i).toList.Perm a.toList := by
  fun_induction siftUp a i with
  | case1 a i h hp hb ih => exact ih.trans (Array.swap_perm h.2 hp).toList
  | case2 a i h hp hb => exact .refl _
  | case3 a i h => exact .refl _

theorem perm_sink (a : Array (Event α)) (i : Nat) : (sink a i).1.toList.Perm a.toList := by
  fun_induction sink a i with
  | case1 a i h => exact .refl _
  | case2 a i c h hc ih => exact ih.trans (Array.swap_perm (by omega) hc.2).toList

theorem perm_siftDown (a : Array (Event α)) (i : Nat) : (siftDown a i).toList.Perm a.toList := by
  fun_induction siftDown a i with
  | case1 a i h => exact .refl _
  | case2 a i c h hc hi hb ih => exact ih.trans (Array.swap_perm hi hc.2).toList
  | case3 a i c h hc hi hb => exact .refl _

theorem perm_heapify (a : Array (Event α)) (n : Nat) : (heapify a n).toList.Perm a.toList := by
  induction n generalizing a with
  | zero => exact .refl _
  | succ n ih => exact (ih (siftDown a n)).trans (perm_siftDown a n)

theorem perm_ofArray (a : Array (Event α)) : (ofArray a).entries.toList.Perm a.toList :=
  perm_heapify a _

/-- From the middle on there are no parents. -/
theorem ordered_ofArray (a : Array (Event α)) : Ordered (ofArray a).entries := by
  refine OrderedFrom.heapify fun c p hc _ hcp hn => ?_
  unfold IsChild at hcp
  omega

/-! ### The operations -/

theorem ordered_empty : Ordered (empty : BinaryHeap α).entries := by
  intro c p hc
  simp [empty] at hc

theorem perm_insert (h : BinaryHeap α) (e : Event α) :
    (h.insert e).entries.toList.Perm (e :: h.entries.toList) := by
  refine (perm_siftUp _ _).trans ?_
  rw [Array.toList_push]
  exact List.perm_append_singleton e _

theorem Ordered.insert {h : BinaryHeap α} (o : Ordered h.entries) (e : Event α) :
    Ordered (h.insert e).entries := by
  refine UpOrder.ordered_siftUp ⟨⟨?_, ?_⟩, ?_⟩
  · intro c p hc hp hcp hce hpe
    rw [Array.size_push] at hc hp
    rw [Array.getElem_push_lt (by omega), Array.getElem_push_lt (by omega)]
    exact o c p (by omega) (by omega) hcp
  · intro c p hc _ hce _
    have := hce.lt
    rw [Array.size_push] at hc
    omega
  · intro c hc _ hce
    have := hce.lt
    rw [Array.size_push] at hc
    omega

/-- **Nothing comes out before the root.** -/
theorem Ordered.root_first (o : Ordered a) (h0 : 0 < a.size) :
    ∀ x ∈ a.toList, ¬ x.key.Before a[0].key := by
  have root_le : ∀ i (hi : i < a.size), ¬ a[i].key.Before a[0].key := by
    intro i
    induction i using Nat.strongRecOn with
    | ind i ih =>
      intro hi
      rcases Nat.eq_zero_or_pos i with rfl | hpos
      · exact EventKey.before_irrefl _
      · have hp := isChild_parent hpos
        have hlt := hp.lt
        exact EventKey.not_before_trans (ih _ hlt (by omega)) (o i _ hi (by omega) hp)
  intro x hx
  obtain ⟨i, hi, rfl⟩ := List.getElem_of_mem hx
  exact root_le i hi

/-- What a dequeue does to a heap of one event, and to a heap of several. -/
theorem pop_cases {h rest : BinaryHeap α} {e : Event α} (hp : h.pop = some (e, rest)) :
    h.entries = #[e] ∧ rest = ⟨#[]⟩ ∨
      ∃ between last, h.entries = (#[e] ++ between).push last ∧
        rest.entries = siftUp (sink (#[last] ++ between) 0).1 (sink (#[last] ++ between) 0).2 := by
  unfold pop at hp
  split at hp
  · cases hp
  · rename_i last hl
    obtain ⟨ys, hys⟩ := Array.back?_eq_some_iff.1 hl
    simp only [hys, Array.pop_push] at hp
    split at hp
    · rename_i hr
      cases hp
      obtain rfl : ys = #[] := by simpa using hr
      exact .inl ⟨by simpa using hys, rfl⟩
    · rename_i root hr
      cases hp
      obtain ⟨between, rfl⟩ : ∃ between, ys = #[e] ++ between := by
        obtain ⟨l⟩ := ys
        cases l with
        | nil => simp at hr
        | cons x l => exact ⟨l.toArray, by simpa using hr⟩
      refine .inr ⟨between, last, hys, ?_⟩
      have hset : (#[e] ++ between).setIfInBounds 0 last = #[last] ++ between := by
        apply Array.ext'
        simp
      rw [hset]

theorem pop_eq_none {h : BinaryHeap α} : h.pop = none ↔ h.entries.toList = [] := by
  unfold pop
  split
  · rename_i hb
    simpa using hb
  · rename_i last hb
    have hne : h.entries ≠ #[] := by
      intro he
      simp [he] at hb
    dsimp only
    split <;> simp [hne]

theorem perm_pop {h rest : BinaryHeap α} {e : Event α} (hp : h.pop = some (e, rest)) :
    h.entries.toList.Perm (e :: rest.entries.toList) := by
  rcases pop_cases hp with ⟨h1, rfl⟩ | ⟨between, last, h1, h2⟩
  · rw [h1]
  · have hs : rest.entries.toList.Perm (#[last] ++ between).toList := by
      rw [h2]
      exact (perm_siftUp _ _).trans (perm_sink _ _)
    rw [h1]
    refine List.Perm.trans ?_ (hs.symm.cons e)
    simp only [Array.toList_push, Array.toList_append, List.cons_append, List.nil_append]
    exact (List.perm_append_singleton last _).cons e

theorem Ordered.pop {h rest : BinaryHeap α} {e : Event α} (o : Ordered h.entries)
    (hp : h.pop = some (e, rest)) : Ordered rest.entries := by
  rcases pop_cases hp with ⟨_, rfl⟩ | ⟨between, last, h1, h2⟩
  · exact ordered_empty
  · rw [h2]
    refine (SinkOrder.upOrder_sink ⟨?_, ?_⟩).ordered_siftUp
    · intro c p hc hp hcp hc0 hp0
      simp only [Array.size_append, List.size_toArray, List.length_singleton] at hc hp
      have hc' : c < h.entries.size := by simp [h1]; omega
      have hp' : p < h.entries.size := by simp [h1]; omega
      have := o c p hc' hp' hcp
      simp only [h1] at this
      rw [Array.getElem_push_lt (by simp; omega), Array.getElem_push_lt (by simp; omega)] at this
      rwa [Array.getElem_append_right (by simp; omega), Array.getElem_append_right (by simp; omega)]
        at this ⊢
    · intro c p _ _ _ h0p
      have := h0p.lt
      omega

theorem Ordered.pop_first {h rest : BinaryHeap α} {e : Event α} (o : Ordered h.entries)
    (hp : h.pop = some (e, rest)) : ∀ x ∈ h.entries.toList, ¬ x.key.Before e.key := by
  rcases pop_cases hp with ⟨h1, _⟩ | ⟨between, last, h1, _⟩
  · have := o.root_first (by simp [h1])
    simpa [h1] using this
  · have := o.root_first (by simp only [h1, Array.size_push]; omega)
    simpa [h1, Array.getElem_push_lt, Array.getElem_append_left] using this

theorem ordered_remove (h : BinaryHeap α) (key : EventKey) :
    Ordered (h.remove key).2.entries := by
  unfold remove
  split <;> exact ordered_ofArray _

theorem remove_none {h : BinaryHeap α} {key : EventKey} (hr : (h.remove key).1 = none) :
    (∀ x ∈ h.entries.toList, ¬ x.key.Same key) ∧
      (h.remove key).2.entries.toList.Perm h.entries.toList := by
  unfold remove at hr ⊢
  split
  · rename_i hf
    refine ⟨?_, perm_ofArray _⟩
    simpa using hf
  · rename_i i hf
    obtain ⟨hi, -⟩ := Array.findIdx?_eq_some_iff_getElem.1 hf
    simp [hf, Array.getElem?_eq_getElem hi] at hr

theorem remove_some {h : BinaryHeap α} {key : EventKey} {e : Event α}
    (hr : (h.remove key).1 = some e) :
    e.key.Same key ∧ h.entries.toList.Perm (e :: (h.remove key).2.entries.toList) := by
  unfold remove at hr ⊢
  split
  · rename_i hf
    simp [hf] at hr
  · rename_i i hf
    obtain ⟨hi, hs, -⟩ := Array.findIdx?_eq_some_iff_getElem.1 hf
    simp only [hf, Array.getElem?_eq_getElem hi, Option.some.injEq] at hr
    subst hr
    refine ⟨by simpa using hs, ?_⟩
    have hl : h.entries.size - 1 < h.entries.size := by omega
    refine List.Perm.trans ?_ ((perm_ofArray _).symm.cons _)
    have hswap := Array.swap_perm hi hl
    rw [Array.swapIfInBounds_def, dif_pos hi, dif_pos hl]
    have hlast : (h.entries.swap i (h.entries.size - 1) hi hl).back? = some h.entries[i] := by
      simp [Array.back?_eq_getElem?, Array.getElem?_swap]
    obtain ⟨ys, hys⟩ := Array.back?_eq_some_iff.1 hlast
    rw [hys] at hswap ⊢
    refine hswap.toList.symm.trans ?_
    rw [Array.pop_push, Array.toList_push]
    exact List.perm_append_singleton _ _

end EventSim.BinaryHeap
