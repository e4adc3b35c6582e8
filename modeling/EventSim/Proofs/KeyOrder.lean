import EventSim.Key

/-!
# The order of event keys

`Before` is a strict order on the pairs of time and number, so "not before" is a total preorder and
two keys of which neither is before the other are the `Same`.  The context takes no part in any of
this.  `before_iff` and `same_iff` reduce both relations to the ticks and the numbers; everything
else follows from them by arithmetic.
-/

namespace EventSim

namespace Time

theorem ticks_inj {a b : Time} : a.ticks = b.ticks ↔ a = b := ⟨ext, fun h => h ▸ rfl⟩

theorem le_refl (a : Time) : a ≤ a := Int.le_refl a.ticks

theorem le_trans {a b c : Time} (h : a ≤ b) (g : b ≤ c) : a ≤ c := by
  rw [le_def] at *
  omega

theorem not_lt {a b : Time} : ¬ a < b ↔ b ≤ a := by
  rw [lt_def, le_def]
  omega

end Time

namespace EventKey

variable {a b c : EventKey}

theorem before_iff : a.Before b ↔
    a.time.ticks < b.time.ticks ∨ a.time.ticks = b.time.ticks ∧ a.uid < b.uid := by
  rw [Before, Time.lt_def, Time.ticks_inj]

theorem same_iff : a.Same b ↔ a.time.ticks = b.time.ticks ∧ a.uid = b.uid := by
  rw [Same, Time.ticks_inj]

/-! ### Before -/

theorem before_irrefl (a : EventKey) : ¬ a.Before a := by
  rw [before_iff]
  omega

theorem Before.asymm (h : a.Before b) : ¬ b.Before a := by
  rw [before_iff] at *
  omega

theorem Before.trans (h : a.Before b) (g : b.Before c) : a.Before c := by
  rw [before_iff] at *
  omega

/-- "Not after" is transitive. -/
theorem not_before_trans (h : ¬ b.Before a) (g : ¬ c.Before b) : ¬ c.Before a := by
  rw [before_iff] at *
  omega

theorem Before.trans_not_before (h : a.Before b) (g : ¬ c.Before b) : a.Before c := by
  rw [before_iff] at *
  omega

theorem before_or_same_or_before (a b : EventKey) : a.Before b ∨ a.Same b ∨ b.Before a := by
  rw [before_iff, before_iff, same_iff]
  omega

/-- A key that comes out no later than another is due no later. -/
theorem time_le_of_not_before (h : ¬ b.Before a) : a.time ≤ b.time := by
  rw [before_iff] at h
  rw [Time.le_def]
  omega

/-! ### Same -/

theorem Same.symm (h : a.Same b) : b.Same a := ⟨h.1.symm, h.2.symm⟩

theorem Same.trans (h : a.Same b) (g : b.Same c) : a.Same c := ⟨h.1.trans g.1, h.2.trans g.2⟩

theorem Same.before_left (h : a.Same b) : a.Before c ↔ b.Before c := by
  rw [before_iff, before_iff]
  rw [same_iff] at h
  omega

theorem Same.before_right (h : a.Same b) : c.Before a ↔ c.Before b := by
  rw [before_iff, before_iff]
  rw [same_iff] at h
  omega

theorem before_of_not_before_of_not_same (h : ¬ b.Before a) (g : ¬ a.Same b) : a.Before b := by
  rcases before_or_same_or_before a b with k | k | k
  · exact k
  · exact absurd k g
  · exact absurd k h

end EventKey

end EventSim
