import EventSim.Proofs.Number.Rounding
import EventSim.Stamp
import Mathlib.Data.Nat.Digits.Defs

/-!
# Stamps of times

The stamp of a time is meant to show its nanoseconds, `clockText` of the ticks.  But a time is
rounded twice on its way into seconds, so what its stamp shows is another number of nanoseconds,
`Time.shown`.

* `Time.shown_eq`: up to `2 ^ 23` seconds, some 97 days, **the stamp shows the time itself**.  A
  nanosecond later it does not, and two nanoseconds later two times share a stamp.
* `Time.shown_le`: stamps never go back.
* `Time.abs_shown_sub_le`: the stamp is off by one nanosecond and the `2 ^ 52`th part of the time at
  most.
* `World.time_stamps` puts this together for what the printer of the time writes.
-/

namespace EventSim

/-! ### Texts -/

/-- The text of a number of nanoseconds: a plus sign, the whole seconds, a point, nine digits and
the unit. -/
def clockText (n : Nat) : String :=
  String.ofList
    ('+' :: (Nat.toDigits 10 (n / 1000000000) ++ '.' :: paddedDigits 9 (n % 1000000000)) ++ ['s'])

theorem length_paddedDigits {width n : Nat} (hw : 0 < width) (hn : n < 10 ^ width) :
    (paddedDigits width n).length = width := by
  have hle := (Nat.length_toDigits_le_iff (b := 10) (by decide) hw).2 hn
  unfold paddedDigits
  rw [List.length_append, List.length_replicate]
  omega

/-- Zeros in front leave the number as it is. -/
theorem ofDigitChars_paddedDigits (width n : Nat) :
    Nat.ofDigitChars 10 (paddedDigits width n) 0 = n := by
  unfold paddedDigits
  rw [Nat.ofDigitChars_append, Nat.ofDigitChars_replicate_zero, Nat.mul_zero,
    Nat.ofDigitChars_ten_toDigits]

/-- **Different numbers of nanoseconds have different texts.** -/
theorem clockText_inj {m n : Nat} : clockText m = clockText n ↔ m = n := by
  refine ⟨fun h => ?_, congrArg clockText⟩
  have hlength (k : Nat) : (paddedDigits 9 (k % 1000000000)).length = 9 :=
    length_paddedDigits (by decide) (Nat.mod_lt _ (by decide))
  have hlist := List.append_cancel_right (String.ofList_injective h)
  obtain ⟨hwhole, hpart⟩ := List.append_inj' (List.cons.inj hlist).2
    (by rw [List.length_cons, List.length_cons, hlength, hlength])
  have hdiv := congrArg (Nat.ofDigitChars 10 · 0) hwhole
  have hmod := congrArg (Nat.ofDigitChars 10 · 0) (List.cons.inj hpart).2
  simp only [Nat.ofDigitChars_ten_toDigits] at hdiv
  simp only [ofDigitChars_paddedDigits] at hmod
  rw [← Nat.div_add_mod m 1000000000, ← Nat.div_add_mod n 1000000000, hdiv, hmod]

/-! ### Seconds -/

namespace Binary64

/-- Without a sign, the text has the whole part and the places of the nearest multiple of a unit. -/
theorem fixedText_eq {x : Binary64} (hx : x.negative = false) {places unit : Nat}
    (hu : Nat.pow 10 places = unit) :
    x.fixedText places =
      Nat.toDigits 10 (divNearest (x.ratio.1 * unit) x.ratio.2 / unit) ++
        '.' :: paddedDigits places (divNearest (x.ratio.1 * unit) x.ratio.2 % unit) := by
  subst hu
  rw [fixedText, hx]
  rfl

theorem negative_ofRatio (negative : Bool) (num den : Nat) :
    (ofRatio negative num den).negative = negative := by
  unfold ofRatio
  dsimp only
  split_ifs <;> rfl

theorem roundsTo_ofInt {n : Int} (h : 0 < n) : RoundsTo n (ofInt n) := by
  have hr := roundsTo_ofRatio (decide (n < 0)) (Int.natAbs_pos.2 h.ne') Nat.one_pos
  have hcast : ((n.natAbs : Nat) : ℚ) / (1 : Nat) = n := by
    rw [Nat.cast_one, div_one, ← Int.cast_natCast, Int.natCast_natAbs, abs_of_pos h]
  rwa [hcast] at hr

theorem one_le_magnitude_ofInt {n : Int} (h : 0 < n) : 1 ≤ (ofInt n).magnitude := by
  have hone : (1 : ℚ) ≤ n := by exact_mod_cast h
  have hle := (roundsTo_ofInt Int.one_pos).le (roundsTo_ofInt h) (by exact_mod_cast hone)
  refine le_trans (le_of_eq ?_) hle
  have hkept : RoundsTo ((1 : Nat) : ℚ) (ofInt 1) := by
    exact_mod_cast roundsTo_ofInt Int.one_pos
  rw [hkept.eq_natCast (by decide), Nat.cast_one]

theorem roundsTo_div {x y : Binary64} (hx : 0 < x.magnitude) (hy : 0 < y.magnitude) :
    RoundsTo (x.magnitude / y.magnitude) (x.div y) := by
  have hnum {z : Binary64} (hz : 0 < z.magnitude) : 0 < z.ratio.1 := by
    rw [← ratio_eq] at hz
    refine Nat.pos_of_ne_zero fun h => ?_
    rw [h, Nat.cast_zero, zero_div] at hz
    exact lt_irrefl _ hz
  have hr := roundsTo_ofRatio (x.negative != y.negative)
    (Nat.mul_pos (hnum hx) y.ratio_pos) (Nat.mul_pos x.ratio_pos (hnum hy))
  rw [← ratio_eq, ← ratio_eq, div_div_div_eq]
  push_cast at hr
  exact hr

end Binary64

namespace Time

open Binary64 (RoundsTo)

variable {t t' : Time}

/-- The number of nanoseconds that the stamp of a time shows. -/
def shown (t : Time) : Nat :=
  divNearest (t.seconds.ratio.1 * 1000000000) t.seconds.ratio.2

theorem negative_seconds (h : 0 ≤ t.ticks) : t.seconds.negative = false := by
  have hneg (n : Int) (hn : 0 ≤ n) : (Binary64.ofInt n).negative = false := by
    rw [Binary64.ofInt, Binary64.negative_ofRatio]
    exact decide_eq_false (by omega)
  rw [seconds, Binary64.div, Binary64.negative_ofRatio, hneg _ h, hneg _ (by decide)]
  rfl

/-- A stamp shows a number of nanoseconds. -/
theorem stamp_eq (h : 0 ≤ t.ticks) : t.stamp = clockText t.shown := by
  have hunit : Nat.pow 10 9 = 1000000000 := by decide
  rw [stamp, Binary64.fixedText_eq (negative_seconds h) hunit, clockText, shown]

/-- It is the nearest one to the seconds. -/
theorem nearest_shown (t : Time) : Nearest (t.seconds.magnitude * 10 ^ 9) t.shown := by
  have hn := nearest_divNearest (t.seconds.ratio.1 * 1000000000) t.seconds.ratio_pos
  have hbillion : ((1000000000 : Nat) : ℚ) = 10 ^ 9 := by norm_num
  rwa [Nat.cast_mul, mul_div_right_comm, Binary64.ratio_eq, hbillion] at hn

theorem magnitude_billion : (Binary64.ofInt 1000000000).magnitude = 10 ^ 9 := by
  have hr : RoundsTo ((1000000000 : Nat) : ℚ) (Binary64.ofInt 1000000000) := by
    exact_mod_cast Binary64.roundsTo_ofInt (by decide : (0 : Int) < 1000000000)
  rw [hr.eq_natCast (by decide)]
  norm_num

/-- The two roundings on the way into seconds. -/
theorem roundsTo_seconds (h : 0 < t.ticks) :
    RoundsTo t.ticks (Binary64.ofInt t.ticks) ∧
      RoundsTo ((Binary64.ofInt t.ticks).magnitude / 10 ^ 9) t.seconds := by
  refine ⟨Binary64.roundsTo_ofInt h, ?_⟩
  have hpos := lt_of_lt_of_le one_pos (Binary64.one_le_magnitude_ofInt h)
  rw [← magnitude_billion]
  refine Binary64.roundsTo_div hpos ?_
  rw [magnitude_billion]
  norm_num

theorem shown_of_ticks_eq_zero (h : t.ticks = 0) : t.shown = 0 := by
  obtain rfl : t = .zero := ext h
  decide +kernel

/-- **A later time never shows less.** -/
theorem shown_le (h : 0 ≤ t.ticks) (hle : t ≤ t') : t.shown ≤ t'.shown := by
  rcases h.eq_or_lt with hzero | hpos
  · rw [shown_of_ticks_eq_zero hzero.symm]
    exact Nat.zero_le _
  · obtain ⟨hr, hs⟩ := roundsTo_seconds hpos
    obtain ⟨hr', hs'⟩ := roundsTo_seconds (t := t') (lt_of_lt_of_le hpos hle)
    have hticks : (t.ticks : ℚ) ≤ t'.ticks := by exact_mod_cast hle
    have hwhole := hr.le hr' hticks
    have hseconds := hs.le hs' (div_le_div_of_nonneg_right hwhole (by norm_num))
    exact t.nearest_shown.le t'.nearest_shown (mul_le_mul_of_nonneg_right hseconds (by norm_num))

/-- The greatest time up to which all stamps are exact: `2 ^ 23` seconds. -/
def exactUntil : Int := 2 ^ 23 * 10 ^ 9

/-- **Up to `exactUntil` the stamp shows the time itself.** -/
theorem shown_eq (h : 0 ≤ t.ticks) (hle : t.ticks ≤ exactUntil) : t.shown = t.ticks.toNat := by
  rcases h.eq_or_lt with hzero | hpos
  · rw [shown_of_ticks_eq_zero hzero.symm, ← hzero]
    rfl
  obtain ⟨n, hn⟩ := Int.eq_ofNat_of_zero_le h
  have hcast : (t.ticks : ℚ) = n := by rw [hn, Int.cast_natCast]
  rw [hn, exactUntil] at hle
  have hle : n ≤ 2 ^ 23 * 10 ^ 9 := by exact_mod_cast hle
  obtain ⟨hr, hs⟩ := roundsTo_seconds hpos
  rw [hcast] at hr
  rw [hr.eq_natCast (by omega)] at hs
  rw [hn, Int.toNat_natCast]
  refine t.nearest_shown.eq ?_
  rcases hle.eq_or_lt with hlast | hlt
  · -- the last one is a whole number of seconds
    have hwhole : (n : ℚ) / 10 ^ 9 = ((2 ^ 23 : Nat) : ℚ) := by
      rw [hlast]
      norm_num
    rw [hwhole] at hs
    have hexact : t.seconds.magnitude * 10 ^ 9 = n := by
      rw [hs.eq_natCast (by norm_num), hlast]
      norm_num
    rw [hexact]
    exact nearest_natCast n
  · have hbelow : (n : ℚ) / 10 ^ 9 < 2 ^ (23 : Int) := by
      have : (n : ℚ) < 2 ^ 23 * 10 ^ 9 := by exact_mod_cast hlt
      rw [div_lt_iff₀ (by norm_num)]
      exact_mod_cast this
    have herr := abs_le.1 (hs.abs_sub_le_of_lt hbelow (by decide))
    have hsmall : (2 : ℚ) ^ ((23 : Int) - 54) * 10 ^ 9 < 1 / 2 := by norm_num
    have hback : (n : ℚ) / 10 ^ 9 * 10 ^ 9 = n := by norm_num
    left
    rw [abs_lt]
    constructor <;> linarith

/-- **The stamp is off by one nanosecond and the `2 ^ 52`th part of the time at most.** -/
theorem abs_shown_sub_le (h : 0 ≤ t.ticks) :
    2 ^ 52 * |(t.shown : Int) - t.ticks| ≤ t.ticks + 2 ^ 52 := by
  rcases h.eq_or_lt with hzero | hpos
  · rw [shown_of_ticks_eq_zero hzero.symm, ← hzero]
    decide
  obtain ⟨hr, hs⟩ := roundsTo_seconds hpos
  have hone : (1 : ℚ) ≤ t.ticks := by exact_mod_cast hpos
  have hmost : (t.ticks : ℚ) ≤ 2 ^ 63 := by
    have hle : t.ticks ≤ 2 ^ 63 := t.le_max.trans (by norm_num)
    exact_mod_cast hle
  have hu := Binary64.one_le_magnitude_ofInt hpos
  have htiny : (2 : ℚ) ^ (-1022 : Int) ≤ 2 ^ (-31 : Int) :=
    zpow_le_zpow_right₀ (by norm_num) (by norm_num)
  have hbillionth : (2 : ℚ) ^ (-31 : Int) ≤ 1 / 10 ^ 9 := by norm_num
  have hwhole : (1 : ℚ) / 10 ^ 9 ≤ 1 := by norm_num
  have hpart : (1 : ℚ) / 10 ^ 9 ≤ (Binary64.ofInt t.ticks).magnitude / 10 ^ 9 :=
    div_le_div_of_nonneg_right hu (by norm_num)
  have herr := abs_le.1 (hr.abs_sub_le (htiny.trans (hbillionth.trans (hwhole.trans hone))))
  have herr' := abs_le.1 (hs.abs_sub_le (htiny.trans (hbillionth.trans hpart)))
  have hnear := abs_le.1 t.nearest_shown.abs_sub_le
  have hgoal : 2 ^ 52 * |(t.shown : ℚ) - t.ticks| ≤ t.ticks + 2 ^ 52 := by
    have habs : |(t.shown : ℚ) - t.ticks| ≤ (t.ticks + 2 ^ 52) / 2 ^ 52 := by
      rw [abs_le]
      constructor <;> linarith
    rw [le_div_iff₀ (by norm_num)] at habs
    linarith
  exact_mod_cast hgoal

/-- A nanosecond after `exactUntil` the stamp shows the next one, and so it does of the next one
itself. -/
theorem shown_after_exactUntil :
    (clamp (exactUntil + 1)).shown = (exactUntil + 2).toNat ∧
      (clamp (exactUntil + 2)).shown = (exactUntil + 2).toNat := by
  decide +kernel

end Time

/-! ### The printer of the time -/

namespace World

variable {w w' : World} {t t' : Time}

/-- A kernel is installed, and `t` is its present. -/
def Reports (w : World) (t : Time) : Prop :=
  ∃ id e, w.slot = some id ∧ w.engine? id = some e ∧ e.now = t

/-- The printer of the time writes the stamp of the present. -/
theorem Reports.print_time (h : w.Reports t) :
    w.print (.print .time) = (.ok (.text t.stamp), w) := by
  obtain ⟨id, e, hs, he, rfl⟩ := h
  simp only [print, printPart, nowOf, reach, resolve, hs, he, Option.map_some, Option.getD_some]

/-- The world in which a kernel is installed whose clock stands still at `t`. -/
def atTime (t : Time) : World :=
  { pristine none with engines := [.fixed ⟨0, 0, t, 7⟩], slot := some 0, printers := .standard }

theorem reports_atTime (t : Time) : (atTime t).Reports t := ⟨0, _, rfl, rfl, rfl⟩

/-- The printer of the time writes the nanoseconds of the present. -/
def StampsExactly (w : World) (t : Time) : Prop :=
  w.print (.print .time) = (.ok (.text (clockText t.ticks.toNat)), w)

theorem Reports.print_shown (h : w.Reports t) (h0 : 0 ≤ t.ticks) :
    w.print (.print .time) = (.ok (.text (clockText t.shown)), w) := by
  rw [h.print_time, Time.stamp_eq h0]

theorem Reports.stampsExactly_iff (h : w.Reports t) (h0 : 0 ≤ t.ticks) :
    w.StampsExactly t ↔ t.shown = t.ticks.toNat := by
  rw [StampsExactly, h.print_shown h0, ← clockText_inj]
  simp only [Prod.mk.injEq, Except.ok.injEq, Reply.text.injEq, and_true]

/-- Two presents have the same stamp exactly if it shows the same for them. -/
theorem Reports.print_eq_iff (h : w.Reports t) (h' : w'.Reports t') (h0 : 0 ≤ t.ticks)
    (h0' : 0 ≤ t'.ticks) :
    (w.print (.print .time)).1 = (w'.print (.print .time)).1 ↔ t.shown = t'.shown := by
  rw [h.print_shown h0, h'.print_shown h0', ← clockText_inj]
  simp only [Except.ok.injEq, Reply.text.injEq]

/-- **How exact the stamps of times are.**  Up to a bound `b`, the printer of the time writes every
present exactly if and only if `b` is at most `2 ^ 23` seconds, and it tells all presents apart if
and only if `b` is at most one nanosecond more.  Beyond that:

* The printer still writes a number of nanoseconds, with nine digits after the point, and changes
  nothing.
* It writes the present itself exactly if no other number of nanoseconds is nearer to the seconds,
  or as near and even.
* It is off by one nanosecond and the `2 ^ 52`th part of the present at most.
* What it writes of a later present is never less. -/
theorem time_stamps (b : Int) :
    ((∀ w t, Reports w t → 0 ≤ t.ticks → t.ticks ≤ b → w.StampsExactly t) ↔
      b ≤ Time.exactUntil) ∧
    ((∀ w w' t t', Reports w t → Reports w' t' → 0 ≤ t.ticks → t.ticks ≤ b → 0 ≤ t'.ticks →
        t'.ticks ≤ b → (w.print (.print .time)).1 = (w'.print (.print .time)).1 → t = t') ↔
      b ≤ Time.exactUntil + 1) ∧
    ∀ w t, Reports w t → 0 ≤ t.ticks →
      w.print (.print .time) = (.ok (.text (clockText t.shown)), w) ∧
      (w.StampsExactly t ↔ Nearest (t.seconds.magnitude * 10 ^ 9) t.ticks.toNat) ∧
      2 ^ 52 * |(t.shown : Int) - t.ticks| ≤ t.ticks + 2 ^ 52 ∧
      ∀ t', t ≤ t' → t.shown ≤ t'.shown := by
  obtain ⟨hone, htwo⟩ := Time.shown_after_exactUntil
  have hlast : (Time.clamp (Time.exactUntil + 1)).ticks = Time.exactUntil + 1 := by decide
  have hnext : (Time.clamp (Time.exactUntil + 2)).ticks = Time.exactUntil + 2 := by decide
  have hpos : 0 ≤ Time.exactUntil := by decide
  refine ⟨⟨fun h => ?_, fun hb w t hw h0 hle => ?_⟩, ⟨fun h => ?_, fun hb => ?_⟩, ?_⟩
  · by_contra hlt
    have hw := reports_atTime (.clamp (Time.exactUntil + 1))
    have hexact := (hw.stampsExactly_iff (by omega)).1 (h _ _ hw (by omega) (by omega))
    rw [hone, hlast] at hexact
    omega
  · exact (hw.stampsExactly_iff h0).2 (Time.shown_eq h0 (hle.trans hb))
  · by_contra hlt
    have hw := reports_atTime (.clamp (Time.exactUntil + 1))
    have hw' := reports_atTime (.clamp (Time.exactUntil + 2))
    have hsame := (hw.print_eq_iff hw' (by omega) (by omega)).2 (hone.trans htwo.symm)
    have heq := h _ _ _ _ hw hw' (by omega) (by omega) (by omega) (by omega) hsame
    have hticks := congrArg Time.ticks heq
    omega
  · intro w w' t t' hw hw' h0 hle h0' hle' hsame
    have hshown := (hw.print_eq_iff hw' h0 h0').1 hsame
    -- up to the last time all is exact, and the last time shows more than any of them
    have hexact {t : Time} (h0 : 0 ≤ t.ticks) (hle : t.ticks ≤ b) :
        (t.shown : Int) = t.ticks ∨
          t = .clamp (Time.exactUntil + 1) ∧ t.shown = (Time.exactUntil + 2).toNat := by
      by_cases hlt : t.ticks ≤ Time.exactUntil
      · left
        rw [Time.shown_eq h0 hlt, Int.toNat_of_nonneg h0]
      · right
        obtain rfl : t = .clamp (Time.exactUntil + 1) := Time.ext (by omega)
        exact ⟨rfl, hone⟩
    rcases hexact h0 hle with h | ⟨rfl, h⟩
    · rcases hexact h0' hle' with h' | ⟨rfl, h'⟩
      · exact Time.ext (by omega)
      · omega
    · rcases hexact h0' hle' with h' | ⟨rfl, h'⟩
      · omega
      · rfl
  · intro w t hw h0
    refine ⟨hw.print_shown h0, ?_, Time.abs_shown_sub_le h0, fun t' hle => Time.shown_le h0 hle⟩
    rw [hw.stampsExactly_iff h0]
    exact ⟨fun h => h ▸ t.nearest_shown, fun h => t.nearest_shown.eq h⟩

/-- A nanosecond after `2 ^ 23` seconds the stamp is wrong, and the next nanosecond has the same. -/
theorem time_stamps_shared :
    let w := atTime (.clamp 8388608000000001)
    let w' := atTime (.clamp 8388608000000002)
    w.print (.print .time) = (.ok (.text "+8388608.000000002s"), w) ∧
      w'.print (.print .time) = (.ok (.text "+8388608.000000002s"), w') := by
  obtain ⟨-, -, h⟩ := time_stamps 0
  obtain ⟨hone, htwo⟩ := Time.shown_after_exactUntil
  have htext : clockText (Time.exactUntil + 2).toNat = "+8388608.000000002s" := by decide +kernel
  have hlast := (h _ _ (reports_atTime (.clamp (Time.exactUntil + 1))) (by decide)).1
  have hnext := (h _ _ (reports_atTime (.clamp (Time.exactUntil + 2))) (by decide)).1
  rw [hone, htext] at hlast
  rw [htwo, htext] at hnext
  exact ⟨hlast, hnext⟩

end World

end EventSim
