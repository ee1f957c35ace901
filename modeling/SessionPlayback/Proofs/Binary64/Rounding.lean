import Mathlib.Data.Nat.Log
import Mathlib.Data.Rat.Cast.Order
import Mathlib.Tactic.Linarith
import Mathlib.Tactic.NormNum
import Mathlib.Tactic.Positivity
import Mathlib.Tactic.Ring
import SessionPlayback.Binary64

/-!
How far rounding can go up. A result is at most a little above the exact one: by half of the last of
53 bits, or by half a unit among the smallest numbers. From this follow bounds for products,
quotients and sums, and that numbers of a moderate size stay finite.
-/

namespace SessionPlayback.Binary64

theorem leadingBit_pos : 0 < leadingBit := by decide

theorem units_of_lt {magnitude : Nat} (h : magnitude < leadingBit) :
    units magnitude = magnitude := by
  simp [units, h]

/-- A normal number from its exponent and the bits behind the leading one. -/
theorem units_normal {bits : Nat} (exponent : Nat) (h : bits < leadingBit) :
    units (bits + (exponent + 1) * leadingBit) = (leadingBit + bits) * 2 ^ exponent := by
  have hnot : ¬bits + (exponent + 1) * leadingBit < leadingBit := by
    rw [Nat.add_mul]
    omega
  rw [units, if_neg hnot, Nat.add_mul_div_right _ _ leadingBit_pos, Nat.add_mul_mod_self_right,
    Nat.div_eq_of_lt h, Nat.mod_eq_of_lt h, Nat.shiftLeft_eq]
  congr 2
  omega

/-- With up to 53 bits at the place that `shift` tells, or just carried out of them. -/
theorem units_shifted {shift bits : Nat} (hle : bits ≤ 2 * leadingBit)
    (hnormal : shift = 0 ∨ leadingBit ≤ bits) :
    units (shift * leadingBit + bits) = bits * 2 ^ shift := by
  by_cases hlow : bits < leadingBit
  · have hshift : shift = 0 := hnormal.resolve_right (Nat.not_le_of_lt hlow)
    subst hshift
    simp [units_of_lt hlow]
  · rcases Nat.lt_or_eq_of_le hle with hlt | rfl
    · have hsplit : shift * leadingBit + bits =
          (bits - leadingBit) + (shift + 1) * leadingBit := by
        rw [Nat.add_mul]
        omega
      have hbits : leadingBit + (bits - leadingBit) = bits := by omega
      rw [hsplit, units_normal shift (by omega), hbits]
    · have hsplit : shift * leadingBit + 2 * leadingBit = 0 + (shift + 1 + 1) * leadingBit := by
        ring
      rw [hsplit, units_normal (shift + 1) leadingBit_pos]
      ring

theorem units_le_succ (magnitude : Nat) : units magnitude ≤ units (magnitude + 1) := by
  by_cases hlow : magnitude < leadingBit
  · rw [units_of_lt hlow]
    by_cases hnext : magnitude + 1 < leadingBit
    · rw [units_of_lt hnext]
      omega
    · have hsplit : magnitude + 1 = 0 + (0 + 1) * leadingBit := by omega
      rw [hsplit, units_normal 0 leadingBit_pos]
      omega
  · obtain ⟨bits, exponent, hbits, hsplit⟩ : ∃ bits exponent, bits < leadingBit ∧
        magnitude = bits + (exponent + 1) * leadingBit := by
      refine ⟨magnitude % leadingBit, magnitude / leadingBit - 1,
        Nat.mod_lt _ leadingBit_pos, ?_⟩
      have hquotient : 0 < magnitude / leadingBit :=
        Nat.div_pos (Nat.le_of_not_lt hlow) leadingBit_pos
      rw [Nat.sub_add_cancel hquotient, Nat.mul_comm]
      exact (Nat.mod_add_div magnitude leadingBit).symm
    rw [hsplit, units_normal exponent hbits]
    by_cases hnext : bits + 1 < leadingBit
    · have hsucc : bits + (exponent + 1) * leadingBit + 1 =
          (bits + 1) + (exponent + 1) * leadingBit := by omega
      rw [hsucc, units_normal exponent hnext]
      exact Nat.mul_le_mul_right _ (by omega)
    · have hsucc : bits + (exponent + 1) * leadingBit + 1 =
          0 + (exponent + 1 + 1) * leadingBit := by
        rw [Nat.add_mul (exponent + 1) 1]
        omega
      rw [hsucc, units_normal (exponent + 1) leadingBit_pos, Nat.pow_succ, Nat.mul_comm _ 2,
        ← Nat.mul_assoc]
      exact Nat.mul_le_mul_right _ (by omega)

theorem units_mono {a b : Nat} (h : a ≤ b) : units a ≤ units b :=
  monotone_nat_of_le_succ units_le_succ h

theorem units_pos {magnitude : Nat} (h : magnitude ≠ 0) : 0 < units magnitude :=
  Nat.lt_of_lt_of_le (by decide) (units_mono (Nat.one_le_iff_ne_zero.mpr h))

theorem le_divNearestEven (num den : Nat) : num / den ≤ divNearestEven num den := by
  unfold divNearestEven
  dsimp only
  split_ifs <;> omega

theorem divNearestEven_le_succ (num den : Nat) : divNearestEven num den ≤ num / den + 1 := by
  unfold divNearestEven
  dsimp only
  split_ifs <;> omega

/-- The nearest natural is half a unit above the quotient at most. -/
theorem mul_divNearestEven_le (num den : Nat) :
    2 * (den * divNearestEven num den) ≤ 2 * num + den := by
  have hdiv := Nat.div_add_mod num den
  unfold divNearestEven
  dsimp only
  split_ifs with hup htie
  · rw [Nat.mul_add]
    omega
  · have hodd : num / den % 2 ≤ 1 := by omega
    have hle := Nat.mul_le_mul_left den hodd
    rw [Nat.mul_add]
    omega
  · omega

/-- A rounded number is half of its last bit above the exact one at most. -/
theorem units_nearestMagnitude_le {num den : Nat} (hden : 0 < den) :
    2 ^ 53 * (den * units (nearestMagnitude num den)) ≤
      (2 ^ 53 + 1) * num + 2 ^ 52 * den := by
  have hleading : leadingBit = 2 ^ 52 := rfl
  unfold nearestMagnitude
  dsimp only
  by_cases hsmall : num / den < 2 ^ 53
  · -- The quotient itself has no more than 53 bits.
    have hshift : (num / den).log2 - 52 = 0 := by
      by_cases hzero : num / den = 0
      · simp [hzero]
      · have := (Nat.log2_lt hzero).mpr hsmall
        omega
    have hround := mul_divNearestEven_le num den
    have hhigh := divNearestEven_le_succ num den
    rw [hshift, Nat.shiftLeft_zero, units_shifted (by omega) (.inl rfl), pow_zero, Nat.mul_one]
    omega
  · generalize hshift : (num / den).log2 - 52 = shift
    have hzero : num / den ≠ 0 := by omega
    have hlog : (num / den).log2 = shift + 52 := by
      have := (Nat.le_log2 hzero).mpr (Nat.le_of_not_lt hsmall)
      omega
    have hge : 2 ^ (shift + 52) ≤ num / den := (Nat.le_log2 hzero).mp (by omega)
    have hlt : num / den < 2 ^ (shift + 53) := (Nat.log2_lt hzero).mp (by omega)
    have hmin : leadingBit ≤ num / den / 2 ^ shift := by
      rw [hleading, Nat.le_div_iff_mul_le (by positivity), ← Nat.pow_add, Nat.add_comm]
      exact hge
    have hmax : num / den / 2 ^ shift < 2 * leadingBit := by
      rw [Nat.div_lt_iff_lt_mul (by positivity), hleading]
      calc num / den < 2 ^ (shift + 53) := hlt
        _ = 2 * 2 ^ 52 * 2 ^ shift := by ring
    have hdiv : num / (den * 2 ^ shift) = num / den / 2 ^ shift :=
      (Nat.div_div_eq_div_mul ..).symm
    have hround := mul_divNearestEven_le num (den * 2 ^ shift)
    have hhigh := divNearestEven_le_succ num (den * 2 ^ shift)
    have hlow := le_divNearestEven num (den * 2 ^ shift)
    rw [hdiv] at hhigh hlow
    have hscale : den * 2 ^ shift * 2 ^ 52 ≤ num := by
      calc den * 2 ^ shift * 2 ^ 52 = den * 2 ^ (shift + 52) := by ring
        _ ≤ den * (num / den) := Nat.mul_le_mul_left den hge
        _ ≤ num := Nat.mul_div_le num den
    have hmove : den * (divNearestEven num (den * 2 ^ shift) * 2 ^ shift) =
        den * 2 ^ shift * divNearestEven num (den * 2 ^ shift) := by ring
    rw [Nat.shiftLeft_eq, units_shifted (by omega) (.inr (by omega)), hmove]
    omega

@[irreducible]
def unitsOfOne : Nat := 1 <<< 1074

theorem shiftLeft_eq_mul_unitsOfOne (n : Nat) : n <<< 1074 = n * unitsOfOne := by
  rw [unitsOfOne, Nat.shiftLeft_eq, Nat.one_shiftLeft]

theorem le_unitsOfOne : 10 ^ 31 ≤ unitsOfOne := by decide +kernel

theorem le_units_infinityMagnitude : 2 ^ 201 * unitsOfOne ≤ units infinityMagnitude := by
  decide +kernel

theorem unitsOfOne_pos : 0 < unitsOfOne := Nat.lt_of_lt_of_le (by decide) le_unitsOfOne

theorem unitsOfOne_cast_pos : (0 : ℚ) < unitsOfOne := by
  exact_mod_cast unitsOfOne_pos

def toRat : Binary64 → ℚ
  | .finite negative magnitude => signedUnits negative magnitude / unitsOfOne
  | _ => 0

theorem toRat_finite (magnitude : Fin infinityMagnitude) :
    toRat (.finite false magnitude) = units magnitude / unitsOfOne := rfl

theorem toRat_pos {magnitude : Fin infinityMagnitude} (h : magnitude.val ≠ 0) :
    0 < toRat (.finite false magnitude) := by
  rw [toRat_finite]
  exact div_pos (by exact_mod_cast units_pos h) unitsOfOne_cast_pos

/-- A number that is finite, has no negative sign and does not exceed a bound. -/
def AtMost (x : Binary64) (bound : ℚ) : Prop :=
  ∃ magnitude, x = .finite false magnitude ∧ toRat x ≤ bound

namespace AtMost

variable {x y : Binary64} {a b : ℚ}

theorem mono (h : AtMost x a) (hab : a ≤ b) : AtMost x b := by
  obtain ⟨magnitude, rfl, hx⟩ := h
  exact ⟨magnitude, rfl, hx.trans hab⟩

theorem of_finite (magnitude : Fin infinityMagnitude) :
    AtMost (.finite false magnitude) (toRat (.finite false magnitude)) :=
  ⟨magnitude, rfl, le_refl _⟩

theorem toRat_nonneg (h : AtMost x a) : 0 ≤ toRat x := by
  obtain ⟨magnitude, rfl, -⟩ := h
  rw [toRat_finite]
  positivity

theorem bound_nonneg (h : AtMost x a) : 0 ≤ a := by
  have hx := h.toRat_nonneg
  obtain ⟨magnitude, rfl, hle⟩ := h
  exact hx.trans hle

/-- Rounding adds little to an exact result of a moderate size, and keeps it finite. -/
theorem ofUnits {num den : Nat} (hden : 0 < den) (h : (num : ℚ) / (den * unitsOfOne) ≤ a)
    (ha : a ≤ 2 ^ 200) : AtMost (ofUnits false num den) (1001 / 1000 * a + 1 / 10 ^ 30) := by
  have hexact : 0 ≤ (num : ℚ) / (den * unitsOfOne) := by positivity
  have hnonneg : 0 ≤ a := hexact.trans h
  have hone : (10 : ℚ) ^ 31 ≤ unitsOfOne := by exact_mod_cast le_unitsOfOne
  have hinfinity : (2 : ℚ) ^ 201 * unitsOfOne ≤ (units infinityMagnitude : ℕ) := by
    exact_mod_cast le_units_infinityMagnitude
  have hposden : (0 : ℚ) < den := by exact_mod_cast hden
  have hround : (2 : ℚ) ^ 53 * (den * units (nearestMagnitude num den)) ≤
      (2 ^ 53 + 1) * num + 2 ^ 52 * den := by
    exact_mod_cast @units_nearestMagnitude_le num den hden
  rw [div_le_iff₀ (mul_pos hposden unitsOfOne_cast_pos)] at h
  have hbound : (units (nearestMagnitude num den) : ℚ) ≤
      (1001 / 1000 * a + 1 / 10 ^ 30) * unitsOfOne := by
    have hscaled : den * (2 ^ 53 * (units (nearestMagnitude num den) : ℚ)) ≤
        den * ((2 ^ 53 + 1) * (a * unitsOfOne) + 2 ^ 52) := by linarith
    have hunits := le_of_mul_le_mul_left hscaled hposden
    have hproduct : 0 ≤ a * unitsOfOne := by positivity
    linarith
  have hfinite : nearestMagnitude num den < infinityMagnitude := by
    by_contra hlarge
    have hmono : ((units infinityMagnitude : ℕ) : ℚ) ≤ units (nearestMagnitude num den) := by
      exact_mod_cast units_mono (Nat.le_of_not_lt hlarge)
    have hsmall : 2 ^ 201 ≤ 1001 / 1000 * a + 1 / 10 ^ 30 :=
      le_of_mul_le_mul_right ((hinfinity.trans hmono).trans hbound) unitsOfOne_cast_pos
    norm_num at ha hsmall
    linarith
  have hof : Binary64.ofUnits false num den = .finite false ⟨_, hfinite⟩ := dif_pos hfinite
  refine ⟨_, hof, ?_⟩
  rw [hof, toRat_finite, div_le_iff₀ unitsOfOne_cast_pos]
  exact hbound

theorem ofNat (n : Nat) (hn : (n : ℚ) ≤ 2 ^ 200) :
    AtMost (.ofNat n) (1001 / 1000 * n + 1 / 10 ^ 30) := by
  have hone := unitsOfOne_cast_pos
  rw [Binary64.ofNat, ofRatio, shiftLeft_eq_mul_unitsOfOne]
  refine AtMost.ofUnits Nat.one_pos (le_of_eq ?_) hn
  rw [Nat.cast_mul, Nat.cast_one, one_mul, mul_div_cancel_right₀ _ hone.ne']

theorem add (hx : AtMost x a) (hy : AtMost y b) (hab : a + b ≤ 2 ^ 200) :
    AtMost (x + y) (1001 / 1000 * (a + b) + 1 / 10 ^ 30) := by
  have hnonneg := add_nonneg hx.bound_nonneg hy.bound_nonneg
  obtain ⟨m, rfl, hm⟩ := hx
  obtain ⟨n, rfl, hn⟩ := hy
  have hadd : (.finite false m + .finite false n : Binary64) =
      if units m + units n = 0 then zero false
      else Binary64.ofUnits false (units m + units n) 1 := by
    change Binary64.add _ _ = _
    simp only [Binary64.add, signedUnits, Bool.false_eq_true, ↓reduceIte, Bool.and_false]
    norm_cast
  rw [hadd]
  split
  · refine ⟨⟨0, by decide⟩, rfl, ?_⟩
    change toRat (.finite false ⟨0, _⟩) ≤ _
    rw [toRat_finite]
    simp only [units_of_lt leadingBit_pos, Nat.cast_zero, zero_div]
    positivity
  · refine AtMost.ofUnits Nat.one_pos ?_ hab
    rw [toRat_finite] at hm hn
    push_cast
    rw [one_mul, add_div]
    exact add_le_add hm hn

theorem mul (hx : AtMost x a) (hy : AtMost y b) (hab : a * b ≤ 2 ^ 200) :
    AtMost (x * y) (1001 / 1000 * (a * b) + 1 / 10 ^ 30) := by
  have ha := hx.bound_nonneg
  have hy0 := hy.toRat_nonneg
  obtain ⟨m, rfl, hm⟩ := hx
  obtain ⟨n, rfl, hn⟩ := hy
  have hmul : (.finite false m * .finite false n : Binary64) =
      Binary64.ofUnits false (units m * units n) (1 <<< 1074) := rfl
  rw [hmul, shiftLeft_eq_mul_unitsOfOne, Nat.one_mul]
  refine AtMost.ofUnits unitsOfOne_pos ?_ hab
  calc ((units m * units n : ℕ) : ℚ) / (unitsOfOne * unitsOfOne)
      = toRat (.finite false m) * toRat (.finite false n) := by
        rw [toRat_finite, toRat_finite, div_mul_div_comm, Nat.cast_mul]
    _ ≤ a * b := mul_le_mul hm hn hy0 ha

theorem div {m n : Fin infinityMagnitude} (hn : n.val ≠ 0)
    (ha : toRat (.finite false m) / toRat (.finite false n) ≤ a) (hle : a ≤ 2 ^ 200) :
    AtMost (.finite false m / .finite false n) (1001 / 1000 * a + 1 / 10 ^ 30) := by
  have hone := unitsOfOne_cast_pos
  have hdiv : (.finite false m / .finite false n : Binary64) =
      Binary64.ofUnits false (units m <<< 1074) (units n) := if_neg hn
  rw [hdiv, shiftLeft_eq_mul_unitsOfOne]
  refine AtMost.ofUnits (units_pos hn) (le_trans (le_of_eq ?_) ha) hle
  rw [toRat_finite, toRat_finite, div_div_div_cancel_right₀ hone.ne', Nat.cast_mul,
    mul_div_mul_right _ _ hone.ne']

end AtMost

theorem toRat_le_toRat {m n : Fin infinityMagnitude}
    (h : le (.finite false m) (.finite false n) = true) :
    toRat (.finite false m) ≤ toRat (.finite false n) := by
  have hmn : m.val ≤ n.val := by simpa [le, rank] using h
  rw [toRat_finite, toRat_finite]
  gcongr
  exact units_mono hmn

/-- The place of a number that lies at or above a positive one. -/
theorem rank_pos_of_le {low x : Binary64} (hpos : (zero false).lt low = true)
    (hlow : low.le x = true) : ∃ place, x.rank = some place ∧ 0 < place := by
  unfold le at hlow
  split at hlow
  · rename_i a b ha hb
    have hzero : (zero false).rank = some 0 := rfl
    simp only [lt, ha, hzero, decide_eq_true_eq] at hpos hlow
    exact ⟨b, hb, Int.lt_of_lt_of_le hpos hlow⟩
  · cases hlow

/-- What lies within limits of which the lower is positive and the upper is finite. -/
theorem exists_finite_of_within {low x high : Binary64} (hpos : (zero false).lt low = true)
    (hlow : low.le x = true) (hhigh : x.le high = true) (hfinite : high.isInfinite = false) :
    ∃ magnitude, x = .finite false magnitude ∧ magnitude.val ≠ 0 := by
  obtain ⟨place, hrank, hplace⟩ := rank_pos_of_le hpos hlow
  cases x with
  | nan => cases hrank
  | infinite s =>
    cases high with
    | nan => cases hhigh
    | infinite => cases hfinite
    | finite t n =>
      have hn := n.isLt
      cases s <;> cases t <;> simp_all [rank, le] <;> omega
  | finite s m =>
    cases s with
    | false => exact ⟨m, rfl, by simp [rank] at hrank; omega⟩
    | true => simp [rank] at hrank; omega

end SessionPlayback.Binary64
