import SessionPlayback.Config

/-!
Limits of the speed. Every requested speed is brought within the limits as long as the lowest speed
is a number.
-/

namespace SessionPlayback

namespace Binary64

theorem rank_eq_none_iff {x : Binary64} : x.rank = none ↔ x.isNaN = true := by
  cases x <;> simp [rank, isNaN]

theorem le_refl {x : Binary64} (h : x.isNaN = false) : x.le x = true := by
  cases hr : x.rank with
  | none => simp [rank_eq_none_iff, h] at hr
  | some a => simp [le, hr]

theorem le_total {x y : Binary64} (hx : x.isNaN = false) (hy : y.isNaN = false) :
    x.le y = true ∨ y.le x = true := by
  cases hr : x.rank with
  | none => simp [rank_eq_none_iff, hx] at hr
  | some a =>
    cases hs : y.rank with
    | none => simp [rank_eq_none_iff, hy] at hs
    | some b => simpa [le, hr, hs] using Int.le_total a b

theorem le_max_right (x : Binary64) {y : Binary64} (hy : y.isNaN = false) :
    y.le (x.max y) = true := by
  unfold max
  cases hx : x.isNaN with
  | true => exact le_refl hy
  | false =>
    simp only [Bool.false_eq_true, ↓reduceIte, hy]
    split
    · exact le_refl hy
    · rename_i h
      exact (le_total hx hy).resolve_left h

theorem isNaN_of_le {x y : Binary64} (h : x.le y = true) :
    x.isNaN = false ∧ y.isNaN = false := by
  cases x <;> cases y <;> simp_all [le, rank, isNaN]

theorem le_trans {x y z : Binary64} (hxy : x.le y = true) (hyz : y.le z = true) :
    x.le z = true := by
  unfold le at *
  split at hxy
  · rename_i a b hx hy
    simp only [hx, hy] at hyz ⊢
    split at hyz
    · rename_i b' d hb hz
      cases hb
      simp only [hz, decide_eq_true_eq] at hxy hyz ⊢
      exact Int.le_trans hxy hyz
    · cases hyz
  · cases hxy

theorem lt_of_le {x y : Binary64} (h : x.le y = true) : y.lt x = false := by
  unfold le at h
  unfold lt
  split at h
  · rename_i a b hx hy
    simpa [hx, hy] using h
  · cases h

theorem le_of_lt_eq_false {x y : Binary64} (hx : x.isNaN = false) (hy : y.isNaN = false)
    (h : x.lt y = false) : y.le x = true := by
  rcases le_total hx hy with hxy | hyx
  · unfold le at hxy ⊢
    unfold lt at h
    split at hxy
    · rename_i a b ha hb
      simpa [ha, hb] using h
    · cases hxy
  · exact hyx

end Binary64

namespace Config

/-- A speed within the limits is not changed. -/
theorem clampSpeed?_of_within {c : Config} {v : Binary64} (hlow : c.minSpeed.le v = true)
    (hhigh : v.le c.speedCeiling = true) : c.clampSpeed? v = some v := by
  obtain ⟨hmin, hv⟩ := Binary64.isNaN_of_le hlow
  have hlimits : c.minSpeed.le c.speedCeiling = true := Binary64.le_max_right _ hmin
  simp only [clampSpeed?, Binary64.clamp?, hv, hlimits, Binary64.lt_of_le hlow,
    Binary64.lt_of_le hhigh, Bool.false_eq_true, ↓reduceIte]

/-- Every requested speed is brought within the limits, and stays as it is from then on. -/
def Clamps (c : Config) : Prop :=
  ∀ requested, ∃ v, c.clampSpeed? requested = some v ∧ c.minSpeed.le v = true ∧
    v.le (c.maxSpeed.max c.minSpeed) = true ∧ c.clampSpeed? v = some v

/-- The limits serve as limits exactly if the lowest speed is a number, whatever the highest is. -/
theorem clamps_iff {c : Config} : c.Clamps ↔ c.minSpeed.isNaN = false := by
  constructor
  · intro h
    obtain ⟨v, -, hlow, -⟩ := h 1
    exact (Binary64.isNaN_of_le hlow).1
  · intro hmin requested
    have hlimits : c.minSpeed.le c.speedCeiling = true := Binary64.le_max_right _ hmin
    have hself : c.minSpeed.le c.minSpeed = true := Binary64.le_refl hmin
    have hceiling : c.speedCeiling.isNaN = false := (Binary64.isNaN_of_le hlimits).2
    have hwithin {v : Binary64} (hv : c.clampSpeed? requested = some v)
        (hlow : c.minSpeed.le v = true) (hhigh : v.le c.speedCeiling = true) :
        ∃ v, c.clampSpeed? requested = some v ∧ c.minSpeed.le v = true ∧
          v.le (c.maxSpeed.max c.minSpeed) = true ∧ c.clampSpeed? v = some v :=
      ⟨v, hv, hlow, hhigh, clampSpeed?_of_within hlow hhigh⟩
    cases hr : requested.isNaN with
    | true => exact hwithin (by simp [clampSpeed?, hr]) hself hlimits
    | false =>
      -- Raised to the lowest speed if need be, then lowered to the highest.
      cases hl : requested.lt c.minSpeed with
      | true =>
        have hv : c.clampSpeed? requested = some c.minSpeed := by
          simp [clampSpeed?, Binary64.clamp?, hr, hlimits, hl, Binary64.lt_of_le hlimits]
        exact hwithin hv hself hlimits
      | false =>
        have hlow := Binary64.le_of_lt_eq_false hr hmin hl
        cases hh : c.speedCeiling.lt requested with
        | true =>
          have hv : c.clampSpeed? requested = some c.speedCeiling := by
            simp [clampSpeed?, Binary64.clamp?, hr, hlimits, hl, hh]
          exact hwithin hv hlimits (Binary64.le_refl hceiling)
        | false =>
          have hhigh := Binary64.le_of_lt_eq_false hceiling hr hh
          exact hwithin (clampSpeed?_of_within hlow hhigh) hlow hhigh

end Config

theorem Config.clampSpeed?_isSome {c : Config} (h : c.minSpeed.isNaN = false)
    (speed : Binary64) : (c.clampSpeed? speed).isSome = true := by
  unfold clampSpeed? Binary64.clamp? speedCeiling
  split
  · rfl
  · rw [if_pos (Binary64.le_max_right _ h)]
    rfl

end SessionPlayback
