import SessionPlayback.Proofs.Binary64.Rounding
import SessionPlayback.Timer

/-!
Scaling a delay. It succeeds as long as the exact product keeps a hundredth away from the longest
delay, and what it comes to is a delay again.
-/

namespace SessionPlayback.Delay

theorem delayLimit_eq : delayLimit = 2 ^ 64 * 10 ^ 9 := by decide +kernel

/-- The number of nanoseconds in a second is exact. -/
theorem exists_ofNat_nanosPerSecond : ∃ m, Binary64.ofNat nanosPerSecond = .finite false m ∧
    m.val ≠ 0 ∧ Binary64.toRat (.finite false m) = 10 ^ 9 := by
  refine ⟨⟨0x41CDCD6500000000, by decide⟩, by decide +kernel, by decide, ?_⟩
  have hunits : Binary64.units 0x41CDCD6500000000 = 10 ^ 9 * Binary64.unitsOfOne := by
    decide +kernel
  rw [Binary64.toRat_finite, hunits, Nat.cast_mul, mul_div_cancel_right₀ _
    Binary64.unitsOfOne_cast_pos.ne']
  norm_num

/-- The seconds of a delay, with a little room for what rounding adds. -/
theorem toSeconds_atMost {delay : Nanoseconds} (h : delay < delayLimit) :
    (toSeconds delay).AtMost (1004 / 1000 * ((delay + 1) / 10 ^ 9)) := by
  obtain ⟨m, hm, hm0, hvalue⟩ := exists_ofNat_nanosPerSecond
  have hsplit : (delay : ℚ) =
      10 ^ 9 * ((delay / nanosPerSecond : ℕ) : ℚ) + ((delay % nanosPerSecond : ℕ) : ℚ) := by
    exact_mod_cast (Nat.div_add_mod delay nanosPerSecond).symm
  have hseconds : ((delay / nanosPerSecond : ℕ) : ℚ) ≤ 2 ^ 64 := by
    have hlt : delay / nanosPerSecond < 2 ^ 64 :=
      Nat.div_lt_of_lt_mul (by rw [delayLimit_eq] at h; exact Nat.mul_comm _ _ ▸ h)
    exact_mod_cast hlt.le
  have hfraction : ((delay % nanosPerSecond : ℕ) : ℚ) ≤ 10 ^ 9 := by
    have hlt : delay % nanosPerSecond < 10 ^ 9 := Nat.mod_lt _ (by decide)
    exact_mod_cast hlt.le
  unfold toSeconds
  rw [hsplit]
  generalize (delay / nanosPerSecond) = seconds at *
  generalize (delay % nanosPerSecond) = fraction at *
  have hwhole := Binary64.AtMost.ofNat seconds (by linarith)
  obtain ⟨f, hf, hfle⟩ := Binary64.AtMost.ofNat fraction (by linarith)
  rw [hf] at hfle
  rw [hf, hm]
  have hshare : Binary64.toRat (.finite false f) / Binary64.toRat (.finite false m) ≤
      1001 / 1000 * (fraction / 10 ^ 9) + 1 / 10 ^ 30 := by
    rw [hvalue, div_le_iff₀ (by norm_num)]
    linarith
  have hrest := Binary64.AtMost.div hm0 hshare (by linarith)
  refine (hwhole.add hrest (by linarith)).mono ?_
  linarith

/-- Seconds within the range of delays. -/
theorem ofSeconds?_isSome {x : Binary64} {bound : ℚ} (h : x.AtMost bound)
    (hbound : bound < 2 ^ 64) : (ofSeconds? x).isSome = true := by
  obtain ⟨m, rfl, hm⟩ := h
  have hlimit : Binary64.units m < (uint64Max + 1) <<< 1074 := by
    rw [Binary64.shiftLeft_eq_mul_unitsOfOne]
    rw [Binary64.toRat_finite] at hm
    have hlt := hm.trans_lt hbound
    rw [div_lt_iff₀ Binary64.unitsOfOne_cast_pos] at hlt
    exact_mod_cast hlt
  simp [ofSeconds?, hlimit]

/-- The largest number below the limit is far enough away from it for the last rounding. -/
theorem round_lt {m : Nat} (h : Binary64.units m < (uint64Max + 1) * Binary64.unitsOfOne) :
    Binary64.divNearestEven (Binary64.units m * nanosPerSecond) (1 * Binary64.unitsOfOne) <
      delayLimit := by
  have hover : Binary64.units 0x43F0000000000000 = (uint64Max + 1) * Binary64.unitsOfOne := by
    decide +kernel
  have hlast : Binary64.units 0x43EFFFFFFFFFFFFF =
      (uint64Max + 1 - 2 ^ 11) * Binary64.unitsOfOne := by
    decide +kernel
  have hm : m ≤ 0x43EFFFFFFFFFFFFF := by
    refine Nat.le_of_lt_succ (Nat.lt_of_not_le fun hle => ?_)
    have hmono := Binary64.units_mono hle
    rw [hover] at hmono
    exact Nat.not_le_of_lt h hmono
  have hunits : Binary64.units m ≤ (uint64Max + 1 - 2 ^ 11) * Binary64.unitsOfOne :=
    hlast ▸ Binary64.units_mono hm
  rw [Nat.one_mul]
  calc Binary64.divNearestEven (Binary64.units m * nanosPerSecond) Binary64.unitsOfOne
      ≤ Binary64.units m * nanosPerSecond / Binary64.unitsOfOne + 1 :=
        Binary64.divNearestEven_le_succ _ _
    _ ≤ (uint64Max + 1 - 2 ^ 11) * nanosPerSecond * Binary64.unitsOfOne / Binary64.unitsOfOne +
          1 := by
        refine Nat.succ_le_succ (Nat.div_le_div_right ?_)
        rw [Nat.mul_right_comm]
        exact Nat.mul_le_mul_right _ hunits
    _ = (uint64Max + 1 - 2 ^ 11) * nanosPerSecond + 1 := by
        rw [Nat.mul_div_cancel _ Binary64.unitsOfOne_pos]
    _ < delayLimit := by decide

/-- What seconds come to is a delay. -/
theorem ofSeconds?_lt {x : Binary64} {delay : Nanoseconds} (h : ofSeconds? x = some delay) :
    delay < delayLimit := by
  unfold ofSeconds? at h
  split at h
  · rename_i negative m
    split at h
    · split at h
      · cases h
        decide
      · cases h
    · dsimp only at h
      split at h
      · rename_i hlimit
        cases h
        rw [Binary64.shiftLeft_eq_mul_unitsOfOne] at hlimit ⊢
        exact round_lt hlimit
      · cases h
  · cases h

/-- A delay can be scaled by a ratio of two speeds unless the exact product comes near the limit. -/
theorem scale?_isSome {delay : Nanoseconds} {old new : Fin Binary64.infinityMagnitude}
    (hdelay : delay < delayLimit) (hnew : new.val ≠ 0)
    (h : 100 * ((delay + 1) * (Binary64.toRat (.finite false old) /
      Binary64.toRat (.finite false new))) < 99 * delayLimit) :
    (scale? delay (.finite false old / .finite false new)).isSome = true := by
  have hratio : 0 ≤ Binary64.toRat (.finite false old) / Binary64.toRat (.finite false new) :=
    div_nonneg (Binary64.AtMost.of_finite old).toRat_nonneg
      (Binary64.AtMost.of_finite new).toRat_nonneg
  have hlong : (delay : ℚ) + 1 ≤ 2 ^ 64 * 10 ^ 9 := by
    rw [delayLimit_eq] at hdelay
    exact_mod_cast Nat.succ_le_of_lt hdelay
  have hlimit : (delayLimit : ℚ) = 2 ^ 64 * 10 ^ 9 := by
    exact_mod_cast delayLimit_eq
  have hseconds := toSeconds_atMost hdelay
  have hdelay0 : (0 : ℚ) ≤ delay := Nat.cast_nonneg delay
  rw [hlimit] at h
  unfold scale?
  generalize hR : Binary64.toRat (.finite false old) / Binary64.toRat (.finite false new) = ratio
    at h hratio
  have hproduct : 0 ≤ (delay : ℚ) * ratio := mul_nonneg hdelay0 hratio
  have hfactor := Binary64.AtMost.div hnew (le_of_eq hR) (by linarith)
  have hexact : (1001 / 1000 * ratio + 1 / 10 ^ 30) *
      (1004 / 1000 * (((delay : ℚ) + 1) / 10 ^ 9)) ≤ 996 / 1000 * 2 ^ 64 := by
    linarith
  refine ofSeconds?_isSome (hfactor.mul hseconds (by linarith)) ?_
  linarith

end SessionPlayback.Delay
