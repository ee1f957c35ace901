import SessionPlayback.Proofs.Binary64.Rounding
import SessionPlayback.Proofs.Config
import SessionPlayback.Proofs.Playback.Delay
import SessionPlayback.Proofs.Playback.Unending

/-!
Which speeds a playback can have. Every operation keeps the speed or brings a requested one within
the limits. If these are meant as limits, a speed is a positive number between them.
-/

namespace SessionPlayback

namespace Config

/-- Limits as they are meant: the lowest speed is positive, and the highest is finite and not below
it. -/
structure Limited (c : Config) : Prop where
  positive : (Binary64.zero false).lt c.minSpeed = true
  ordered : c.minSpeed.le c.maxSpeed = true
  finite : c.maxSpeed.isInfinite = false

namespace Limited

variable {c : Config} {requested v : Binary64}

theorem clamps (h : c.Limited) : c.Clamps :=
  clamps_iff.mpr (Binary64.isNaN_of_le h.ordered).1

theorem speedCeiling_le (h : c.Limited) : c.speedCeiling.le c.maxSpeed = true := by
  obtain ⟨hmin, hmax⟩ := Binary64.isNaN_of_le h.ordered
  simp only [speedCeiling, Binary64.max, hmin, hmax, Bool.false_eq_true, ↓reduceIte]
  split
  · exact h.ordered
  · exact Binary64.le_refl hmax

theorem within (h : c.Limited) (hv : c.clampSpeed? requested = some v) :
    c.minSpeed.le v = true ∧ v.le c.maxSpeed = true := by
  obtain ⟨w, hw, hlow, hhigh, -⟩ := h.clamps requested
  cases hv.symm.trans hw
  exact ⟨hlow, Binary64.le_trans hhigh h.speedCeiling_le⟩

/-- A speed within the limits is a positive number between them. -/
theorem exists_finite (h : c.Limited) (hv : c.clampSpeed? requested = some v) :
    ∃ m, v = .finite false m ∧ m.val ≠ 0 ∧ c.minSpeed.toRat ≤ v.toRat ∧
      v.toRat ≤ c.maxSpeed.toRat := by
  obtain ⟨hlow, hhigh⟩ := h.within hv
  obtain ⟨hmin, hmax⟩ := Binary64.isNaN_of_le h.ordered
  obtain ⟨low, hlowest, -⟩ :=
    Binary64.exists_finite_of_within h.positive (Binary64.le_refl hmin) h.ordered h.finite
  obtain ⟨high, hhighest, -⟩ :=
    Binary64.exists_finite_of_within h.positive h.ordered (Binary64.le_refl hmax) h.finite
  obtain ⟨m, rfl, hm⟩ := Binary64.exists_finite_of_within h.positive hlow hhigh h.finite
  rw [hlowest] at hlow ⊢
  rw [hhighest] at hhigh ⊢
  exact ⟨m, rfl, hm, Binary64.toRat_le_toRat hlow, Binary64.toRat_le_toRat hhigh⟩

end Limited

theorem limited_default : ({} : Config).Limited :=
  ⟨by decide +kernel, by decide +kernel, by decide +kernel⟩

theorem ratio_default : ({} : Config).maxSpeed.toRat ≤ 900 * ({} : Config).minSpeed.toRat := by
  have hmax : ({} : Config).maxSpeed = .finite false ⟨0x4050000000000000, by decide⟩ := by
    decide +kernel
  have hmin : ({} : Config).minSpeed = .finite false ⟨0x3FB999999999999A, by decide⟩ := by
    decide +kernel
  have hunits : Binary64.units 0x4050000000000000 ≤
      900 * Binary64.units 0x3FB999999999999A := by
    decide +kernel
  have hone := Binary64.unitsOfOne_cast_pos
  rw [hmax, hmin, Binary64.toRat_finite, Binary64.toRat_finite, mul_div_assoc']
  gcongr
  exact_mod_cast hunits

end Config

namespace Playback

variable {σ : Type} {p q : Playback σ} {now : Nanoseconds}

def Allowed (c : Config) (p : Playback σ) : Prop :=
  p.config = c ∧ ∃ requested, c.clampSpeed? requested = some p.speed

namespace Allowed

variable {c : Config}

theorem congr (h : p.Allowed c) (hc : q.config = p.config) (hs : q.speed = p.speed) :
    q.Allowed c := by
  obtain ⟨hconfig, hspeed⟩ := h
  rw [← hs] at hspeed
  exact ⟨hc.trans hconfig, hspeed⟩

theorem disturbed [Console σ] (h : p.Allowed c) (hq : Disturbed p q) : q.Allowed c := by
  have hs := SamePace.of_disturbed hq
  exact h.congr hs.config hs.speed

theorem pause (h : p.Allowed c) (now : Nanoseconds) : (p.pause now).Allowed c := by
  obtain ⟨timer, delay, hs⟩ := pause_frame now p
  rw [hs]
  exact h.congr rfl rfl

theorem halted (h : p.Allowed c) (now : Nanoseconds) : (p.halted now).Allowed c := by
  rw [halted_eq]
  exact h.congr rfl rfl

variable [Console σ]

theorem step (now : Nanoseconds) : Keeps (σ := σ) (Allowed c) (step now) := by
  refine fun p h => .of_run (fun q hq => ?_) fun f q hq => ?_
  · cases step_ok hq with
    | resting => exact h.congr rfl rfl
    | idle => exact h.congr rfl rfl
    | held e => exact h.congr rfl rfl
    | shown e n =>
      obtain ⟨timer, paused, hs⟩ :=
        scheduleNext_frame { (p.taken e).delivered n with index := p.index + 1 } now
      rw [hs]
      exact h.congr rfl rfl
  · obtain ⟨e, -, -, hs⟩ := step_error hq
    have htaken : (p.taken e).Allowed c := h.congr rfl rfl
    exact htaken.disturbed hs.disturbed

theorem play (now : Nanoseconds) : Keeps (σ := σ) (Allowed c) (play now) := by
  refine fun p h => .of_run (fun q hq => ?_) fun f q hq => ?_
  · have hr : Resumes False now p q := .of_ok hq
    exact h.congr (Paced.resumed (.command .play) q hr).config_eq hr.speed_eq
  · have hr : Resumes True now p q := .of_error hq
    exact h.congr (Paced.resumed (.command .play) q hr).config_eq hr.speed_eq

theorem moveTo (now : Nanoseconds) (target : Nat) :
    Keeps (σ := σ) (Allowed c) (moveTo now target) := by
  refine fun p h => .of_run (fun q hq => ?_) fun f q hq => ?_
  · rcases (moveTo_ok hq).disturbed with rfl | ⟨-, s, delay, hs, rfl⟩
    · exact h
    · exact ((h.halted now).disturbed hs).congr rfl rfl
  · exact (h.halted now).disturbed (moveTo_error hq)

omit [Console σ] in
theorem of_set (h : q.Allowed c) : Keeps (Allowed c) (set q : Action σ Unit) := fun _ _ => h

theorem changeSpeed (now : Nanoseconds) (requested : Binary64) :
    Keeps (σ := σ) (Allowed c) (changeSpeed now requested) := by
  refine .of_get fun p h => ?_
  cases hs : p.config.clampSpeed? requested with
  | none => exact fun _ hq => hq
  | some speed =>
    have hnew {q : Playback σ} (hc : q.config = c) (hq : q.speed = speed) : q.Allowed c :=
      ⟨hc, requested, by rw [hq, ← h.1, hs]⟩
    have hpause : (p.pause now).config = c := (h.pause now).1
    dsimp only
    split
    · exact of_set (hnew h.1 rfl)
    · refine .bind (of_set (hnew hpause rfl)) ?_
      split
      · exact fun _ hq => hq
      · exact .bind (of_set (hnew hpause rfl)) (play now)

theorem perform (call : Call) : Keeps (σ := σ) (Allowed c) (perform call) := by
  intro p h
  unfold Ends
  rw [perform_run]
  cases (Console.perform call p.console).1 <;> exact h.congr rfl rfl

theorem reset : Keeps (σ := σ) (Allowed c) reset := by
  refine .bind (.of_modify fun p h => h.congr rfl rfl) (.of_get fun p h => ?_)
  cases hs : p.config.clampSpeed? p.config.speed with
  | none => exact fun _ hq => hq
  | some speed =>
    exact .bind (of_set ⟨h.1, p.config.speed, by rw [← h.1, hs]⟩)
      (.bind (perform _) (.bind (perform _) (perform _)))

theorem operate (now : Nanoseconds) (op : Operation) :
    Keeps (σ := σ) (Allowed c) (operate now op) := by
  cases op with
  | step => exact step now
  | command command =>
    cases command with
    | play => exact play now
    | pause => exact .of_modify fun _ h => h.pause now
    | toggle =>
      refine .of_get fun p _ => ?_
      split
      · exact play now
      · exact .of_modify fun _ h => h.pause now
    | next => exact .of_get fun p _ => moveTo now p.index
    | previous =>
      refine .of_get fun p _ => ?_
      split
      · exact moveTo now _
      · exact .of_pure
    | seek target => exact moveTo now target
    | increaseSpeed => exact .of_get fun p _ => changeSpeed now _
    | decreaseSpeed => exact .of_get fun p _ => changeSpeed now _
    | setSpeed speed => exact changeSpeed now speed
    | load events => exact .of_modify fun _ h => h.congr rfl rfl
    | setLive => exact .of_modify fun _ h => h.congr rfl rfl
    | setDisconnected =>
      refine .of_modify fun p h => ?_
      rw [setDisconnected_eq]
      exact h.congr rfl rfl
    | reset => exact reset
    | shutdown => exact .of_pure

theorem attemptAll (h : p.Allowed c) (ops : List (Nanoseconds × Operation)) :
    (attemptAll ops p).Allowed c :=
  attemptAll_keeps (fun now op _ _ h => (operate now op).attempt h) h

omit [Console σ] in
theorem created {s : σ} (hc : create? s c = .ok p) : p.Allowed c := by
  obtain ⟨speed, hs, rfl⟩ := create_eq hc
  exact ⟨rfl, c.speed, hs⟩

end Allowed

end Playback
end SessionPlayback
