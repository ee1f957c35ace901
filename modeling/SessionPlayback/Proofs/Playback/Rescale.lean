import SessionPlayback.Proofs.Playback.FailStop
import SessionPlayback.Proofs.Playback.Speed
import SessionPlayback.Proofs.Timer

/-!
How long delays can become. A gap is far shorter than the longest delay, and within limits of a
moderate ratio no single change of speed brings what is left of it out of range. A delay that has
been stretched before can be stretched again: a change of speed while the playback is paused does
not scale the delay back. After enough rounds the product is out of range, and the change fails.
-/

namespace SessionPlayback

def longestGap : Nanoseconds := uint64Max * nanosPerMilli

theorem longestGap_lt : longestGap < delayLimit := by decide

theorem Binary64.toNatBounded_le (bound : Nat) (x : Binary64) : x.toNatBounded bound ≤ bound := by
  cases x with
  | nan => exact Nat.zero_le _
  | infinite s =>
    cases s
    · exact Nat.le_refl _
    · exact Nat.zero_le _
  | finite s m =>
    cases s
    · exact Nat.min_le_right _ _
    · exact Nat.zero_le _

namespace Config.Limited

variable {c : Config} {before old requested new : Binary64} {delay : Nanoseconds}

/-- A delay fails to be scaled from one speed to another only if the exact product comes near the
longest delay. -/
theorem product_of_scale?_eq_none (h : c.Limited) (hold : c.clampSpeed? before = some old)
    (hnew : c.clampSpeed? requested = some new) (hd : delay < delayLimit)
    (hnone : Delay.scale? delay (old / new) = none) :
    99 * (delayLimit : ℚ) ≤ 100 * ((delay + 1) * (old.toRat / new.toRat)) := by
  obtain ⟨m, rfl, -⟩ := h.exists_finite hold
  obtain ⟨n, rfl, hpos, -⟩ := h.exists_finite hnew
  by_contra hsmall
  have hsome := Delay.scale?_isSome hd hpos (not_le.mp hsmall)
  simp [hnone] at hsome

/-- Within limits of a moderate ratio the product of a gap does not. -/
theorem longestGap_lt_of_product (h : c.Limited) (hold : c.clampSpeed? before = some old)
    (hnew : c.clampSpeed? requested = some new)
    (hratio : c.maxSpeed.toRat ≤ 900 * c.minSpeed.toRat)
    (hproduct : 99 * (delayLimit : ℚ) ≤ 100 * ((delay + 1) * (old.toRat / new.toRat))) :
    longestGap < delay := by
  obtain ⟨m, rfl, -, -, hhigh⟩ := h.exists_finite hold
  obtain ⟨n, rfl, hpos, hlow, -⟩ := h.exists_finite hnew
  have hle : Binary64.toRat (.finite false m) / Binary64.toRat (.finite false n) ≤ 900 := by
    rw [div_le_iff₀ (Binary64.toRat_pos hpos)]
    linarith
  have hdelay : (0 : ℚ) ≤ delay + 1 := by positivity
  have hscaled := mul_le_mul_of_nonneg_left hle hdelay
  have hlimit : (delayLimit : ℚ) = 2 ^ 64 * 10 ^ 9 := by exact_mod_cast Delay.delayLimit_eq
  have hgap : (longestGap : ℚ) ≤ 2 ^ 64 * 10 ^ 6 := by
    exact_mod_cast (by decide : longestGap ≤ 2 ^ 64 * 10 ^ 6)
  have hlt : (longestGap : ℚ) < delay := by linarith
  exact_mod_cast hlt

end Config.Limited

namespace Playback

variable {σ : Type}

theorem gap_le_longestGap (p : Playback σ) (first second : Nat) :
    p.gap first second ≤ longestGap := by
  unfold gap
  split
  · have hle (d : Int) (v : Binary64) : scaledMillis d v * nanosPerMilli ≤ longestGap :=
      Nat.mul_le_mul_right _ (Binary64.toNatBounded_le _ _)
    split
    · exact Nat.le_trans (Nat.min_le_left _ _) (hle _ _)
    · exact hle _ _
  · exact Nat.zero_le _

variable [Console σ]

/-- A delay shorter than the limit, and no longer than a gap unless a change of speed stretched
it. -/
def InRange (start : Playback σ) (ops : List (Nanoseconds × Operation)) (delay : Nanoseconds) :
    Prop :=
  delay < delayLimit ∧ (delay ≤ longestGap ∨ Stretched start ops delay)

theorem InRange.of_le {start : Playback σ} {ops more : List (Nanoseconds × Operation)}
    {shorter delay : Nanoseconds} (hle : shorter ≤ delay) (h : InRange start ops delay) :
    InRange start (ops ++ more) shorter := by
  obtain ⟨hlimit, hgap⟩ := h
  exact ⟨Nat.lt_of_le_of_lt hle hlimit, hgap.imp (Nat.le_trans hle) fun hs => hs.mono hle⟩

theorem InRange.down {start : Playback σ} {ops : List (Nanoseconds × Operation)}
    (shorter delay : Nanoseconds) (hle : shorter ≤ delay) (h : InRange start ops delay) :
    InRange start ops shorter :=
  List.append_nil ops ▸ h.of_le hle

/-- The delays of every run are in range, whichever operations fail. -/
theorem delays_inRange {start : Playback σ} (hstart : start.DelaysWithin (InRange start []))
    (ops : List (Nanoseconds × Operation)) :
    (attemptAll ops start).DelaysWithin (InRange start ops) := by
  refine attemptAll_reaches (I := fun ops q => q.DelaysWithin (InRange start ops)) hstart ?_ ops
  intro ops now op hd
  have hbefore : (attemptAll ops start).DelaysWithin (InRange start (ops ++ [(now, op)])) :=
    hd.mono fun delay hok => hok.of_le (Nat.le_refl delay)
  refine hbefore.paced InRange.down (fun s _ i j => ?_) (fun delay hop hp hscale => ?_)
    (Paced.of_attempt now op (attemptAll ops start))
  · have hgap := gap_le_longestGap s i j
    exact ⟨Nat.lt_of_le_of_lt hgap longestGap_lt, .inl hgap⟩
  · exact ⟨Delay.ofSeconds?_lt hscale,
      .inr ⟨ops, now, op, [], _, delay, rfl, rfl, hop, hp, hscale, Nat.le_refl delay⟩⟩

/-- In every run with limits as they are meant, whichever operations fail, gaps and delays are in
range, and so is a deadline unless its delay has been stretched beyond every gap. An operation that
fails without a failed call is a change of speed while the playback plays, with a product near the
longest delay; within limits of a moderate ratio the delay had been stretched beyond every gap
before. -/
theorem inRange_of_attemptAll {s : σ} {config : Config} {p q : Playback σ}
    {ops : List (Nanoseconds × Operation)} (hc : create? s config = .ok p) (hl : config.Limited)
    (hq : q = attemptAll ops p) :
    (∀ first second, q.gap first second ≤ longestGap) ∧
      q.DelaysWithin (InRange p ops) ∧
      (∀ timer, q.timer = some timer → timer.delay ≤ longestGap →
        timer.armedAt + longestGap < clockLimit → q.deadline? = .ok (some timer.deadline)) ∧
      ∀ now op f r, (operate now op).run q = .error f r → (∃ e, f = .failed e) ∨
        f = .delayRange ∧ op.changesSpeed = true ∧ q.paused = false ∧
          99 * (delayLimit : ℚ) ≤
            100 * (((q.pause now).savedDelay + 1) * (q.speed.toRat / r.speed.toRat)) ∧
          (config.maxSpeed.toRat ≤ 900 * config.minSpeed.toRat →
            longestGap < (q.pause now).savedDelay ∧
              Stretched p ops (q.pause now).savedDelay) := by
  have hstart : p.DelaysWithin (InRange p []) := by
    obtain ⟨speed, -, rfl⟩ := create_eq hc
    exact .of_unarmed rfl ⟨Nat.zero_lt_of_lt longestGap_lt, .inl (Nat.zero_le _)⟩
  have hd : q.DelaysWithin (InRange p ops) := hq ▸ delays_inRange hstart ops
  have hallowed : q.Allowed config := hq ▸ (Allowed.created hc).attemptAll ops
  refine ⟨gap_le_longestGap q, hd, fun timer ht hgap hclock => ?_, fun now op f r hf => ?_⟩
  · have hdeadline : timer.deadline < clockLimit :=
      Nat.lt_of_le_of_lt (Nat.add_le_add_left hgap _) hclock
    simp [deadline?, ht, hdeadline]
  · rcases (FailStop.operate op).of_error hf with ⟨e, he, -⟩ | ⟨hrefused, -⟩
    · exact .inl ⟨e, he⟩
    · obtain ⟨hconfig, before, hbefore⟩ := hallowed
      cases hrefused with
      | speedBounds requested _ hnone =>
        exact absurd hf (operate_ne_speedBounds (hconfig ▸ hl.clamps))
      | delayRange requested speed hop hp hs hnone =>
        rw [hconfig] at hs
        obtain ⟨hlimit, hgap⟩ := (hd.pause InRange.down now).saved
        have hproduct := hl.product_of_scale?_eq_none hbefore hs hlimit hnone
        refine .inr ⟨rfl, hop, hp, hproduct, fun hratio => ?_⟩
        have hlong := hl.longestGap_lt_of_product hbefore hs hratio hproduct
        exact ⟨hlong, hgap.resolve_left (Nat.not_le_of_lt hlong)⟩

def speedSwing : List (Nanoseconds × Operation) := [
  (0, .command .pause), (0, .command (.setSpeed 64)), (0, .command .play),
  (0, .command (.setSpeed (.ofRatio false 1 10)))]

/-- While a gap of a second runs, the speed goes up and down six times, and up once more. -/
def swingingRun : List (Nanoseconds × Operation) :=
  [(0, .command (.load [.incoming 0 [97], .incoming 1000 [98]])), (0, .command .play),
    (0, .step)] ++ (List.replicate 6 speedSwing).flatten ++ speedSwing.take 3

def lastSlowing : Operation := .command (.setSpeed (.ofRatio false 1 10))

/-- Whether an operation fails because a delay cannot be scaled. -/
def overstretches (now : Nanoseconds) (op : Operation) (p : Playback Transcript) : Bool :=
  match (operate now op).run p with
  | .error .delayRange _ => true
  | _ => false

theorem exists_of_overstretches {op : Operation} {p : Playback Transcript}
    (h : overstretches now op p = true) : ∃ r, (operate now op).run p = .error .delayRange r := by
  unfold overstretches at h
  split at h
  · exact ⟨_, ‹_›⟩
  · cases h

/-- Six changes have stretched the delay beyond every gap before the seventh fails. -/
theorem inRange_after_swingingRun : ∃ p q r : Playback Transcript,
    create? { cell := ⟨8, 16⟩ } {} = .ok p ∧ ({} : Config).Limited ∧
      q = attemptAll swingingRun p ∧ (operate 0 lastSlowing).run q = .error .delayRange r ∧
      (∀ first second, q.gap first second ≤ longestGap) ∧ longestGap < (q.pause 0).savedDelay ∧
      Stretched p swingingRun (q.pause 0).savedDelay := by
  let s : Transcript := { cell := ⟨8, 16⟩ }
  let p : Playback Transcript := { config := {}, console := s, speed := Binary64.ofInt 1 }
  have hc : create? s {} = .ok p := create_default s
  have hover : overstretches 0 lastSlowing (attemptAll swingingRun p) = true := by
    decide +kernel
  obtain ⟨r, hr⟩ := exists_of_overstretches hover
  obtain ⟨hgap, -, -, hfault⟩ := inRange_of_attemptAll hc Config.limited_default rfl
  rcases hfault 0 lastSlowing .delayRange r hr with ⟨e, he⟩ | ⟨-, -, -, -, hlong⟩
  · cases he
  · obtain ⟨hlonger, hstretched⟩ := hlong Config.ratio_default
    exact ⟨p, _, r, hc, Config.limited_default, rfl, hr, hgap, hlonger, hstretched⟩

/-- The seventh time the speed cannot go down. -/
theorem delayRange_after_swingingRun : ∃ p q r : Playback Transcript,
    create? { cell := ⟨8, 16⟩ } {} = .ok p ∧ ({} : Config).Limited ∧
      (operateAll swingingRun).run p = .ok () q ∧
      (operate 0 lastSlowing).run q = .error .delayRange r := by
  let s : Transcript := { cell := ⟨8, 16⟩ }
  let p : Playback Transcript := { config := {}, console := s, speed := Binary64.ofInt 1 }
  have hrun : succeedsWith (operateAll swingingRun) (overstretches 0 lastSlowing) p = true := by
    decide +kernel
  obtain ⟨q, hq, hover⟩ := exists_of_succeedsWith hrun
  obtain ⟨r, hr⟩ := exists_of_overstretches hover
  exact ⟨p, q, r, create_default s, Config.limited_default, hq, hr⟩

end Playback
end SessionPlayback
