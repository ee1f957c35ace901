import SessionPlayback.Player.Command
import SessionPlayback.Proofs.Playback.Seek

/-!
Runs of a playback. The driver takes steps and carries out commands, in any order and at any points
of the clock; what each of them comes to is one of a few outcomes. A property that every outcome
keeps holds after every run.
-/

namespace SessionPlayback

inductive Operation where
  | step
  | command (c : Command)

/-- Whether an operation leaves it open if the session is followed live. -/
def Operation.keepsMode : Operation → Bool
  | .command .setLive => false
  | .command .setDisconnected => false
  | .command .reset => false
  | _ => true

namespace Playback

variable {σ : Type} [Console σ]

def operate (now : Nanoseconds) : Operation → Action σ Unit
  | .step => step now
  | .command c => carryOut now c

/-- Operations one after the other, each at its own point of the clock, up to the first that
fails. -/
def operateAll : List (Nanoseconds × Operation) → Action σ Unit
  | [] => pure ()
  | (now, op) :: rest => do
    operate now op
    operateAll rest

def attempt (now : Nanoseconds) (op : Operation) (p : Playback σ) : Playback σ :=
  match (operate now op).run p with
  | .ok _ q => q
  | .error _ q => q

/-- Operations one after the other; one that fails does not keep the others from being tried. -/
def attemptAll (ops : List (Nanoseconds × Operation)) (p : Playback σ) : Playback σ :=
  ops.foldl (fun p (now, op) => p.attempt now op) p

inductive Outcome (now : Nanoseconds) (p : Playback σ) : Operation → Playback σ → Prop where
  | unchanged (op : Operation) : Outcome now p op p
  | stepped (op : Operation) (q : Playback σ) (h : Stepped now p q) : Outcome now p op q
  | played (op : Operation) (q : Playback σ) (h : Played now p q) : Outcome now p op q
  | paused (op : Operation) : Outcome now p op (p.pause now)
  | speedChanged (op : Operation) (q : Playback σ) (h : SpeedChanged now p q) :
      Outcome now p op q
  | moved (op : Operation) (target : Nat) (q : Playback σ) (h : Moved now target p q) :
      Outcome now p op q
  | loaded (op : Operation) (events : List Event) : Outcome now p op (p.load events)
  | live : Outcome now p (.command .setLive) p.setLive
  | disconnected : Outcome now p (.command .setDisconnected) (p.setDisconnected now)
  | cleared (speed : Binary64)
      (h : Console.Succeed [.reset, .clear, .resize p.config.initialGeometry] p.console) :
      Outcome now p (.command .reset) (p.cleared speed)

theorem operate_ok {now : Nanoseconds} {op : Operation} {p q : Playback σ}
    (h : (operate now op).run p = .ok () q) : Outcome now p op q := by
  cases op with
  | step => exact .stepped _ q (step_ok h)
  | command c =>
    simp only [operate] at h
    cases c with
    | play => exact .played _ q (play_ok h)
    | pause => cases h; exact .paused _
    | toggle =>
      rw [carryOut, toggle_run] at h
      split at h
      · exact .played _ q (play_ok h)
      · cases h; exact .paused _
    | next => exact .moved _ _ q (moveTo_ok h)
    | previous =>
      rw [carryOut, previous_run] at h
      split at h
      · exact .moved _ _ q (moveTo_ok h)
      · cases h; exact .unchanged _
    | seek target => exact .moved _ target q (moveTo_ok h)
    | increaseSpeed => exact .speedChanged _ q (changeSpeed_ok h)
    | decreaseSpeed => exact .speedChanged _ q (changeSpeed_ok h)
    | setSpeed speed => exact .speedChanged _ q (changeSpeed_ok h)
    | load events => cases h; exact .loaded _ events
    | setLive => cases h; exact .live
    | setDisconnected => cases h; exact .disconnected
    | reset =>
      obtain ⟨speed, hs, rfl⟩ := reset_ok h
      exact .cleared speed hs
    | shutdown => cases h; exact .unchanged _

inductive Failed (now : Nanoseconds) (p : Playback σ) : Playback σ → Prop where
  /-- The event has been taken and part of what is held was put out. -/
  | stepped (e : Event) (q : Playback σ) (hp : p.paused = false)
      (he : p.events[p.index]? = some e) (h : Spilled (p.taken e) q) : Failed now p q
  | played (q : Playback σ) (h : Spilled p q ∨ Spilled p.resumed q) : Failed now p q
  | unchanged : Failed now p p
  /-- A change of speed has halted the playback. -/
  | rescaled (speed : Binary64) (delay : Nanoseconds) :
      Failed now p (p.rescaled now speed delay)
  | replayed (speed : Binary64) (delay : Nanoseconds) (q : Playback σ)
      (h : Spilled (p.rescaled now speed delay) q ∨
        Spilled (p.rescaled now speed delay).resumed q) : Failed now p q
  | moved (q : Playback σ) (h : Disturbed (p.halted now) q) : Failed now p q

theorem Failed.of_changeSpeed {now : Nanoseconds} {requested : Binary64} {p q : Playback σ}
    {f : Fault} (h : (changeSpeed now requested).run p = .error f q) : Failed now p q := by
  rcases changeSpeed_error h with rfl | ⟨speed, delay, -, rfl | hq⟩
  · exact .unchanged
  · exact .rescaled speed delay
  · exact .replayed speed delay q (play_error hq)

theorem operate_error {now : Nanoseconds} {op : Operation} {p q : Playback σ} {f : Fault}
    (hk : op.keepsMode = true) (h : (operate now op).run p = .error f q) : Failed now p q := by
  cases op with
  | step =>
    obtain ⟨e, hp, he, hq⟩ := step_error h
    exact .stepped e q hp he hq
  | command c =>
    simp only [operate] at h
    cases c with
    | play => exact .played q (play_error h)
    | pause => cases h
    | toggle =>
      rw [carryOut, toggle_run] at h
      split at h
      · exact .played q (play_error h)
      · cases h
    | next => exact .moved q (moveTo_error h)
    | previous =>
      rw [carryOut, previous_run] at h
      split at h
      · exact .moved q (moveTo_error h)
      · cases h
    | seek target => exact .moved q (moveTo_error h)
    | increaseSpeed => exact .of_changeSpeed h
    | decreaseSpeed => exact .of_changeSpeed h
    | setSpeed speed => exact .of_changeSpeed h
    | load events => cases h
    | setLive => cases hk
    | setDisconnected => cases hk
    | reset => cases hk
    | shutdown => cases h

theorem operateAll_append {front back : List (Nanoseconds × Operation)} {p r : Playback σ} :
    (operateAll (front ++ back)).run p = .ok () r ↔
      ∃ q, (operateAll front).run p = .ok () q ∧ (operateAll back).run q = .ok () r := by
  induction front generalizing p with
  | nil =>
    constructor
    · exact fun h => ⟨p, rfl, h⟩
    · rintro ⟨q, hq, h⟩
      cases hq
      exact h
  | cons o front ih =>
    rw [List.cons_append, operateAll, run_bind_ok_iff, operateAll]
    simp only [run_bind_ok_iff, ih]
    constructor
    · rintro ⟨s, hs, q, hq, hr⟩
      exact ⟨q, ⟨s, hs, hq⟩, hr⟩
    · rintro ⟨q, ⟨s, hs, hq⟩, hr⟩
      exact ⟨s, hs, q, hq, hr⟩

/-- What every outcome keeps, every run keeps. -/
theorem operateAll_keeps {I : Playback σ → Prop} {ops : List (Nanoseconds × Operation)}
    (hstep : ∀ now op p q, (now, op) ∈ ops → Outcome now p op q → I p → I q)
    {p q : Playback σ} (h : (operateAll ops).run p = .ok () q) (hp : I p) : I q := by
  induction ops generalizing p with
  | nil =>
    cases h
    exact hp
  | cons o rest ih =>
    obtain ⟨r, ho, hr⟩ := run_bind_ok_iff.mp h
    refine ih (fun now op p q hm => hstep now op p q (by simp [hm])) hr ?_
    exact hstep _ _ _ _ (by simp) (operate_ok ho) hp

/-- What an operation keeps if it succeeds and if it fails, it keeps in any case. -/
theorem attempt_keeps {I : Playback σ → Prop} {now : Nanoseconds} {op : Operation}
    {p : Playback σ} (hk : op.keepsMode = true) (hok : ∀ q, Outcome now p op q → I q)
    (herror : ∀ q, Failed now p q → I q) : I (p.attempt now op) := by
  unfold attempt
  split
  · rename_i hq
    exact hok _ (operate_ok hq)
  · rename_i hq
    exact herror _ (operate_error hk hq)

/-- What every single operation keeps, a run keeps, whichever of them fail. -/
theorem attemptAll_keeps {I : Playback σ → Prop} {ops : List (Nanoseconds × Operation)}
    (hstep : ∀ now op p, (now, op) ∈ ops → I p → I (p.attempt now op)) {p : Playback σ}
    (hp : I p) : I (attemptAll ops p) := by
  induction ops generalizing p with
  | nil => exact hp
  | cons o rest ih =>
    exact ih (fun now op p hm => hstep now op p (by simp [hm])) (hstep o.1 o.2 p (by simp) hp)

end Playback
end SessionPlayback
