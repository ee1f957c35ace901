import SessionPlayback.Playback.Schedule
import SessionPlayback.Proofs.Metadata
import SessionPlayback.Proofs.Playback.Output

/-!
What the operations of the schedule come to. Each outcome names the branch that was taken, so that
an invariant is checked branch by branch without a look at the operation.
-/

namespace SessionPlayback.Playback

variable {σ : Type}

/-- How many live events before `bound` have not been counted for acknowledgement. -/
def uncounted (p : Playback σ) (bound : Nat) : Nat := if p.isLive then bound - p.acked else 0

theorem uncounted_congr {p q : Playback σ} (hl : q.isLive = p.isLive) (ha : q.acked = p.acked)
    (bound : Nat) : q.uncounted bound = p.uncounted bound := by
  simp only [uncounted, hl, ha]

theorem countAcks_eq (p : Playback σ) (bound : Nat) : p.countAcks bound =
    { p with
      pendingAcks := p.pendingAcks + p.uncounted bound
      acked := p.acked + p.uncounted bound } := by
  unfold countAcks uncounted
  by_cases hl : p.isLive = true
  · by_cases hb : p.acked < bound
    · have : p.acked + (bound - p.acked) = bound := by omega
      simp [hl, hb, this]
    · have : bound - p.acked = 0 := by omega
      simp [hl, hb, this]
  · simp [hl]

variable [Console σ]

/-- The event at the cursor has been applied and counted; nothing has been flushed. -/
def taken (p : Playback σ) (e : Event) : Playback σ :=
  { p with
    timer := none
    session := p.session.after e
    held := p.held.push (Console.cellMetrics p.console) e
    stopped := p.stopped || (e.isStop && !p.isLive)
    pendingAcks := p.pendingAcks + p.uncounted (p.index + 1)
    acked := p.acked + p.uncounted (p.index + 1) }

theorem apply_countAcks (p : Playback σ) (e : Event) :
    (({ p with timer := none } : Playback σ).apply e).countAcks (p.index + 1) = p.taken e := by
  rw [countAcks_eq]
  have hl : (({ p with timer := none } : Playback σ).apply e).isLive = p.isLive :=
    Metadata.after_live p.session e
  rw [uncounted_congr hl rfl]
  rfl

def showTaken (now : Nanoseconds) : Action σ Unit := do
  flush
  modify fun p =>
    let p := p.sendAcks
    scheduleNext { p with index := p.index + 1 } now

theorem step_run_none {now : Nanoseconds} {p : Playback σ} (he : p.events[p.index]? = none) :
    (step now).run p =
      .ok () { p with timer := none, paused := p.paused || !p.isLive } := by
  simp only [step, EStateM.run_bind, EStateM.run_modify, EStateM.run_get, he]
  cases hp : p.paused <;> cases hl : p.session.live <;> simp [hl, isLive]

theorem step_run_some {now : Nanoseconds} {p : Playback σ} {e : Event}
    (he : p.events[p.index]? = some e) :
    (step now).run p =
      if p.paused && !p.isLive then .ok () { p with timer := none }
      else if p.paused then .ok () { p.taken e with index := p.index + 1 }
      else (showTaken now).run (p.taken e) := by
  have ht := apply_countAcks p e
  simp only [step, EStateM.run_bind, EStateM.run_modify, EStateM.run_get, he]
  split
  · simp_all [isLive]
  · rename_i h
    change ¬(p.paused && !p.isLive) = true at h
    rw [if_neg h]
    simp only [playEvent, EStateM.run_bind, EStateM.run_modify, EStateM.run_get, ht]
    change EStateM.run (if p.paused = true then _ else _) _ = _
    split <;> rfl

omit [Console σ] in
theorem scheduleNext_frame (p : Playback σ) (now : Nanoseconds) :
    ∃ timer paused, p.scheduleNext now = { p with timer := timer, paused := paused } := by
  unfold scheduleNext
  split
  · exact ⟨p.timer, true, rfl⟩
  · split
    · exact ⟨_, p.paused, rfl⟩
    · split
      · exact ⟨p.timer, p.paused, rfl⟩
      · exact ⟨p.timer, true, rfl⟩

inductive Stepped (now : Nanoseconds) (p : Playback σ) : Playback σ → Prop where
  /-- A paused replay takes no step. -/
  | resting (hp : p.paused = true) (hl : p.isLive = false) :
      Stepped now p { p with timer := none }
  /-- There is nothing to apply; a replay that plays has ended. -/
  | idle (he : p.events[p.index]? = none) :
      Stepped now p { p with timer := none, paused := p.paused || !p.isLive }
  /-- A paused live session holds what the event puts out. -/
  | held (e : Event) (hp : p.paused = true) (hl : p.isLive = true)
      (he : p.events[p.index]? = some e) :
      Stepped now p { p.taken e with index := p.index + 1 }
  /-- The event has been shown and its successor is scheduled. -/
  | shown (e : Event) (n : Nat) (hp : p.paused = false) (he : p.events[p.index]? = some e)
      (hd : (p.taken e).Delivers n) :
      Stepped now p (scheduleNext { (p.taken e).delivered n with index := p.index + 1 } now)

theorem step_ok {now : Nanoseconds} {p q : Playback σ} (h : (step now).run p = .ok () q) :
    Stepped now p q := by
  cases he : p.events[p.index]? with
  | none =>
    rw [step_run_none he] at h
    cases h
    exact .idle he
  | some e =>
    rw [step_run_some he] at h
    split at h
    · rename_i hr
      simp only [Bool.and_eq_true, Bool.not_eq_true'] at hr
      cases h
      exact .resting hr.1 hr.2
    · rename_i hr
      split at h
      · rename_i hp
        cases h
        exact .held e hp (by simpa [hp] using hr) he
      · rename_i hp
        simp only [showTaken, run_bind_ok_iff, EStateM.run_modify] at h
        obtain ⟨r, hf, hq⟩ := h
        obtain ⟨n, hd, hr⟩ := sendAcks_of_flush hf
        cases hq
        rw [hr]
        exact .shown e n (by simpa using hp) he hd

/-- A playback that plays takes its step if the flush succeeds. -/
theorem step_of_flush (now : Nanoseconds) {p : Playback σ} {e : Event} (hp : p.paused = false)
    (he : p.events[p.index]? = some e)
    (hf : Console.Succeed (p.taken e).held.calls p.console) :
    ∃ n, (p.taken e).Delivers n ∧ (step now).run p =
      .ok () (scheduleNext { (p.taken e).delivered n with index := p.index + 1 } now) := by
  have hr : flush.run (p.taken e) = .ok () _ := flush_ok_iff.mpr ⟨hf, rfl⟩
  obtain ⟨n, hd, ha⟩ := sendAcks_of_flush hr
  refine ⟨n, hd, ?_⟩
  rw [step_run_some he]
  simp only [hp, Bool.false_and, Bool.false_eq_true, ↓reduceIte, showTaken]
  refine run_bind_ok_iff.mpr ⟨_, hr, ?_⟩
  rw [EStateM.run_modify, ha]
  rfl

theorem step_error {now : Nanoseconds} {p q : Playback σ} {f : Fault}
    (h : (step now).run p = .error f q) : ∃ e, p.paused = false ∧
      p.events[p.index]? = some e ∧ Spilled (p.taken e) q := by
  cases he : p.events[p.index]? with
  | none => simp [step_run_none he] at h
  | some e =>
    rw [step_run_some he] at h
    split at h
    · cases h
    · split at h
      · cases h
      · rename_i hp
        simp only [showTaken, run_bind_error_iff, EStateM.run_modify] at h
        rcases h with h | ⟨_, _, h⟩
        · exact ⟨e, by simpa using hp, rfl, flush_error h⟩
        · cases h

/-- Playing again: the events before the cursor are counted and nothing has been flushed. -/
def resumed (p : Playback σ) : Playback σ :=
  { p with
    paused := false
    pendingAcks := p.pendingAcks + p.uncounted p.index
    acked := p.acked + p.uncounted p.index }

def rearmed (now : Nanoseconds) (p : Playback σ) : Playback σ :=
  if p.index < p.events.length then { p.arm now p.savedDelay with savedDelay := 0 } else p

omit [Console σ] in
theorem rearmed_frame (now : Nanoseconds) (p : Playback σ) :
    ∃ timer delay, p.rearmed now = { p with timer := timer, savedDelay := delay } := by
  unfold rearmed
  split
  · exact ⟨_, 0, rfl⟩
  · exact ⟨p.timer, p.savedDelay, rfl⟩

def showResumed (now : Nanoseconds) : Action σ Unit := do
  flush
  modify fun p => p.sendAcks.rearmed now

theorem play_run (now : Nanoseconds) (p : Playback σ) : (play now).run p =
    if !p.paused then .ok () p
    else if p.isEnded then flush.run p
    else (showResumed now).run p.resumed := by
  have hr : countAcks { p with paused := false } p.index = p.resumed := by
    rw [countAcks_eq]
    rfl
  simp only [play, EStateM.run_bind, EStateM.run_get]
  split
  · rfl
  · split
    · rfl
    · simp only [EStateM.run_bind, EStateM.run_set, hr, showResumed]
      rfl

inductive Played (now : Nanoseconds) (p : Playback σ) : Playback σ → Prop where
  | already (hp : p.paused = false) : Played now p p
  /-- A replay that has ended only flushes. -/
  | ended (hp : p.paused = true) (he : p.isEnded = true)
      (hf : Console.Succeed p.held.calls p.console) :
      Played now p { p.called p.held.calls with held := {} }
  | resumed (n : Nat) (hp : p.paused = true) (he : p.isEnded = false)
      (hd : p.resumed.Delivers n) : Played now p ((p.resumed.delivered n).rearmed now)

theorem play_ok {now : Nanoseconds} {p q : Playback σ} (h : (play now).run p = .ok () q) :
    Played now p q := by
  rw [play_run] at h
  split at h
  · rename_i hp
    cases h
    exact .already (by simpa using hp)
  · rename_i hp
    split at h
    · rename_i he
      obtain ⟨hf, rfl⟩ := flush_ok_iff.mp h
      exact .ended (by simpa using hp) he hf
    · rename_i he
      simp only [showResumed, run_bind_ok_iff, EStateM.run_modify] at h
      obtain ⟨r, hf, hq⟩ := h
      obtain ⟨n, hd, hr⟩ := sendAcks_of_flush hf
      cases hq
      rw [hr]
      exact .resumed n (by simpa using hp) (by simpa using he) hd

/-- A paused playback plays on if the flush succeeds. -/
theorem play_of_flush (now : Nanoseconds) {p : Playback σ} (hp : p.paused = true)
    (he : p.isEnded = false) (hf : Console.Succeed p.held.calls p.console) :
    ∃ n, p.resumed.Delivers n ∧
      (play now).run p = .ok () ((p.resumed.delivered n).rearmed now) := by
  have hr : flush.run p.resumed = .ok () _ := flush_ok_iff.mpr ⟨hf, rfl⟩
  obtain ⟨n, hd, ha⟩ := sendAcks_of_flush hr
  refine ⟨n, hd, ?_⟩
  rw [play_run]
  simp only [hp, he, Bool.not_true, Bool.false_eq_true, ↓reduceIte, showResumed]
  refine run_bind_ok_iff.mpr ⟨_, hr, ?_⟩
  rw [EStateM.run_modify, ha]

theorem play_error {now : Nanoseconds} {p q : Playback σ} {f : Fault}
    (h : (play now).run p = .error f q) : Spilled p q ∨ Spilled p.resumed q := by
  rw [play_run] at h
  split at h
  · cases h
  · split at h
    · exact .inl (flush_error h)
    · simp only [showResumed, run_bind_error_iff, EStateM.run_modify] at h
      rcases h with h | ⟨_, _, h⟩
      · exact .inr (flush_error h)
      · cases h

omit [Console σ] in
theorem pause_of_paused {p : Playback σ} (now : Nanoseconds) (hp : p.paused = true) :
    p.pause now = p := by
  simp [pause, hp]

omit [Console σ] in
/-- A playback that plays is paused with what is left of the delay. -/
theorem pause_of_playing {p : Playback σ} (now : Nanoseconds) (hp : p.paused = false) :
    p.pause now = { p with
      paused := true
      timer := none
      savedDelay := p.timer.elim p.savedDelay (·.remainingAt now) } := by
  simp only [pause, hp]
  cases ht : p.timer <;> simp

omit [Console σ] in
theorem pause_frame (now : Nanoseconds) (p : Playback σ) : ∃ timer delay, p.pause now =
    { p with paused := true, timer := timer, savedDelay := delay } := by
  cases hp : p.paused with
  | true =>
    rw [pause_of_paused now hp]
    exact ⟨p.timer, p.savedDelay, by rw [← hp]⟩
  | false => exact ⟨none, _, pause_of_playing now hp⟩

theorem toggle_run (now : Nanoseconds) (p : Playback σ) : (toggle now).run p =
    if p.paused then (play now).run p else .ok () (p.pause now) := by
  simp only [toggle, EStateM.run_bind, EStateM.run_get]
  split <;> rfl

/-- Paused with a new speed, which has scaled what was left of the delay. -/
def rescaled (now : Nanoseconds) (speed : Binary64) (delay : Nanoseconds) (p : Playback σ) :
    Playback σ :=
  { p.pause now with speed, savedDelay := delay }

inductive SpeedChanged (now : Nanoseconds) (p : Playback σ) : Playback σ → Prop where
  | paused (speed : Binary64) (hp : p.paused = true) : SpeedChanged now p { p with speed }
  /-- A playback that plays is halted and plays again. -/
  | playing (speed : Binary64) (delay : Nanoseconds) (q : Playback σ) (hp : p.paused = false)
      (hd : Delay.scale? (p.pause now).savedDelay (p.speed / speed) = some delay)
      (hq : Played now (p.rescaled now speed delay) q) : SpeedChanged now p q

theorem changeSpeed_ok {now : Nanoseconds} {requested : Binary64} {p q : Playback σ}
    (h : (changeSpeed now requested).run p = .ok () q) : SpeedChanged now p q := by
  simp only [changeSpeed, EStateM.run_bind, EStateM.run_get] at h
  split at h
  · cases h
  · rename_i speed _
    split at h
    · rename_i hp
      cases h
      exact .paused speed hp
    · rename_i hp
      simp only [EStateM.run_bind, EStateM.run_set] at h
      split at h
      · cases h
      · rename_i delay hd
        exact .playing speed delay q (by simpa using hp) hd (play_ok h)

theorem changeSpeed_error {now : Nanoseconds} {requested : Binary64} {p q : Playback σ}
    {f : Fault} (h : (changeSpeed now requested).run p = .error f q) :
    q = p ∨ ∃ speed delay, p.paused = false ∧
      (q = p.rescaled now speed delay ∨
        (play now).run (p.rescaled now speed delay) = .error f q) := by
  simp only [changeSpeed, EStateM.run_bind, EStateM.run_get] at h
  split at h
  · cases h
    exact .inl rfl
  · rename_i speed _
    split at h
    · cases h
    · rename_i hp
      simp only [EStateM.run_bind, EStateM.run_set] at h
      right
      split at h
      · cases h
        exact ⟨speed, _, by simpa using hp, .inl rfl⟩
      · rename_i delay hd
        exact ⟨speed, delay, by simpa using hp, .inr h⟩

end SessionPlayback.Playback
