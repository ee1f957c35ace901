import SessionPlayback.Player
import SessionPlayback.Proofs.Config
import SessionPlayback.Proofs.Playback.Drain
import SessionPlayback.Proofs.Playback.Pace

/-!
A playback stops at the first call that fails, acknowledgements excepted: it makes no further call
and passes the error on. An operation that gives up without such a call is a change of speed that
cannot be made, or a fresh start without a speed to start with, and has made no call at all.
-/

namespace SessionPlayback

namespace Console

variable {σ : Type} [Console σ]

/-- The calls, made one after the other, all succeed, acknowledgements excepted. -/
def Survive : List Call → σ → Prop
  | [], _ => True
  | call :: rest, s =>
    (call ≠ .acknowledge → (perform call s).1 = .ok ()) ∧ Survive rest (next call s)

theorem survive_append {front back : List Call} {s : σ} :
    Survive (front ++ back) s ↔ Survive front s ∧ Survive back (after front s) := by
  induction front generalizing s with
  | nil => simp [Survive]
  | cons call rest ih => simp [Survive, ih, and_assoc]

theorem survive_replicate (n : Nat) (s : σ) : Survive (.replicate n .acknowledge) s := by
  induction n generalizing s with
  | zero => trivial
  | succ n ih => exact ⟨fun hne => absurd rfl hne, ih _⟩

def Survives (s t : σ) : Prop := ∃ calls, Survive calls s ∧ t = after calls s

def Breaks (e : Error) (s t : σ) : Prop :=
  ∃ mid call, Survives s mid ∧ call ≠ .acknowledge ∧ (perform call mid).1 = .error e ∧
    t = next call mid

namespace Survives

variable {s t u : σ}

theorem refl (s : σ) : Survives s s := ⟨[], trivial, rfl⟩

theorem trans (h : Survives s t) (h' : Survives t u) : Survives s u := by
  obtain ⟨front, hf, rfl⟩ := h
  obtain ⟨back, hb, rfl⟩ := h'
  exact ⟨front ++ back, survive_append.mpr ⟨hf, hb⟩, (after_append front back s).symm⟩

theorem acknowledgements (n : Nat) (s : σ) : Survives s (after (.replicate n .acknowledge) s) :=
  ⟨_, survive_replicate n s, rfl⟩

theorem breaks {e : Error} (h : Survives s t) (h' : Breaks e t u) : Breaks e s u := by
  obtain ⟨mid, call, hmid, hrest⟩ := h'
  exact ⟨mid, call, h.trans hmid, hrest⟩

end Survives

end Console

namespace Playback

variable {σ : Type} [Console σ]

theorem survives_sendAcks (p : Playback σ) :
    Console.Survives p.console p.sendAcks.console := by
  obtain ⟨n, -, -, hs⟩ := sendAcks_eq p
  rw [hs]
  exact .acknowledgements n p.console

theorem survives_acknowledgeReceipt (count : Nat) (p : Playback σ) :
    Console.Survives p.console (acknowledgeReceipt count p).console := by
  obtain ⟨n, -, hs⟩ := acknowledgeReceipt_eq count p
  rw [hs]
  exact .acknowledgements n p.console

theorem survives_pause (now : Nanoseconds) (p : Playback σ) :
    Console.Survives p.console (p.pause now).console := by
  obtain ⟨timer, delay, hs⟩ := pause_frame now p
  rw [hs]
  exact .refl p.console

/-- The first call that fails ends the action with its error, unless it is an acknowledgement; an
action that gives up for another reason gives up as `refused` says. -/
def FailStop (refused : Fault → Playback σ → Prop) (x : Action σ Unit) (p : Playback σ) : Prop :=
  match x.run p with
  | .ok _ q => Console.Survives p.console q.console
  | .error f q => (∃ e, f = .failed e ∧ Console.Breaks e p.console q.console) ∨
      refused f q ∧ Console.Survives p.console q.console

namespace FailStop

variable {refused : Fault → Playback σ → Prop} {x y : Action σ Unit} {p q : Playback σ}

theorem of_run
    (hok : ∀ q, x.run p = .ok () q → Console.Survives p.console q.console)
    (herror : ∀ f q, x.run p = .error f q →
      (∃ e, f = .failed e ∧ Console.Breaks e p.console q.console) ∨
        refused f q ∧ Console.Survives p.console q.console) : FailStop refused x p := by
  unfold FailStop
  cases hr : x.run p with
  | ok u q => exact hok q hr
  | error f q => exact herror f q hr

theorem of_ok (h : FailStop refused x p) (hr : x.run p = .ok () q) :
    Console.Survives p.console q.console := by
  unfold FailStop at h
  rwa [hr] at h

theorem of_error {f : Fault} (h : FailStop refused x p) (hr : x.run p = .error f q) :
    (∃ e, f = .failed e ∧ Console.Breaks e p.console q.console) ∨
      refused f q ∧ Console.Survives p.console q.console := by
  unfold FailStop at h
  rwa [hr] at h

/-- It matters on which surfaces the action runs, and not what else the playback holds. -/
theorem congr {r : Playback σ} (he : x.run p = y.run r) (hc : r.console = p.console)
    (h : FailStop refused y r) : FailStop refused x p := by
  unfold FailStop at h ⊢
  rwa [he, ← hc]

theorem of_pure : FailStop refused (pure ()) p := .refl p.console

theorem of_modify {g : Playback σ → Playback σ}
    (h : Console.Survives p.console (g p).console) : FailStop refused (modify g) p := h

theorem of_set (h : Console.Survives p.console q.console) : FailStop refused (set q) p := h

theorem of_throw {f : Fault} (h : refused f p) : FailStop refused (throw f) p :=
  .inr ⟨h, .refl p.console⟩

theorem of_get {g : Playback σ → Action σ Unit} (h : FailStop refused (g p) p) :
    FailStop refused (get >>= g) p := h

theorem bind {g : Unit → Action σ Unit} (hx : FailStop refused x p)
    (hg : ∀ q, x.run p = .ok () q → FailStop refused (g ()) q) :
    FailStop refused (x >>= g) p := by
  refine of_run (fun r hr => ?_) fun f r hr => ?_
  · obtain ⟨q, hq, hr⟩ := run_bind_ok_iff.mp hr
    exact (hx.of_ok hq).trans ((hg q hq).of_ok hr)
  · rcases run_bind_error_iff.mp hr with hr | ⟨q, hq, hr⟩
    · exact hx.of_error hr
    · have hpq := hx.of_ok hq
      rcases (hg q hq).of_error hr with ⟨e, hf, hb⟩ | ⟨hf, hs⟩
      · exact .inl ⟨e, hf, hpq.breaks hb⟩
      · exact .inr ⟨hf, hpq.trans hs⟩

theorem perform {call : Call} (hc : call ≠ .acknowledge) :
    FailStop refused (perform call) p := by
  unfold FailStop
  rw [perform_run]
  cases he : (Console.perform call p.console).1 with
  | ok u => exact ⟨[call], ⟨fun _ => he, trivial⟩, rfl⟩
  | error e => exact .inl ⟨e, rfl, p.console, call, .refl _, hc, he, rfl⟩

theorem flush : FailStop refused flush p := by
  have hpass (held : Held) (p : Playback σ) (call : Call) (hc : call ≠ .acknowledge) :
      FailStop refused (do set { p with held }; Playback.perform call) p :=
    .bind (.of_set (.refl p.console)) fun _ _ => perform hc
  refine .bind (.of_get ?_) fun p _ => .bind (.of_get ?_) fun p _ => .of_get ?_
  · split
    · exact of_pure
    · exact hpass _ p _ (by simp)
  · split
    · exact of_pure
    · exact hpass _ p _ (by simp)
  · split
    · exact of_pure
    · exact hpass _ p _ (by simp)

theorem step (now : Nanoseconds) : FailStop refused (step now) p := by
  cases he : p.events[p.index]? with
  | none =>
    refine .of_run (fun q hq => ?_) fun f q hq => ?_
    · rw [step_run_none he] at hq
      cases hq
      exact .refl p.console
    · rw [step_run_none he] at hq
      cases hq
  | some e =>
    have hshow : FailStop refused (showTaken now) (p.taken e) := by
      refine .bind flush fun q _ => .of_modify ?_
      obtain ⟨timer, paused, hs⟩ :=
        scheduleNext_frame { q.sendAcks with index := q.sendAcks.index + 1 } now
      dsimp only
      rw [hs]
      exact survives_sendAcks q
    have hrun : (Playback.step now).run p = _ := step_run_some he
    split at hrun
    · exact .congr (y := pure ()) hrun rfl .of_pure
    · split at hrun
      · exact .congr (y := pure ()) hrun rfl .of_pure
      · exact .congr hrun rfl hshow

theorem play (now : Nanoseconds) : FailStop refused (play now) p := by
  have hshow : FailStop refused (showResumed now) p.resumed := by
    refine .bind flush fun q _ => .of_modify ?_
    obtain ⟨timer, delay, hs⟩ := rearmed_frame now q.sendAcks
    rw [hs]
    exact survives_sendAcks q
  have hrun := play_run now p
  split at hrun
  · exact .congr (y := pure ()) hrun rfl .of_pure
  · split at hrun
    · exact .congr hrun rfl flush
    · exact .congr hrun rfl hshow

theorem moveTo (now : Nanoseconds) (target : Nat) : FailStop refused (moveTo now target) p := by
  have hhalted : (p.halted now).console = p.console := by rw [halted_eq]
  have hland (events : List Event) (live : Bool) (p : Playback σ) :
      FailStop refused (land target events live) p := by
    refine .bind (.of_modify ?_) fun q _ => .bind flush fun q _ => .of_modify (.refl q.console)
    suffices h : ∀ p : Playback σ, (absorbAll live events p).console = p.console from
      h p ▸ .refl _
    intro p
    induction events generalizing p with
    | nil => rfl
    | cons e events ih => exact ih _
  have hrewind (p : Playback σ) : FailStop refused rewind p :=
    .bind (perform (by simp)) fun _ _ => .bind (perform (by simp)) fun q _ =>
      .of_modify (.refl q.console)
  have hrun := moveTo_run now target p
  split at hrun
  · exact .congr (y := pure ()) hrun rfl .of_pure
  · split at hrun
    · exact .congr hrun hhalted (.bind (hrewind _) fun q _ => hland _ _ q)
    · exact .congr hrun hhalted (hland _ _ _)

end FailStop

/-- When an operation gives up although no call has failed: a requested speed cannot be brought
within the limits, or the delay cannot be scaled. -/
inductive Refused (now : Nanoseconds) (p : Playback σ) (op : Operation) :
    Fault → Playback σ → Prop where
  | speedBounds (requested : Binary64) (q : Playback σ)
      (h : p.config.clampSpeed? requested = none) : Refused now p op .speedBounds q
  | delayRange (requested speed : Binary64) (hop : op.changesSpeed = true)
      (hp : p.paused = false) (hs : p.config.clampSpeed? requested = some speed)
      (hd : Delay.scale? (p.pause now).savedDelay (p.speed / speed) = none) :
      Refused now p op .delayRange { p.pause now with speed }

namespace FailStop

variable {p : Playback σ} {now : Nanoseconds}

theorem changeSpeed {op : Operation} (hop : op.changesSpeed = true) (requested : Binary64) :
    FailStop (Refused now p op) (changeSpeed now requested) p := by
  refine .of_get ?_
  cases hs : p.config.clampSpeed? requested with
  | none => exact .of_throw (.speedBounds requested p hs)
  | some speed =>
    cases hp : p.paused with
    | true => exact .of_set (.refl p.console)
    | false =>
      have hset {q : Playback σ} (hq : q.console = p.console) :
          FailStop (Refused now p op) (set { p.pause now with speed }) q := by
        refine .of_set ?_
        rw [hq]
        exact survives_pause now p
      refine .bind (hset rfl) fun q hq => ?_
      cases hq
      dsimp only
      cases hd : Delay.scale? (p.pause now).savedDelay (p.speed / speed) with
      | none => exact .of_throw (.delayRange requested speed hop hp hs hd)
      | some delay => exact .bind (.of_set (.refl _)) fun _ _ => play now

theorem reset : FailStop (Refused now p (.command .reset)) reset p := by
  refine .bind (.of_modify (.refl p.console)) fun q hq => .of_get ?_
  cases hq
  cases hs : p.config.clampSpeed? p.config.speed with
  | none =>
    exact .of_throw (.speedBounds p.config.speed _ hs)
  | some speed =>
    exact .bind (.of_set (.refl _)) fun _ _ => .bind (perform (by simp)) fun _ _ =>
      .bind (perform (by simp)) fun _ _ => perform (by simp)

/-- Every operation stops at the first call that fails. -/
theorem operate (op : Operation) : FailStop (Refused now p op) (operate now op) p := by
  cases op with
  | step => exact step now
  | command c =>
    cases c with
    | play => exact play now
    | pause => exact .of_modify (survives_pause now p)
    | toggle =>
      refine .of_get ?_
      split
      · exact play now
      · exact .of_modify (survives_pause now p)
    | next => exact moveTo now p.index
    | previous =>
      refine .of_get ?_
      split
      · exact moveTo now _
      · exact .of_pure
    | seek target => exact moveTo now target
    | increaseSpeed => exact changeSpeed rfl _
    | decreaseSpeed => exact changeSpeed rfl _
    | setSpeed speed => exact changeSpeed rfl speed
    | load events => exact .of_modify (.refl p.console)
    | setLive => exact .of_modify (.refl p.console)
    | setDisconnected =>
      refine .of_modify ?_
      rw [setDisconnected_eq]
      exact .refl p.console
    | reset => exact reset
    | shutdown => exact .of_pure

variable {refused : Fault → Playback σ → Prop}

theorem drain (now : Nanoseconds) : FailStop refused (drain now) p := by
  suffices h : ∀ bound (p : Playback σ), FailStop refused (drainFor now bound) p from
    .of_get (h p.remaining p)
  intro bound
  induction bound with
  | zero => exact fun p => .of_pure
  | succ bound ih =>
    intro p
    have hrun := drainFor_run now bound p
    split at hrun
    · exact .congr hrun rfl (.bind (step now) fun q _ => ih q)
    · exact .congr (y := pure ()) hrun rfl .of_pure

theorem takeBatch (now : Nanoseconds) (batch : List Event) :
    FailStop refused (takeBatch now batch) p := by
  refine .bind (.of_modify (.refl p.console)) fun q _ => .of_get ?_
  have hdisconnect (q : Playback σ) :
      FailStop refused (modify (·.setDisconnected now)) q := by
    refine .of_modify ?_
    rw [setDisconnected_eq]
    exact .refl q.console
  split
  · refine .bind (drain now) fun r _ => ?_
    split
    · exact hdisconnect r
    · exact .of_pure
  · refine .bind (.of_modify (survives_acknowledgeReceipt _ q)) fun r _ => ?_
    split
    · exact play now
    · exact .of_pure

end FailStop

/-- With limits that serve as such no operation gives up on account of them. -/
theorem operate_ne_speedBounds {now : Nanoseconds} {op : Operation} {p q : Playback σ}
    (hc : p.config.Clamps) : (operate now op).run p ≠ .error .speedBounds q := by
  intro h
  rcases (FailStop.operate op).of_error h with ⟨e, he, -⟩ | ⟨hrefused, -⟩
  · cases he
  · cases hrefused with
    | speedBounds requested _ hnone =>
      obtain ⟨v, hv, -⟩ := hc requested
      simp [hv] at hnone

end Playback
end SessionPlayback
