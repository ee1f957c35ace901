import Mathlib.Data.List.Induction
import SessionPlayback.Console.Transcript
import SessionPlayback.Proofs.Playback.Advance
import SessionPlayback.Proofs.Playback.Replay

/-!
A live session has no end: while it plays, neither its events nor any operation but those meant to
stop it make it stop. The exception is a session that was a replay first, met its end and was made
live afterwards. It still counts as stopped, and its next event pauses it.
-/

namespace SessionPlayback

/-- Whether an operation is not meant to stop a playback that plays. -/
def Operation.playsOn : Operation → Bool
  | .step => true
  | .command .play => true
  | .command .increaseSpeed => true
  | .command .decreaseSpeed => true
  | .command (.setSpeed _) => true
  | .command (.load _) => true
  | .command .setLive => true
  | .command .shutdown => true
  | _ => false

/-- What can be done to a playback: the operations of a driver, and parts of them by themselves. -/
inductive Access where
  | operation (op : Operation)
  /-- Apply an event, which need not be in the sequence, and flush nothing. -/
  | absorb (e : Event)
  | flush
  | acknowledgeReceipt (count : Nat)

def Access.playsOn : Access → Bool
  | .operation op => op.playsOn
  | _ => true

theorem Operation.keepsMode_eq_false {op : Operation} (h : op.keepsMode = false) :
    op = .command .setLive ∨ op = .command .setDisconnected ∨ op = .command .reset := by
  cases op with
  | step => cases h
  | command c =>
    cases c with
    | setLive => exact .inl rfl
    | setDisconnected => exact .inr (.inl rfl)
    | reset => exact .inr (.inr rfl)
    | _ => cases h

namespace Playback

variable {σ : Type}

def Keeps (I : Playback σ → Prop) (x : Action σ Unit) : Prop := ∀ p, I p → Ends I I x p

namespace Keeps

variable {I : Playback σ → Prop} {x : Action σ Unit}

theorem of_modify {f : Playback σ → Playback σ} (h : ∀ p, I p → I (f p)) :
    Keeps I (modify f) := h

theorem of_pure : Keeps I (pure ()) := fun _ h => h

/-- What is read is the playback, of which the property holds. -/
theorem of_get {f : Playback σ → Action σ Unit} (h : ∀ p, I p → Keeps I (f p)) :
    Keeps I (get >>= f) := fun p hp => h p hp p hp

theorem bind {f : Unit → Action σ Unit} (hx : Keeps I x) (hf : Keeps I (f ())) :
    Keeps I (x >>= f) := fun p hp => (hx p hp).bind hf

theorem of_ok {p q : Playback σ} (hx : Keeps I x) (hp : I p) (h : x.run p = .ok () q) : I q :=
  (hx p hp).of_ok h

theorem attempt {now : Nanoseconds} {op : Operation} [Console σ] {p : Playback σ}
    (hx : Keeps I (operate now op)) (hp : I p) : I (p.attempt now op) := by
  unfold Playback.attempt
  split
  · exact (hx p hp).of_ok ‹_›
  · exact (hx p hp).of_error ‹_›

end Keeps

structure Unstopped (p : Playback σ) : Prop where
  live : p.isLive = true
  notStopped : p.stopped = false

namespace Unstopped

variable {p : Playback σ}

theorem pause (h : p.Unstopped) (now : Nanoseconds) : (p.pause now).Unstopped := by
  obtain ⟨timer, delay, hs⟩ := pause_frame now p
  rw [hs]
  exact ⟨h.live, h.notStopped⟩

theorem halted (h : p.Unstopped) (now : Nanoseconds) : (p.halted now).Unstopped :=
  ⟨(h.pause now).live, (h.pause now).notStopped⟩

variable [Console σ]

theorem taken (h : p.Unstopped) (e : Event) : (p.taken e).Unstopped := by
  refine ⟨(Metadata.after_live p.session e).trans h.live, ?_⟩
  change (p.stopped || (e.isStop && !p.isLive)) = false
  simp [h.live, h.notStopped]

theorem absorbed (h : p.Unstopped) (events : List Event) : (p.absorbed events).Unstopped := by
  refine ⟨(Metadata.foldl_after_live events p.session).trans h.live, ?_⟩
  simp [Playback.absorbed, h.live, h.notStopped]

theorem sendAcks (h : p.Unstopped) : p.sendAcks.Unstopped := by
  obtain ⟨n, -, -, hs⟩ := sendAcks_eq p
  rw [hs]
  exact ⟨h.live, h.notStopped⟩

theorem perform (call : Call) : Keeps (σ := σ) Unstopped (perform call) := by
  intro p h
  unfold Ends
  rw [perform_run]
  cases (Console.perform call p.console).1 <;> exact ⟨h.live, h.notStopped⟩

theorem flush : Keeps (σ := σ) Unstopped flush := by
  have hset {held : Held} {p : Playback σ} (h : p.Unstopped) :
      Keeps Unstopped (set { p with held } : Action σ Unit) :=
    Keeps.of_modify fun _ _ => ⟨h.live, h.notStopped⟩
  refine .bind (.of_get fun p h => ?_) (.bind (.of_get fun p h => ?_) (.of_get fun p h => ?_))
  · split
    · exact .of_pure
    · exact .bind (hset h) (perform _)
  · split
    · exact .of_pure
    · exact .bind (hset h) (perform _)
  · split
    · exact .of_pure
    · exact .bind (hset h) (perform _)

theorem showTaken (now : Nanoseconds) : Keeps (σ := σ) Unstopped (showTaken now) := by
  refine .bind flush (.of_modify fun p h => ?_)
  obtain ⟨timer, paused, hs⟩ :=
    scheduleNext_frame { p.sendAcks with index := p.sendAcks.index + 1 } now
  dsimp only
  rw [hs]
  exact ⟨h.sendAcks.live, h.sendAcks.notStopped⟩

theorem step (now : Nanoseconds) : Keeps (σ := σ) Unstopped (step now) := by
  intro p h
  unfold Ends
  cases he : p.events[p.index]? with
  | none =>
    rw [step_run_none he]
    exact ⟨h.live, h.notStopped⟩
  | some e =>
    have ht := h.taken e
    rw [step_run_some he]
    split_ifs
    · exact ⟨h.live, h.notStopped⟩
    · exact ⟨ht.live, ht.notStopped⟩
    · exact showTaken now _ ht

theorem play (now : Nanoseconds) : Keeps (σ := σ) Unstopped (play now) := by
  intro p h
  have hshow : Keeps (σ := σ) Unstopped (showResumed now) := by
    refine .bind flush (.of_modify fun p h => ?_)
    obtain ⟨timer, delay, hs⟩ := rearmed_frame now p.sendAcks
    rw [hs]
    exact ⟨h.sendAcks.live, h.sendAcks.notStopped⟩
  unfold Ends
  rw [play_run]
  split_ifs
  · exact h
  · exact flush p h
  · exact hshow _ ⟨h.live, h.notStopped⟩

theorem changeSpeed (now : Nanoseconds) (requested : Binary64) :
    Keeps (σ := σ) Unstopped (changeSpeed now requested) := by
  refine .of_get fun p h => ?_
  have hset {q : Playback σ} (hq : q.Unstopped) : Keeps Unstopped (set q : Action σ Unit) :=
    Keeps.of_modify fun _ _ => hq
  have hthrow (f : Fault) : Keeps Unstopped (throw f : Action σ Unit) := fun _ hq => hq
  split
  · exact hthrow _
  · have hp := h.pause now
    split
    · exact hset ⟨h.live, h.notStopped⟩
    · refine .bind (hset ⟨hp.live, hp.notStopped⟩) ?_
      split
      · exact hthrow _
      · exact .bind (hset ⟨hp.live, hp.notStopped⟩) (play now)

theorem rewind : Keeps (σ := σ) Unstopped rewind :=
  .bind (perform _) (.bind (perform _) (.of_modify fun _ h => ⟨h.live, rfl⟩))

theorem moveTo (now : Nanoseconds) (target : Nat) :
    Keeps (σ := σ) Unstopped (moveTo now target) := by
  intro p h
  have hland (events : List Event) : Keeps (σ := σ) Unstopped (land target events true) := by
    refine .bind (.of_modify fun p h => ?_)
      (.bind flush (.of_modify fun _ h => ⟨h.live, h.notStopped⟩))
    rw [← h.live, absorbAll_eq]
    exact h.absorbed events
  unfold Ends
  rw [moveTo_run, h.live]
  split_ifs
  · exact h
  · exact Keeps.bind rewind (hland _) _ (h.halted now)
  · exact hland _ _ (h.halted now)

/-- Only another mode can bring a live session that is not stopped to count as stopped. -/
theorem operate {op : Operation} (hk : op.keepsMode = true) (now : Nanoseconds) :
    Keeps (σ := σ) Unstopped (operate now op) := by
  cases op with
  | step => exact step now
  | command c =>
    cases c with
    | play => exact play now
    | pause => exact .of_modify fun _ h => h.pause now
    | toggle =>
      refine .of_get fun p _ => ?_
      split
      · exact play now
      · exact .of_modify fun _ h => h.pause now
    | next => exact .of_get fun p _ => moveTo now p.index
    | previous =>
      refine .of_get fun p _ => ?_
      split
      · exact moveTo now _
      · exact .of_pure
    | seek target => exact moveTo now target
    | increaseSpeed => exact .of_get fun p _ => changeSpeed now _
    | decreaseSpeed => exact .of_get fun p _ => changeSpeed now _
    | setSpeed speed => exact changeSpeed now speed
    | load events => exact .of_modify fun _ h => ⟨h.live, h.notStopped⟩
    | setLive => cases hk
    | setDisconnected => cases hk
    | reset => cases hk
    | shutdown => exact .of_pure

theorem attemptAll {ops : List (Nanoseconds × Operation)}
    (hk : ∀ o ∈ ops, o.2.keepsMode = true) (h : p.Unstopped) :
    (attemptAll ops p).Unstopped :=
  attemptAll_keeps (fun now _ _ hm h => (operate (hk _ hm) now).attempt h) h

end Unstopped

variable [Console σ]

def access (now : Nanoseconds) : Access → Action σ Unit
  | .operation op => operate now op
  | .absorb e => modify (·.absorb e)
  | .flush => flush
  | .acknowledgeReceipt count => modify (acknowledgeReceipt count)

def accessAll (accesses : List (Nanoseconds × Access)) : Action σ Unit :=
  forM accesses fun (now, a) => access now a

/-- Only an operation changes the mode, or whether a playback plays or counts as stopped. -/
theorem access_ok {now : Nanoseconds} {a : Access} {p q : Playback σ}
    (h : (access now a).run p = .ok () q) :
    (∃ op, a = .operation op ∧ (operate now op).run p = .ok () q) ∨
      a ≠ .operation .step ∧
        q.isLive = p.isLive ∧ q.stopped = p.stopped ∧ q.paused = p.paused := by
  cases a with
  | operation op => exact .inl ⟨op, rfl, h⟩
  | absorb e =>
    cases h
    exact .inr ⟨nofun, Metadata.after_live p.session e, rfl, rfl⟩
  | flush =>
    obtain ⟨-, rfl⟩ := flush_ok_iff.mp h
    exact .inr ⟨nofun, rfl, rfl, rfl⟩
  | acknowledgeReceipt count =>
    obtain ⟨n, -, he⟩ := acknowledgeReceipt_eq count p
    have hq : acknowledgeReceipt count p = q := by
      cases h
      rfl
    rw [← hq, he]
    exact .inr ⟨nofun, rfl, rfl, rfl⟩

/-- Before some command of the run made the session live, it had stopped as a replay. -/
def MadeLiveStopped (start : Playback σ) (accesses : List (Nanoseconds × Access)) : Prop :=
  ∃ front now back p, accesses = front ++ (now, .operation (.command .setLive)) :: back ∧
    (accessAll front).run start = .ok () p ∧ p.isLive = false ∧ p.stopped = true

theorem MadeLiveStopped.append {start : Playback σ} {accesses : List (Nanoseconds × Access)}
    (h : MadeLiveStopped start accesses) (more : List (Nanoseconds × Access)) :
    MadeLiveStopped start (accesses ++ more) := by
  obtain ⟨front, now, back, p, rfl, hp, hl, hs⟩ := h
  exact ⟨front, now, back ++ more, p, by simp, hp, hl, hs⟩

/-- A live session counts as stopped only if it was made live in that state. -/
theorem madeLiveStopped_of_stopped {start p : Playback σ}
    {accesses : List (Nanoseconds × Access)} (hstart : start.stopped = false)
    (h : (accessAll accesses).run start = .ok () p) (hl : p.isLive = true)
    (hs : p.stopped = true) : MadeLiveStopped start accesses := by
  -- From the end, because what counts is the state in which the last command was given.
  induction accesses using List.reverseRecOn generalizing p with
  | nil =>
    cases h
    simp [hstart] at hs
  | append_singleton accesses last ih =>
    obtain ⟨now, a⟩ := last
    rw [accessAll, List.forM_append] at h
    obtain ⟨q, hq, hlast⟩ := run_bind_ok_iff.mp h
    obtain ⟨r, ha, hr⟩ := run_bind_ok_iff.mp hlast
    cases hr
    rcases access_ok ha with ⟨op, rfl, ho⟩ | ⟨-, hlive, hstopped, -⟩
    · cases hk : op.keepsMode with
      | true =>
        have hql : q.isLive = true := (Advances.outcome hk (operate_ok ho)).isLive_eq ▸ hl
        have hqs : q.stopped = true := by
          by_contra hn
          have hp := (Unstopped.operate hk now).of_ok ⟨hql, eq_false_of_ne_true hn⟩ ho
          simp [hp.notStopped] at hs
        exact (ih hq hql hqs).append _
      | false =>
        rcases Operation.keepsMode_eq_false hk with rfl | rfl | rfl
        · cases ho
          cases hql : q.isLive with
          | true => exact (ih hq hql hs).append _
          | false => exact ⟨accesses, now, [], q, rfl, hq, hql, hs⟩
        · cases ho
          change (q.setDisconnected now).isLive = true at hl
          rw [setDisconnected_eq] at hl
          cases hl
        · obtain ⟨speed, -, rfl⟩ := reset_ok ho
          cases hl
    · exact (ih hq (hlive ▸ hl) (hstopped ▸ hs)).append _

omit [Console σ] in
theorem scheduleNext_paused_of_live {p : Playback σ} (hl : p.isLive = true)
    (now : Nanoseconds) : (p.scheduleNext now).paused = (p.stopped || p.paused) := by
  unfold scheduleNext
  cases hs : p.stopped with
  | true => simp
  | false =>
    simp only [Bool.false_eq_true, ↓reduceIte, Bool.false_or]
    split_ifs <;> rfl

/-- A live session that plays is paused by a step only if there is an event to show and the session
counts as stopped. -/
theorem Stepped.paused_iff {now : Nanoseconds} {p q : Playback σ} (hq : Stepped now p q)
    (hl : p.isLive = true) (hp : p.paused = false) :
    q.paused = true ↔ p.stopped = true ∧ p.index < p.events.length := by
  cases hq with
  | resting hn => simp [hp] at hn
  | idle he =>
    have hi := List.getElem?_eq_none_iff.mp he
    simp [hl, hp, Nat.not_lt.mpr hi]
  | held e hn => simp [hp] at hn
  | shown e n _ he =>
    have hi : p.index < p.events.length := (List.getElem?_eq_some_iff.mp he).1
    have hlive : (p.taken e).isLive = true := (Metadata.after_live p.session e).trans hl
    rw [scheduleNext_paused_of_live
      (p := { (p.taken e).delivered n with index := p.index + 1 }) hlive]
    change ((p.stopped || (e.isStop && !p.isLive)) || p.paused) = true ↔ _
    simp [hl, hp, hi]

theorem SpeedChanged.notPaused {now : Nanoseconds} {p q : Playback σ}
    (hq : SpeedChanged now p q) (hl : p.isLive = true) (hp : p.paused = false) :
    q.paused = false := by
  cases hq with
  | paused speed hn => simp [hp] at hn
  | playing speed delay _ _ _ hq =>
    cases hq with
    | already hr => exact hr
    | ended _ he =>
      have hr : (p.rescaled now speed delay).isLive = true :=
        (Advances.rescaled now speed delay p).isLive_eq.trans hl
      simp [isEnded, hr] at he
    | resumed n =>
      obtain ⟨timer, saved, hs⟩ :=
        rearmed_frame now ((p.rescaled now speed delay).resumed.delivered n)
      rw [hs]
      rfl

theorem carryOut_playsOn {now : Nanoseconds} {c : Command} {p q : Playback σ}
    (hc : (Operation.command c).playsOn = true) (hl : p.isLive = true) (hp : p.paused = false)
    (h : (carryOut now c).run p = .ok () q) : q.isLive = true ∧ q.paused = false := by
  have hspeed (hq : SpeedChanged now p q) : q.isLive = true ∧ q.paused = false :=
    ⟨(Advances.speedChanged hq).isLive_eq.trans hl, hq.notPaused hl hp⟩
  cases c with
  | play =>
    cases play_ok h with
    | already => exact ⟨hl, hp⟩
    | ended hn => simp [hp] at hn
    | resumed n hn => simp [hp] at hn
  | increaseSpeed => exact hspeed (changeSpeed_ok h)
  | decreaseSpeed => exact hspeed (changeSpeed_ok h)
  | setSpeed speed => exact hspeed (changeSpeed_ok h)
  | load events => cases h; exact ⟨hl, hp⟩
  | setLive => cases h; exact ⟨rfl, hp⟩
  | shutdown => cases h; exact ⟨hl, hp⟩
  | _ => cases hc

/-- After every run, a session that is live and plays is still live and plays after anything that is
not meant to stop it, except that a step pauses it if it counts as stopped; and it counts as stopped
only if it was made live after it had stopped as a replay. -/
theorem plays_on_of_live {s : σ} {config : Config} {p q r : Playback σ}
    {accesses : List (Nanoseconds × Access)} {now : Nanoseconds} {a : Access}
    (hc : create? s config = .ok p) (h : (accessAll accesses).run p = .ok () q)
    (hl : q.isLive = true) (hp : q.paused = false) (ha : a.playsOn = true)
    (hr : (access now a).run q = .ok () r) :
    r.isLive = true ∧
      (r.paused = true ↔
        a = .operation .step ∧ q.stopped = true ∧ q.index < q.events.length) ∧
      (q.stopped = true → MadeLiveStopped p accesses) := by
  have hstart : p.stopped = false := by
    obtain ⟨speed, -, rfl⟩ := create_eq hc
    rfl
  have hmade : q.stopped = true → MadeLiveStopped p accesses :=
    madeLiveStopped_of_stopped hstart h hl
  have hmode : r.isLive = true ∧ (r.paused = true ↔
      a = .operation .step ∧ q.stopped = true ∧ q.index < q.events.length) := by
    rcases access_ok hr with ⟨op, rfl, ho⟩ | ⟨hn, hlive, -, hpaused⟩
    · cases op with
      | step =>
        have hq := step_ok ho
        refine ⟨(Advances.stepped hq).isLive_eq.trans hl, ?_⟩
        rw [hq.paused_iff hl hp]
        simp
      | command c =>
        obtain ⟨hlive, hpaused⟩ := carryOut_playsOn ha hl hp ho
        exact ⟨hlive, by simp [hpaused]⟩
    · exact ⟨hlive.trans hl, by simp [hpaused, hp, hn]⟩
  exact ⟨hmode.1, hmode.2, hmade⟩

/-- A recording is played to its last event and then goes on live, up to the end of the session. -/
def followedOn : List (Nanoseconds × Access) := [
  (0, .operation (.command (.load [.incoming 0 [97]]))), (0, .operation (.command .play)),
  (0, .operation .step), (5, .operation (.command .setLive)),
  (6, .operation (.command (.load [.stop 9, .incoming 12 [98]]))),
  (7, .operation (.command .play)), (7, .absorb (.incoming 0 [99])), (7, .flush)]

/-- The session plays on over an event that would end a replay. -/
theorem plays_on_over_stop : ∃ p q r : Playback Transcript,
    create? { cell := ⟨8, 16⟩ } {} = .ok p ∧ (accessAll followedOn).run p = .ok () q ∧
      q.isLive = true ∧ q.paused = false ∧ (Access.operation .step).playsOn = true ∧
      (access 8 (.operation .step)).run q = .ok () r ∧ r.isLive = true ∧
      (r.paused = true ↔ Access.operation .step = .operation .step ∧
        q.stopped = true ∧ q.index < q.events.length) ∧
      (q.stopped = true → MadeLiveStopped p followedOn) ∧
      q.events[q.index]? = some (.stop 9) ∧ r.paused = false := by
  let p : Playback Transcript :=
    { config := {}, console := { cell := ⟨8, 16⟩ }, speed := Binary64.ofInt 1 }
  have hrun : succeedsWith (accessAll followedOn) (fun q => q.isLive && !q.paused && !q.stopped &&
      decide (q.events[q.index]? = some (.stop 9)) &&
        succeedsWith (access 8 (.operation .step)) (fun _ => true) q) p = true := by
    decide +kernel
  obtain ⟨q, hq, htest⟩ := exists_of_succeedsWith hrun
  simp only [Bool.and_eq_true, Bool.not_eq_true', decide_eq_true_eq] at htest
  obtain ⟨⟨⟨⟨hl, hp⟩, hs⟩, he⟩, hstep⟩ := htest
  obtain ⟨r, hr, -⟩ := exists_of_succeedsWith hstep
  have hc : create? { cell := ⟨8, 16⟩ } {} = .ok p := create_default _
  have ha : (Access.operation .step).playsOn = true := rfl
  obtain ⟨hlive, hpaused, hmade⟩ := plays_on_of_live hc hq hl hp ha hr
  refine ⟨p, q, r, hc, hq, hl, hp, ha, hr, hlive, hpaused, hmade, he, ?_⟩
  simpa [hs] using hpaused

/-- A recording is played to the end of its session and then made live, and one more event
arrives. -/
def stoppedThenLive : List (Nanoseconds × Access) := [
  (0, .operation (.command (.load [.stop 0]))), (0, .operation (.command .play)),
  (0, .operation .step), (1, .operation (.command .setLive)),
  (2, .operation (.command (.load [.incoming 5 [97]]))), (3, .operation (.command .play))]

/-- The session is live and plays, and the event that has arrived pauses it. -/
theorem paused_by_event_of_live : ∃ p q r : Playback Transcript,
    create? { cell := ⟨8, 16⟩ } {} = .ok p ∧ (accessAll stoppedThenLive).run p = .ok () q ∧
      q.isLive = true ∧ q.paused = false ∧
      (access 4 (.operation .step)).run q = .ok () r ∧ r.isLive = true ∧ r.paused = true := by
  have hrun : succeedsWith (accessAll stoppedThenLive) (fun q => q.isLive && !q.paused &&
      succeedsWith (access 4 (.operation .step)) (fun r => r.isLive && r.paused) q)
      ({ config := {}, console := { cell := ⟨8, 16⟩ }, speed := Binary64.ofInt 1 } :
        Playback Transcript) = true := by decide +kernel
  obtain ⟨q, hq, htest⟩ := exists_of_succeedsWith hrun
  simp only [Bool.and_eq_true, Bool.not_eq_true'] at htest
  obtain ⟨⟨hl, hp⟩, hstep⟩ := htest
  obtain ⟨r, hr, htest⟩ := exists_of_succeedsWith hstep
  obtain ⟨hrl, hrp⟩ := Bool.and_eq_true_iff.mp htest
  exact ⟨_, q, r, create_default _, hq, hl, hp, hr, hrl, hrp⟩

end Playback
end SessionPlayback
