import SessionPlayback.Proofs.Playback.Unflushed

/-!
Backpressure. A live session that is paused goes on applying the events that arrive, but nothing of
it reaches the surfaces and nothing is acknowledged, so that the sender sees how far it has got.
Playing makes up for it: everything held goes out in at most three calls, and only when these have
succeeded are the events acknowledged that were applied in the meantime.
-/

namespace SessionPlayback

/-- What may go on while a session is paused: events arrive and are applied, the speed changes, and
a pause changes nothing. -/
def Access.holdsBack : Access → Bool
  | .operation .step => true
  | .operation (.command (.load _)) => true
  | .operation (.command .pause) => true
  | .operation (.command .increaseSpeed) => true
  | .operation (.command .decreaseSpeed) => true
  | .operation (.command (.setSpeed _)) => true
  | .absorb _ => true
  | _ => false

namespace Playback

variable {σ : Type}

structure HoldsBack (s : σ) (p : Playback σ) : Prop where
  live : p.isLive = true
  paused : p.paused = true
  console : p.console = s

namespace HoldsBack

variable [Console σ] {s : σ} {p : Playback σ}

theorem absorb (h : HoldsBack s p) (e : Event) : HoldsBack s (p.absorb e) :=
  ⟨(Metadata.after_live p.session e).trans h.live, h.paused, h.console⟩

theorem step (now : Nanoseconds) : Keeps (HoldsBack s) (step now) := by
  intro p h
  unfold Ends
  cases he : p.events[p.index]? with
  | none =>
    rw [step_run_none he]
    exact ⟨h.live, by simp [h.paused], h.console⟩
  | some e =>
    rw [step_run_some he, h.live, h.paused]
    exact ⟨(Metadata.after_live p.session e).trans h.live, h.paused, h.console⟩

theorem changeSpeed (now : Nanoseconds) (requested : Binary64) :
    Keeps (HoldsBack s) (changeSpeed now requested) := by
  intro p h
  unfold Ends
  simp only [Playback.changeSpeed, EStateM.run_bind, EStateM.run_get, h.paused, ↓reduceIte]
  cases p.config.clampSpeed? requested with
  | none => exact h
  | some speed => exact ⟨h.live, rfl, h.console⟩

/-- Neither of these changes makes a call or ends the pause, even if it fails. -/
theorem access {a : Access} (ha : a.holdsBack = true) (now : Nanoseconds) :
    Keeps (HoldsBack s) (access now a) := by
  cases a with
  | operation op =>
    cases op with
    | step => exact step now
    | command c =>
      cases c with
      | load events => exact Keeps.of_modify fun p h => ⟨h.live, h.paused, h.console⟩
      | pause =>
        apply Keeps.of_modify
        intro p h
        rwa [pause_of_paused now h.paused]
      | increaseSpeed => exact Keeps.of_get fun p h => changeSpeed now _
      | decreaseSpeed => exact Keeps.of_get fun p h => changeSpeed now _
      | setSpeed speed => exact changeSpeed now speed
      | _ => cases ha
  | absorb e => exact Keeps.of_modify fun p h => h.absorb e
  | _ => cases ha

theorem reachedAll (h : HoldsBack s p) {accesses : List (Nanoseconds × Access)}
    (ha : ∀ o ∈ accesses, o.2.holdsBack = true) : HoldsBack s (reachedAll accesses p) := by
  induction accesses generalizing p with
  | nil => exact h
  | cons o rest ih =>
    have ho : HoldsBack s (reached (Playback.access o.1 o.2) p) :=
      (access (ha o (by simp)) o.1 p h).reached
    exact ih ho fun a hm => ha a (by simp [hm])

end HoldsBack

variable [Console σ]

/-- A paused session that is live does not play on if some call for what is held fails. It has made
the calls up to that one. -/
theorem play_fails (now : Nanoseconds) {p : Playback σ} (hp : p.paused = true)
    (he : p.isEnded = false) (hf : ¬Console.Succeed p.held.calls p.console) :
    ∃ f q made, (play now).run p = .error f q ∧ made <+: p.held.calls ∧
      q.console = Console.after made p.console := by
  cases hr : flush.run p.resumed with
  | ok u q => exact absurd (flush_ok_iff.mp hr).1 hf
  | error f q =>
    obtain ⟨made, hm, hq⟩ := flush_fails hr
    refine ⟨f, q, made, ?_, hm, by rw [hq]; rfl⟩
    rw [play_run, hp, he]
    exact run_bind_error_iff.mpr (.inl hr)

/-- While a live session is paused nothing is called, whatever of this happens. Then the surfaces
get the output of all events applied since the last flush, each kind in one call at most: the last
size, the text, the bytes. Once these calls have succeeded, and not before, as many
acknowledgements follow as were due and as there are events before the cursor that have not been
counted. Before the pause anything may have happened and failed, as long as acknowledgements do
not fail from then on. -/
theorem play_after_holding_back {s : σ} {config : Config} {start p q : Playback (Traced σ)}
    {before more : List (Nanoseconds × Access)} (hc : create? ⟨s, []⟩ config = .ok start)
    (hp : p = reachedAll before start.setLive) (hl : p.isLive = true) (hpaused : p.paused = true)
    (hacks : Console.Serves .acknowledge p.console)
    (hmore : ∀ o ∈ more, o.2.holdsBack = true) (hq : q = reachedAll more p)
    (now : Nanoseconds) :
    let calls := (recorded (before ++ more) start.setLive {}).output.calls
    q.console = p.console ∧
      (Console.Succeed calls q.console → ∃ r, (play now).run q = .ok () r ∧
        r.console.calls = q.console.calls ++
          (calls ++ .replicate (q.pendingAcks + (q.index - q.acked)) .acknowledge).map
            (·, true)) ∧
      (¬Console.Succeed calls q.console → ∃ f r made, (play now).run q = .error f r ∧
        r.console.calls = q.console.calls ++ made ∧ made.map (·.1) <+: calls) := by
  intro calls
  have hstart : start.setLive.Owes {} := by
    obtain ⟨speed, -, rfl⟩ := create_eq hc
    rfl
  have hcalls : q.held.calls = calls := by
    have ho := hstart.reachedAll (before ++ more)
    rw [reachedAll_append, ← hp, ← hq] at ho
    rw [ho]
  have hheld : HoldsBack p.console q := by
    rw [hq]
    exact HoldsBack.reachedAll ⟨hl, hpaused, rfl⟩ hmore
  have hended : q.isEnded = false := by
    simp [isEnded, hheld.live]
  refine ⟨hheld.console, fun hs => ?_, fun hs => ?_⟩
  · rw [← hcalls] at hs
    obtain ⟨n, hd, hr⟩ := play_of_flush now hheld.paused hended hs
    have hserves : Console.Serves .acknowledge q.console := hheld.console ▸ hacks
    have hn : n = q.pendingAcks + (q.index - q.acked) := by
      rw [hd.eq_pending hserves]
      simp [resumed, uncounted, hheld.live]
    have hacked : Console.Succeed (.replicate n .acknowledge)
        (Console.after q.held.calls q.console) := by
      apply Console.succeed_of_serves
      intro call hm
      rw [List.eq_of_mem_replicate hm]
      exact hserves.after _
    refine ⟨_, hr, ?_⟩
    obtain ⟨timer, delay, hframe⟩ := rearmed_frame now (q.resumed.delivered n)
    rw [hframe, ← hn, ← hcalls]
    exact Traced.after_calls_of_succeed (Console.succeed_append.mpr ⟨hs, hacked⟩)
  · rw [← hcalls] at hs
    obtain ⟨f, r, front, hr, hprefix, hconsole⟩ := play_fails now hheld.paused hended hs
    obtain ⟨made, hmade, hfst⟩ := Traced.after_calls front q.console
    exact ⟨f, r, made, hr, hconsole ▸ hmade, by rwa [hfst, ← hcalls]⟩

def unlogged : Faulty Transcript := { inner := counting, plan := [(.append, [1])] }

/-- Two events are held when resuming fails at the keystrokes, so that the bytes stay held. -/
def failedResume : List (Nanoseconds × Access) := [
  (0, .operation (.command (.load [.exec 0 "ls", .incoming 3 [97]]))), (1, .operation .step),
  (2, .operation .step), (3, .operation (.command .play)), (4, .operation (.command .pause))]

def pausedAgain : List (Nanoseconds × Access) := [
  (5, .operation (.command (.load [.resize 7 30 100, .incoming 8 [98]]))), (6, .operation .step),
  (7, .operation (.command (.setSpeed (Binary64.ofInt 2)))), (8, .operation .step),
  (9, .operation (.command .pause))]

theorem play_after_failedResume : ∃ start p q r : Playback (Traced (Faulty Transcript)),
    create? ⟨unlogged, []⟩ {} = .ok start ∧ p = reachedAll failedResume start.setLive ∧
      p.isLive = true ∧ p.paused = true ∧ Console.Serves .acknowledge p.console ∧
      (∀ o ∈ pausedAgain, o.2.holdsBack = true) ∧ q = reachedAll pausedAgain p ∧
      q.console = p.console ∧ (play 10).run q = .ok () r ∧
      r.console.calls = q.console.calls ++ [(.resize (CellMetrics.geometry ⟨8, 16⟩ 30 100), true),
        (.write [97, 98], true), (.acknowledge, true), (.acknowledge, true),
        (.acknowledge, true), (.acknowledge, true)] := by
  let start : Playback (Traced (Faulty Transcript)) :=
    { config := {}, console := ⟨unlogged, []⟩, speed := Binary64.ofInt 1 }
  have hc : create? ⟨unlogged, []⟩ {} = .ok start := create_default _
  obtain ⟨p, hp⟩ : ∃ p, p = reachedAll failedResume start.setLive := ⟨_, rfl⟩
  obtain ⟨q, hq⟩ : ∃ q, q = reachedAll pausedAgain p := ⟨_, rfl⟩
  have hl : p.isLive = true := by
    rw [hp]
    decide +kernel
  have hpaused : p.paused = true := by
    rw [hp]
    decide +kernel
  have hplan : p.console.inner.plan.lookup .acknowledge = none := by
    rw [hp]
    decide +kernel
  have hcount : p.console.inner.inner.acks = .counting 0 := by
    rw [hp]
    decide +kernel
  have hacks : Console.Serves .acknowledge p.console :=
    Traced.serves_iff.mpr (Faulty.serves hplan (Transcript.serves_acknowledge hcount))
  have hmore : ∀ o ∈ pausedAgain, o.2.holdsBack = true := by decide
  obtain ⟨hconsole, hplay, -⟩ :=
    play_after_holding_back hc hp hl hpaused hacks hmore hq 10
  have hcalls : (recorded (failedResume ++ pausedAgain) start.setLive {}).output.calls =
      [.resize (CellMetrics.geometry ⟨8, 16⟩ 30 100), .write [97, 98]] := by
    decide +kernel
  have hdue : q.pendingAcks + (q.index - q.acked) = 4 := by
    rw [hq, hp]
    decide +kernel
  rw [hcalls, hdue] at hplay
  have hs : Console.Succeed [.resize (CellMetrics.geometry ⟨8, 16⟩ 30 100), .write [97, 98]]
      q.console := by
    rw [hq, hp]
    decide +kernel
  obtain ⟨r, hr, hrcalls⟩ := hplay hs
  exact ⟨start, p, q, r, hc, hp, hl, hpaused, hacks, hmore, hq, hconsole, hr, hrcalls⟩

end Playback
end SessionPlayback
