import SessionPlayback.Proofs.Playback.Armed
import SessionPlayback.Proofs.Playback.Unending
import SessionPlayback.Proofs.Playback.Visibility

/-!
From a live session to a replay. Wherever a live session is when the remote side goes away, what
was received is then played out as a replay: it comes to rest at the next end of the session, or at
the last event, with the output of all events up to there, and acknowledges nothing any more.
-/

namespace SessionPlayback.Playback

variable {σ : Type} [Console σ]

theorem Advances.served {p q : Playback σ} (h : p.Advances q) (hp : p.Served) : q.Served := by
  obtain ⟨calls, hc⟩ := h.console_eq
  intro kind hk
  rw [hc]
  exact (hp kind hk).after calls

/-- A replay that has acknowledged nothing since the surfaces were in that state, and that has
nothing to acknowledge. -/
structure Quiet (start : σ) (p : Playback σ) : Prop where
  notLive : p.isLive = false
  settled : p.pendingAcks = 0
  calls : ∃ calls, .acknowledge ∉ calls ∧ p.console = Console.after calls start

namespace Quiet

variable {start : σ} {p q : Playback σ} {now : Nanoseconds}

theorem uncounted (h : p.Quiet start) (bound : Nat) : p.uncounted bound = 0 := by
  simp [Playback.uncounted, h.notLive]

theorem taken (h : p.Quiet start) (e : Event) : (p.taken e).Quiet start := by
  refine ⟨(Metadata.after_live p.session e).trans h.notLive, ?_, h.calls⟩
  change p.pendingAcks + p.uncounted (p.index + 1) = 0
  rw [h.uncounted, h.settled]

theorem resumed (h : p.Quiet start) : p.resumed.Quiet start := by
  refine ⟨h.notLive, ?_, h.calls⟩
  change p.pendingAcks + p.uncounted p.index = 0
  rw [h.uncounted, h.settled]

theorem called (h : p.Quiet start) {calls : List Call} (hc : .acknowledge ∉ calls) :
    ∃ more, .acknowledge ∉ more ∧
      Console.after calls p.console = Console.after more start := by
  obtain ⟨made, hm, hp⟩ := h.calls
  exact ⟨made ++ calls, by simp [hm, hc], by rw [hp, Console.after_append]⟩

/-- As nothing is to be acknowledged, nothing but what is held is delivered. -/
theorem delivered {n : Nat} (h : p.Quiet start) (hd : p.Delivers n) :
    (p.delivered n).Quiet start := by
  have hn : n = 0 := Nat.le_zero.mp (h.settled ▸ hd.le_pending)
  subst hn
  refine ⟨h.notLive, rfl, ?_⟩
  change ∃ calls, _ ∧ Console.after (p.held.calls ++ []) p.console = _
  rw [List.append_nil]
  exact h.called p.held.acknowledge_notMem

theorem stepped (h : p.Quiet start) (hq : Stepped now p q) : q.Quiet start := by
  cases hq with
  | resting => exact ⟨h.notLive, h.settled, h.calls⟩
  | idle => exact ⟨h.notLive, h.settled, h.calls⟩
  | held e _ hl => simp [h.notLive] at hl
  | shown e n _ _ hd =>
    have hdone := (h.taken e).delivered hd
    obtain ⟨timer, paused, hs⟩ :=
      scheduleNext_frame { (p.taken e).delivered n with index := p.index + 1 } now
    rw [hs]
    exact ⟨hdone.notLive, hdone.settled, hdone.calls⟩

theorem played (h : p.Quiet start) (hq : Played now p q) : q.Quiet start := by
  cases hq with
  | already => exact h
  | ended => exact ⟨h.notLive, h.settled, h.called p.held.acknowledge_notMem⟩
  | resumed n _ _ hd =>
    have hdone := h.resumed.delivered hd
    obtain ⟨timer, delay, hs⟩ := rearmed_frame now (p.resumed.delivered n)
    rw [hs]
    exact ⟨hdone.notLive, hdone.settled, hdone.calls⟩

end Quiet

theorem setDisconnected_quiet (now : Nanoseconds) (p : Playback σ) :
    (p.setDisconnected now).Quiet p.console := by
  rw [setDisconnected_eq]
  exact ⟨rfl, rfl, [], by simp, rfl⟩

omit [Console σ] in
/-- A live session that is cut off has ended if it had caught up. -/
theorem setDisconnected_isEnded (now : Nanoseconds) {p : Playback σ} (hu : p.Unstopped) :
    (p.setDisconnected now).isEnded = decide (p.events.length ≤ p.index) := by
  rw [setDisconnected_eq, isEnded_of_replay rfl]
  change (_ || p.stopped) = _
  rw [hu.notStopped, Bool.or_false]

/-- Where the session is cut off does not matter: as a replay it plays at once, or waits to be
played, or has ended. -/
theorem setDisconnected_poised (now : Nanoseconds) {p : Playback σ} (hw : p.WellTimed)
    (hu : p.Unstopped) (hs : p.Served) : (p.setDisconnected now).Poised := by
  have hd := hw.setDisconnected now
  have hl : (p.setDisconnected now).isLive = false := (setDisconnected_quiet now p).notLive
  have hserved : (p.setDisconnected now).Served := by
    rw [setDisconnected_eq]
    exact hs
  refine ⟨hserved, hl, hd.timer_of_paused, fun hp => ?_⟩
  have ha := hd.armed_of_plays hl hp
  refine ⟨hserved, hl, hp, ?_, ha⟩
  have hi := (hd.plays_of_armed ha).2
  rw [setDisconnected_eq] at hi
  rw [setDisconnected_isEnded now hu]
  exact decide_eq_false (Nat.not_le.mpr hi)

/-- After any operations on a session that is live from the beginning. -/
theorem attemptAll_setDisconnected_poised {s : σ} {config : Config} {p : Playback σ}
    {ops : List (Nanoseconds × Operation)} (hc : create? s config = .ok p)
    (hops : ∀ o ∈ ops, o.2.keepsMode = true) (hs : (attemptAll ops p.setLive).Served)
    (now : Nanoseconds) :
    (attemptAll ops p.setLive).Unstopped ∧ (attemptAll ops p.setLive).WellTimed ∧
      ((attemptAll ops p.setLive).setDisconnected now).Poised := by
  have hstart : p.setLive.Unstopped ∧ p.setLive.WellTimed := by
    refine ⟨?_, (create_wellTimed hc).setLive⟩
    obtain ⟨speed, -, rfl⟩ := create_eq hc
    exact ⟨rfl, rfl⟩
  have hu := hstart.1.attemptAll hops
  have hw := hstart.2.attemptAll hops hstart.1.live
  exact ⟨hu, hw, setDisconnected_poised now hw hu hs⟩

/-- A session that is live from the beginning is disconnected after any operations, of which some
may have failed, and then played out on surfaces that do not fail. If the last deadline lies on the
clock, it comes to rest behind the first end of the session in front of the cursor, or behind the
last event; if not, the run gives up on the way there. In either case nothing has been acknowledged
since; and unless a call had failed before, the output of all events before the cursor is shown, and
no other. -/
theorem disconnected_playsOut {s : σ} {config : Config} {p q : Playback (Traced σ)}
    {ops : List (Nanoseconds × Operation)} (hc : create? ⟨s, []⟩ config = .ok p)
    (hops : ∀ o ∈ ops, o.2.keepsMode = true) (hq : q = attemptAll ops p.setLive)
    (hs : q.Served) (now later : Nanoseconds) {out : Progress (Traced σ)}
    (hout : out = playOut later (q.setDisconnected now)) :
    ((q.setDisconnected now).lastDeadline later < clockLimit →
        out.result = .ok () ∧ out.now = max later ((q.setDisconnected now).lastDeadline later) ∧
          out.playback.state = .ended ∧ out.playback.paused = true ∧ out.playback.timer = none ∧
          out.playback.index = playedFrom q.index q.events) ∧
      (clockLimit ≤ (q.setDisconnected now).lastDeadline later →
        out.result = .error .clockRange) ∧
      (∃ calls, .acknowledge ∉ calls ∧ out.playback.console = Console.after calls q.console) ∧
      out.playback.events = q.events ∧
      (¬q.console.Broken →
        out.playback.console.shown =
            (q.events.take out.playback.index).flatMap Event.onTerminal ∧
          out.playback.console.logged =
            String.join ((q.events.take out.playback.index).map Event.inLog)) := by
  subst hq
  obtain ⟨hu, hw, hpoised⟩ := attemptAll_setDisconnected_poised hc hops hs now
  generalize hq : attemptAll ops p.setLive = q at *
  have hevents : (q.setDisconnected now).events = q.events := by rw [setDisconnected_eq]
  have hindex : (q.setDisconnected now).index = q.index := by rw [setDisconnected_eq]
  obtain ⟨r, -, hdone, -, hi, hends⟩ := hpoised.playsOut later
  have hend : r.index = playedFrom q.index q.events := by
    rw [hi, setDisconnected_isEnded now hu, hindex, hevents]
    split
    · rename_i hp
      have hle : q.events.length ≤ q.index := of_decide_eq_true hp
      rw [playedFrom_of_le hle]
      exact Nat.le_antisymm hw.index_le hle
    · rfl
  obtain ⟨hquiet, he, hwhere⟩ := hpoised.playOut_keeps (I := Quiet q.console)
    (fun _ _ _ ht h => h.stepped ht) (fun _ _ _ ht h => h.played ht)
    (setDisconnected_quiet now q) later (congrArg Progress.playback hout)
  rw [hevents] at he
  refine ⟨fun hlt => ?_, fun hle => ?_, hquiet.calls, he, fun hb => ?_⟩
  · rw [hout, hends.in_range hlt]
    exact ⟨rfl, rfl, hdone.state_eq, hdone.paused, hdone.timer, hend⟩
  · rw [hout]
    exact hends.beyond hle
  · have hd : q.Displays := by
      have hh := (Honest.attemptAll hops (create_setLive_honest hc)).sound
      rw [hq] at hh
      exact (hh.resolve_left hb).displays
    obtain ⟨hshows, -, -⟩ := hpoised.playOut_keeps (I := Displays)
      (fun _ _ _ ht h => h.stepped ht) (fun _ _ _ ht h => h.played ht) (hd.setDisconnected now)
      later (congrArg Progress.playback hout)
    -- a replay that plays holds nothing back, nor does one that has come to rest
    have hheld : out.playback.held = {} := by
      rcases hwhere with hruns | hdone
      · by_contra hh
        simpa [hruns.notPaused] using hshows.paused_of_held hh
      · exact hdone.unheld
    rw [← Event.flatMap_terminalOutput, ← Event.map_keystrokeOutput, ← he]
    exact hshows.shown_of_unheld hheld

/-- Two events are taken while the session is paused, the second of which is the end of a session;
two more sessions follow. -/
def cutOffRun : List (Nanoseconds × Operation) := [
  (0, .command (.load [.incoming 0 [97], .stop 5, .exec 6 "ls", .incoming 9 [98, 10],
    .outgoing 10 [27, 91, 65], .stop 12, .incoming 20 [99], .stop 21])),
  (1, .step), (2, .step)]

/-- The output that was held is shown, and the replay comes to rest at the end of the second
session. -/
theorem disconnected_playsOut_cutOffRun :
    ∃ (p q : Playback (Traced Transcript)) (out : Progress (Traced Transcript)),
      create? ⟨counting, []⟩ {} = .ok p ∧ (∀ o ∈ cutOffRun, o.2.keepsMode = true) ∧
      q = attemptAll cutOffRun p.setLive ∧ q.Served ∧ q.index = 2 ∧ q.held.terminal = [97] ∧
      q.pendingAcks = 2 ∧ out = playOut 4 (q.setDisconnected 3) ∧ out.result = .ok () ∧
      out.now = 6000004 ∧ out.playback.state = .ended ∧ out.playback.paused = true ∧
      out.playback.timer = none ∧
      (∃ calls, .acknowledge ∉ calls ∧ out.playback.console = Console.after calls q.console) ∧
      out.playback.events = q.events ∧ out.playback.index = 6 ∧
      out.playback.console.shown = [97, 98, 13, 10] ∧
      out.playback.console.logged = "ls[UP]" := by
  let p : Playback (Traced Transcript) :=
    { config := {}, console := ⟨counting, []⟩, speed := Binary64.ofInt 1 }
  let q := attemptAll cutOffRun p.setLive
  have hc : create? ⟨counting, []⟩ {} = .ok p := create_default _
  have hops : ∀ o ∈ cutOffRun, o.2.keepsMode = true := by decide
  have hp : p.setLive.Served := fun kind hk => Traced.serves_iff.mpr (Transcript.serves hk _)
  have hs : q.Served := (attemptAll_advances hops p.setLive).served hp
  obtain ⟨hrun, -, hquiet, he, hshown⟩ :=
    disconnected_playsOut hc hops (rfl : q = _) hs 3 4 (rfl : playOut 4 (q.setDisconnected 3) = _)
  have hlast : (q.setDisconnected 3).lastDeadline 4 = 6000004 := by decide +kernel
  rw [hlast] at hrun
  obtain ⟨hresult, hnow, hstate, hpaused, htimer, hi⟩ := hrun (by decide)
  have hindex : playedFrom q.index q.events = 6 := by decide +kernel
  have hcalls : q.console.calls = [] := by decide +kernel
  have hb : ¬q.console.Broken := by
    rintro ⟨call, -, hm⟩
    rw [hcalls] at hm
    cases hm
  have hout : (q.events.take 6).flatMap Event.onTerminal = [97, 98, 13, 10] ∧
      String.join ((q.events.take 6).map Event.inLog) = "ls[UP]" := by
    decide +kernel
  have htold := hshown hb
  rw [hi, hindex, hout.1, hout.2] at htold
  exact ⟨p, q, _, hc, hops, rfl, hs, by decide +kernel, by decide +kernel, by decide +kernel, rfl,
    hresult, hnow, hstate, hpaused, htimer, hquiet, he, hi.trans hindex, htold⟩

/-- A session that was cut off before its first event can outlast the clock. -/
theorem cutOff_seesaw_outlasts_clock : ∃ p q : Playback (Traced Transcript),
    create? ⟨counting, []⟩ {} = .ok p ∧
      q = attemptAll [(0, .command (.load (seesaw 2004)))] p.setLive ∧ q.Served ∧
      (playOut 0 (q.setDisconnected 0)).result = .error .clockRange := by
  let p : Playback (Traced Transcript) :=
    { config := {}, console := ⟨counting, []⟩, speed := Binary64.ofInt 1 }
  have hc : create? ⟨counting, []⟩ {} = .ok p := create_default _
  have hloaded (events : List Event) :
      attemptAll [(0, .command (.load events))] p.setLive = p.setLive.load events := rfl
  have hops : ∀ o ∈ [((0 : Nanoseconds), Operation.command (.load (seesaw 2004)))],
      o.2.keepsMode = true := by
    simp [Operation.keepsMode]
  have hs : (attemptAll [(0, .command (.load (seesaw 2004)))] p.setLive).Served :=
    (attemptAll_advances hops p.setLive).served
      fun kind hk => Traced.serves_iff.mpr (Transcript.serves hk _)
  obtain ⟨hu, -, hpoised⟩ := attemptAll_setDisconnected_poised hc hops hs 0
  have hended := setDisconnected_isEnded 0 hu
  refine ⟨p, _, hc, rfl, hs, ?_⟩
  rw [hloaded] at hpoised hended ⊢
  have hfields (events : List Event) :
      ((p.setLive.load events).setDisconnected 0).events = events ∧
        ((p.setLive.load events).setDisconnected 0).config = {} ∧
        ((p.setLive.load events).setDisconnected 0).speed = Binary64.ofInt 1 ∧
        ((p.setLive.load events).setDisconnected 0).index = 0 := by
    rw [setDisconnected_eq]
    exact ⟨List.nil_append events, rfl, by simp only [p, Playback.load, Playback.setLive], rfl⟩
  obtain ⟨he, hconfig, hspeed, hi⟩ := hfields (seesaw 2004)
  have hwaits : ((p.setLive.load (seesaw 2004)).setDisconnected 0).isEnded = false := by
    rw [hended, decide_eq_false_iff_not]
    change ¬([] ++ seesaw 2004).length ≤ 0
    simp [seesaw]
  exact hpoised.playOut_seesaw he (by rw [hconfig]) hspeed (hi.trans (Nat.mul_zero 2).symm)
    (Nat.zero_le 1) hwaits 0

end SessionPlayback.Playback
