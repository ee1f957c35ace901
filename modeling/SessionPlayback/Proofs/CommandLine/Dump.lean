import SessionPlayback.CommandLine
import SessionPlayback.Proofs.Playback.PlayOut
import SessionPlayback.Proofs.Text.Utf8

/-!
What is printed of a recording. It is printed after one seek to its last event, wherever the session
ends, whereas a replay of it ends with the session. What is printed is what the replay shows,
followed by the output of the events behind the end of the session.
-/

namespace SessionPlayback

namespace Transcript

theorem after_output (calls : List Call) (t : Transcript) :
    (Console.after calls t).screen.output = calls.foldl Call.shownOn t.screen.output := by
  induction calls generalizing t with
  | nil => rfl
  | cons call rest ih =>
    rw [Console.after_cons, ih, List.foldl_cons]
    cases call <;> rfl

theorem after_text (calls : List Call) (t : Transcript) :
    (Console.after calls t).log.text = calls.foldl Call.loggedOn t.log.text := by
  induction calls generalizing t with
  | nil => rfl
  | cons call rest ih =>
    rw [Console.after_cons, ih, List.foldl_cons]
    cases call <;> rfl

end Transcript

/-- A seek from the start flushes the output of all events up to the target. -/
theorem Playback.Moved.of_start {σ : Type} [Console σ] {now : Nanoseconds} {target : Nat}
    {p q : Playback σ} (h : Moved now target p q) (hi : p.index = 0) (hh : p.held = {})
    (ht : target < p.events.length) : ∃ held : Held,
      q.console = Console.after held.calls p.console ∧
      held.terminal = (p.events.take (target + 1)).flatMap Event.terminalOutput ∧
      held.keystrokes = String.join ((p.events.take (target + 1)).map Event.keystrokeOutput) := by
  cases h with
  | stayed hs => omega
  | forward s _ _ hs =>
    have hconsole : s.console = p.console := by
      rw [hs, halted_eq]
      rfl
    have hheld : s.held = (p.events.take (target + 1)).foldl
        (fun h e => h.push (Console.cellMetrics p.console) e) {} := by
      rw [hs, halted_eq, hi, List.drop_zero, ← hh]
      rfl
    refine ⟨s.held, by rw [← hconsole]; rfl, ?_, ?_⟩
    · rw [hheld, Held.foldl_push_terminal, List.nil_append]
    · rw [hheld, Held.foldl_push_keystrokes, String.empty_append]
  | back s _ hb => omega

/-- Played from the start, a recording shows the output of all events up to the end of the
session. -/
theorem Playback.load_playsOut {σ : Type} [Console σ] {s : σ} {config : Config}
    (hc : config.minSpeed.isNaN = false)
    (hs : ∀ kind, kind ≠ .acknowledge → Console.Serves kind s) (events : List Event)
    (now : Nanoseconds) : ∃ p r : Playback (Traced σ), create? ⟨s, []⟩ config = .ok p ∧
      PlaysOut now (p.load events) r ∧
      (playOut now (p.load events)).Ends now ((p.load events).lastDeadline now) r ∧
      r.state = .ended ∧ r.timer = none ∧
      r.console.shown = (events.take (playedLength events)).flatMap Event.terminalOutput ∧
      r.console.logged =
        String.join ((events.take (playedLength events)).map Event.keystrokeOutput) := by
  obtain ⟨p, hp⟩ := create_ok (⟨s, []⟩ : Traced σ) hc
  have hfresh := load_rests hs hp events
  have hloaded : (p.load events).events = events ∧ (p.load events).index = 0 := by
    obtain ⟨speed, -, rfl⟩ := create_eq hp
    exact ⟨rfl, rfl⟩
  obtain ⟨r, hr, hrout, hre, hri, hrun⟩ := hfresh.playsOut (by simp [hloaded.2]) now
  have hshown := hrout.displays.shown_of_unheld hrout.replays.unheld
  rw [hri, hre, hloaded.1] at hshown
  exact ⟨p, r, hp, hr, hrun, hrout.state_eq, hrout.timer, hshown⟩

def eventsBehindEnd (events : List Event) : List Event := events.drop (playedLength events)

theorem eventsBehindEnd_eq_nil {events : List Event}
    (h : ∀ e ∈ events.dropLast, e.isStop = false) : eventsBehindEnd events = [] := by
  cases hlen : events.length with
  | zero => simp [eventsBehindEnd, List.length_eq_zero_iff.mp hlen]
  | succ n =>
    rw [List.dropLast_eq_take, hlen] at h
    have hle := Playback.le_playedLength (by omega) h
    exact List.drop_eq_nil_of_le (by omega)

namespace CommandLine

def printed (terminal : List UInt8) (log : String) (keystrokes : Bool) : Outcome :=
  { output := terminal ++
      Text.utf8 (if keystrokes then keystrokesHeading ++ log ++ "\n" else "") }

/-- The terminal and the keystroke log can be read off what is printed. -/
theorem printed_inj {terminal terminal' : List UInt8} {log log' : String} :
    (∀ keystrokes, printed terminal log keystrokes = printed terminal' log' keystrokes) ↔
      terminal = terminal' ∧ log = log' := by
  constructor
  · intro h
    have hterminal : terminal = terminal' := by
      have hf := congrArg Outcome.output (h false)
      simpa [printed, Text.utf8] using hf
    refine ⟨hterminal, ?_⟩
    have ht := congrArg Outcome.output (h true)
    rw [hterminal] at ht
    have htext := Text.utf8_injective (List.append_cancel_left ht)
    have hlist := congrArg String.toList htext
    simp only [↓reduceIte, String.toList_append] at hlist
    exact String.toList_inj.mp (List.append_cancel_left (List.append_cancel_right hlist))
  · rintro ⟨rfl, rfl⟩ keystrokes
    rfl

variable {c : Config}

/-- The seek to the last event shows the output of all events. -/
theorem dumpedPlayback_ok (hc : c.minSpeed.isNaN = false) (events : List Event) :
    ∃ p, dumpedPlayback c events = .ok p ∧
      p.console.screen.output = events.flatMap Event.terminalOutput ∧
      p.console.log.text = String.join (events.map Event.keystrokeOutput) := by
  obtain ⟨p, hp⟩ := Playback.create_ok ({ cell := c.cellMetrics } : Transcript) hc
  cases events with
  | nil =>
    refine ⟨p.load [], ?_, ?_⟩
    · simp only [dumpedPlayback, hp]
      rfl
    · obtain ⟨speed, -, rfl⟩ := Playback.create_eq hp
      exact ⟨rfl, rfl⟩
  | cons e rest =>
    have hserved : (p.load (e :: rest)).Served := fun kind hk => Transcript.serves hk _
    obtain ⟨q, hq, -⟩ := hserved.moveTo 0 rest.length
    refine ⟨q, ?_, ?_⟩
    · simp only [EStateM.run] at hq
      simp only [dumpedPlayback, hp, bind, Except.bind, List.length_cons, Nat.add_sub_cancel, hq]
      rfl
    · obtain ⟨speed, -, rfl⟩ := Playback.create_eq hp
      obtain ⟨held, hconsole, hterminal, hkeystrokes⟩ :=
        (Playback.moveTo_ok hq).of_start rfl rfl (Nat.lt_succ_self _)
      have hall : ([] ++ e :: rest).take (rest.length + 1) = e :: rest :=
        List.take_of_length_le (Nat.le_refl _)
      rw [hconsole, Transcript.after_output, Transcript.after_text, Held.calls_shown,
        Held.calls_logged, hterminal, hkeystrokes]
      change [] ++ (([] ++ e :: rest).take (rest.length + 1)).flatMap _ = _ ∧
        "" ++ String.join ((([] ++ e :: rest).take (rest.length + 1)).map _) = _
      rw [hall]
      exact ⟨rfl, String.empty_append⟩

theorem dump_eq (hc : c.minSpeed.isNaN = false) (events : List Event) (keystrokes : Bool) :
    dump c events keystrokes = printed (events.flatMap Event.terminalOutput)
      (String.join (events.map Event.keystrokeOutput)) keystrokes := by
  obtain ⟨p, hp, houtput, hlog⟩ := dumpedPlayback_ok hc events
  simp only [dump, hp, printed, houtput, hlog]

variable {σ : Type} [Console σ]

/-- A recording is played from the start to its end, on surfaces that do not fail; the run gets
there if its last deadline lies on the clock, and gives up if not. What is printed of the recording
is what was shown and noted at its end, followed by the output of the events behind the first end of
the session. So both agree exactly if these events put out nothing, and they do agree if the session
ends nowhere before the last event. -/
theorem dump_eq_playsOut {s : σ} (hc : c.minSpeed.isNaN = false)
    (hs : ∀ kind, kind ≠ .acknowledge → Console.Serves kind s) (events : List Event)
    (now : Nanoseconds) :
    ∃ p r : Playback (Traced σ), Playback.create? ⟨s, []⟩ c = .ok p ∧
      Playback.PlaysOut now (p.load events) r ∧
      ((p.load events).lastDeadline now < clockLimit → Playback.playOut now (p.load events) =
        ⟨.ok (), max now ((p.load events).lastDeadline now), r⟩) ∧
      (clockLimit ≤ (p.load events).lastDeadline now →
        (Playback.playOut now (p.load events)).result = .error .clockRange) ∧
      r.state = .ended ∧ r.timer = none ∧
      (∀ keystrokes, dump c events keystrokes = printed
        (r.console.shown ++ (eventsBehindEnd events).flatMap Event.terminalOutput)
        (r.console.logged ++ String.join ((eventsBehindEnd events).map Event.keystrokeOutput))
        keystrokes) ∧
      ((∀ keystrokes, dump c events keystrokes =
          printed r.console.shown r.console.logged keystrokes) ↔
        (eventsBehindEnd events).flatMap Event.terminalOutput = [] ∧
          String.join ((eventsBehindEnd events).map Event.keystrokeOutput) = "") ∧
      ((∀ e ∈ events.dropLast, e.isStop = false) → ∀ keystrokes,
        dump c events keystrokes = printed r.console.shown r.console.logged keystrokes) := by
  obtain ⟨p, r, hp, hr, hrun, hstate, htimer, hshown, hlogged⟩ :=
    Playback.load_playsOut hc hs events now
  have hsplit : events.take (playedLength events) ++ eventsBehindEnd events = events :=
    List.take_append_drop _ _
  have hall (keystrokes : Bool) : dump c events keystrokes = printed
      (r.console.shown ++ (eventsBehindEnd events).flatMap Event.terminalOutput)
      (r.console.logged ++ String.join ((eventsBehindEnd events).map Event.keystrokeOutput))
      keystrokes := by
    rw [hshown, hlogged, ← List.flatMap_append, ← String.join_append, ← List.map_append, hsplit]
    exact dump_eq hc events keystrokes
  have hiff : (∀ keystrokes, dump c events keystrokes =
      printed r.console.shown r.console.logged keystrokes) ↔
        (eventsBehindEnd events).flatMap Event.terminalOutput = [] ∧
          String.join ((eventsBehindEnd events).map Event.keystrokeOutput) = "" := by
    simp only [hall, printed_inj, List.append_right_eq_self, String.append_eq_left_iff]
  refine ⟨p, r, hp, hr, hrun.in_range, hrun.beyond, hstate, htimer, hall, hiff,
    fun hstop => hiff.mpr ?_⟩
  rw [eventsBehindEnd_eq_nil hstop]
  exact ⟨rfl, rfl⟩

/-- The recording goes on after the end of its session. -/
theorem dump_eq_playsOut_endedEarly :
    ∃ p r : Playback (Traced Transcript), Playback.create? ⟨{ cell := ⟨8, 16⟩ }, []⟩ {} = .ok p ∧
      Playback.PlaysOut 0 (p.load Playback.endedEarly) r ∧ r.state = .ended ∧
      (∀ keystrokes, dump {} Playback.endedEarly keystrokes = printed
        (r.console.shown ++
          (eventsBehindEnd Playback.endedEarly).flatMap Event.terminalOutput)
        (r.console.logged ++ String.join
          ((eventsBehindEnd Playback.endedEarly).map Event.keystrokeOutput)) keystrokes) ∧
      eventsBehindEnd Playback.endedEarly = [.incoming 12 [113]] := by
  have hc : ({} : Config).minSpeed.isNaN = false := by decide +kernel
  have hs : ∀ kind, kind ≠ .acknowledge →
      Console.Serves kind ({ cell := ⟨8, 16⟩ } : Transcript) :=
    fun kind hk => Transcript.serves hk _
  obtain ⟨p, r, hp, hr, -, -, hstate, -, hall, -, -⟩ :=
    dump_eq_playsOut hc hs Playback.endedEarly 0
  exact ⟨p, r, hp, hr, hstate, hall, by decide +kernel⟩

/-- A message comes in after the end of the session. It is printed although the replay never shows
it. -/
theorem dump_ne_playsOut : ∃ p r : Playback (Traced Transcript),
    Playback.create? ⟨{ cell := ⟨8, 16⟩ }, []⟩ {} = .ok p ∧
      Playback.PlaysOut 0 (p.load [.stop 0, .incoming 1 [97]]) r ∧ r.state = .ended ∧
      (dump {} [.stop 0, .incoming 1 [97]] false).output = [97] ∧
      r.console.shown = [] := by
  have hc : ({} : Config).minSpeed.isNaN = false := by decide +kernel
  obtain ⟨p, r, hp, hr, -, hstate, -, hshown, -⟩ :=
    Playback.load_playsOut (s := ({ cell := ⟨8, 16⟩ } : Transcript)) hc
      (fun kind hk => Transcript.serves hk _) [.stop 0, .incoming 1 [97]] 0
  have hnone : ([.stop 0, .incoming 1 [97]] : List Event).take
      (playedLength [.stop 0, .incoming 1 [97]]) = [.stop 0] := by decide +kernel
  rw [hnone] at hshown
  refine ⟨p, r, hp, hr, hstate, ?_, hshown⟩
  rw [dump_eq hc]
  decide +kernel

end CommandLine
end SessionPlayback
