import SessionPlayback.Console.Transcript
import SessionPlayback.Proofs.Event.Output
import SessionPlayback.Proofs.Playback.Replay

/-!
What a playback shows. Whatever was done to it, the terminal and the keystroke log together with
what is held for them are the output of the events before the cursor, the metadata are what these
events told, and nothing is held unless the playback is paused.
-/

namespace SessionPlayback

namespace Held

variable {cell : CellMetrics}

theorem foldl_push_terminal (events : List Event) (h : Held) :
    (events.foldl (fun h e => h.push cell e) h).terminal =
      h.terminal ++ events.flatMap Event.terminalOutput := by
  induction events generalizing h with
  | nil => simp
  | cons e events ih =>
    rw [List.foldl_cons, ih, List.flatMap_cons, ← List.append_assoc]
    rfl

theorem foldl_push_keystrokes (events : List Event) (h : Held) :
    (events.foldl (fun h e => h.push cell e) h).keystrokes =
      h.keystrokes ++ String.join (events.map Event.keystrokeOutput) := by
  induction events generalizing h with
  | nil => simp
  | cons e events ih =>
    rw [List.foldl_cons, ih, List.map_cons, String.join_cons, ← String.append_assoc]
    rfl

end Held

namespace Playback

variable {σ : Type}

/-- The surfaces and what is held for them have the output of exactly these events, and the
metadata are what they told. -/
structure Shows (p : Playback (Traced σ)) (events : List Event) : Prop where
  output : p.console.shown ++ p.held.terminal = events.flatMap Event.terminalOutput
  keystrokes : p.console.logged ++ p.held.keystrokes =
    String.join (events.map Event.keystrokeOutput)
  session : p.session.Tells events

namespace Shows

variable {p q : Playback (Traced σ)} {events more : List Event}

theorem congr (h : p.Shows events) (hc : q.console = p.console) (hh : q.held = p.held)
    (hs : q.session = p.session) : q.Shows events := by
  constructor
  · rw [hc, hh, h.output]
  · rw [hc, hh, h.keystrokes]
  · rw [hs]
    exact h.session

variable [Console σ]

theorem absorbed (h : p.Shows events) (more : List Event) :
    (p.absorbed more).Shows (events ++ more) := by
  constructor
  · simp only [Playback.absorbed, Held.foldl_push_terminal, List.flatMap_append, ← h.output,
      List.append_assoc]
  · simp only [Playback.absorbed, Held.foldl_push_keystrokes, List.map_append,
      String.join_append, ← h.keystrokes, String.append_assoc]
  · exact h.session.foldl_after more

theorem taken (h : p.Shows events) (e : Event) : (p.taken e).Shows (events ++ [e]) :=
  (h.absorbed [e]).congr rfl rfl rfl

/-- Flushing moves held output to the surfaces. -/
theorem flushed (h : p.Shows events) (hf : Console.Succeed p.held.calls p.console) :
    Shows { p.called p.held.calls with held := {} } events := by
  constructor
  · simp [called, Traced.after_shown hf, Held.calls_shown, ← h.output]
  · simp [called, Traced.after_logged hf, Held.calls_logged, ← h.keystrokes]
  · exact h.session

theorem delivered {n : Nat} (h : p.Shows events) (hd : p.Delivers n) :
    (p.delivered n).Shows events := by
  have hf := h.flushed hd.flushes
  constructor
  · simpa [Playback.delivered, called, Console.after_append, Traced.after_replicate_shown]
      using hf.output
  · simpa [Playback.delivered, called, Console.after_append, Traced.after_replicate_logged]
      using hf.keystrokes
  · exact h.session

theorem rewound (hr : Console.Succeed [.reset, .clear] p.console) : p.rewound.Shows [] := by
  constructor
  · change (Console.after _ p.console).shown ++ [] = []
    rw [Traced.after_shown hr]
    rfl
  · change (Console.after _ p.console).logged ++ "" = ""
    rw [Traced.after_logged hr]
    rfl
  · exact p.session.modeOnly_tells

end Shows

/-- The output of the events before the cursor is on the surfaces or held, and it is held only
while the playback is paused. -/
structure Displays (p : Playback (Traced σ)) : Prop where
  index_le : p.index ≤ p.events.length
  shows : p.Shows (p.events.take p.index)
  paused_of_held : p.held ≠ {} → p.paused = true

namespace Displays

variable {p q : Playback (Traced σ)} {now : Nanoseconds}

theorem shown_of_unheld (h : p.Displays) (hh : p.held = {}) :
    p.console.shown = (p.events.take p.index).flatMap Event.terminalOutput ∧
      p.console.logged =
        String.join ((p.events.take p.index).map Event.keystrokeOutput) := by
  have hout := h.shows.output
  have hkeys := h.shows.keystrokes
  rw [hh] at hout hkeys
  exact ⟨by simpa using hout, by simpa using hkeys⟩

theorem pause (h : p.Displays) (now : Nanoseconds) : (p.pause now).Displays := by
  obtain ⟨timer, delay, hs⟩ := pause_frame now p
  rw [hs]
  exact ⟨h.index_le, h.shows.congr rfl rfl rfl, fun _ => rfl⟩

theorem load (h : p.Displays) (events : List Event) : (p.load events).Displays := by
  refine ⟨Nat.le_trans h.index_le (by simp [Playback.load]), ?_, h.paused_of_held⟩
  have ht : (p.events ++ events).take p.index = p.events.take p.index :=
    List.take_append_of_le_length h.index_le
  change Shows _ ((p.events ++ events).take p.index)
  rw [ht]
  exact h.shows.congr rfl rfl rfl

theorem setLive (h : p.Displays) : p.setLive.Displays :=
  ⟨h.index_le, ⟨h.shows.output, h.shows.keystrokes, h.shows.session.withMode true .live⟩,
    h.paused_of_held⟩

theorem setDisconnected (h : p.Displays) (now : Nanoseconds) :
    (p.setDisconnected now).Displays := by
  rw [setDisconnected_eq]
  refine ⟨h.index_le, ⟨h.shows.output, h.shows.keystrokes, ?_⟩, fun hh => ?_⟩
  · exact h.shows.session.withMode false .old
  · simp [h.paused_of_held hh]

variable [Console σ]

theorem stepped (h : p.Displays) (hq : Stepped now p q) : q.Displays := by
  have hnext {e : Event} (he : p.events[p.index]? = some e) :
      p.index + 1 ≤ p.events.length := (List.getElem?_eq_some_iff.mp he).1
  cases hq with
  | resting hp hl => exact ⟨h.index_le, h.shows.congr rfl rfl rfl, fun _ => hp⟩
  | idle he =>
    refine ⟨h.index_le, h.shows.congr rfl rfl rfl, fun hh => ?_⟩
    simp [h.paused_of_held hh]
  | held e hp hl he =>
    refine ⟨hnext he, ?_, fun _ => hp⟩
    refine Shows.congr (p := p.taken e) ?_ rfl rfl rfl
    change (p.taken e).Shows (p.events.take (p.index + 1))
    rw [take_succ_events he]
    exact h.shows.taken e
  | shown e n hp he hd =>
    obtain ⟨timer, paused, hs⟩ :=
      scheduleNext_frame { (p.taken e).delivered n with index := p.index + 1 } now
    rw [hs]
    refine ⟨hnext he, ?_, fun hh => absurd rfl hh⟩
    change Shows _ (p.events.take (p.index + 1))
    rw [take_succ_events he]
    exact ((h.shows.taken e).delivered hd).congr rfl rfl rfl

theorem played (h : p.Displays) (hq : Played now p q) : q.Displays := by
  cases hq with
  | already hp => exact h
  | ended hp he hf =>
    exact ⟨h.index_le, h.shows.flushed hf, fun hh => absurd rfl hh⟩
  | resumed n hp he hd =>
    obtain ⟨timer, delay, hs⟩ := rearmed_frame now (p.resumed.delivered n)
    rw [hs]
    have hr : p.resumed.Shows (p.events.take p.index) := h.shows.congr rfl rfl rfl
    exact ⟨h.index_le, (hr.delivered hd).congr rfl rfl rfl, fun hh => absurd rfl hh⟩

theorem speedChanged (h : p.Displays) (hq : SpeedChanged now p q) : q.Displays := by
  cases hq with
  | paused speed hp => exact ⟨h.index_le, h.shows.congr rfl rfl rfl, h.paused_of_held⟩
  | playing speed delay _ hp hd hq =>
    have hr := h.pause now
    refine played (p := p.rescaled now speed delay) ?_ hq
    exact ⟨hr.index_le, hr.shows.congr rfl rfl rfl, hr.paused_of_held⟩

/-- Landing behind the target, whether the events before it were applied on top of the present
state or from the beginning. -/
theorem landed {s : Playback (Traced σ)} {target : Nat} (ht : target < s.events.length)
    (hs : s.Shows (s.events.take (target + 1)))
    (hf : Console.Succeed s.held.calls s.console) : (s.landed target).Displays :=
  ⟨ht, (hs.flushed hf).congr rfl rfl rfl, fun hh => absurd rfl hh⟩

theorem moved {target : Nat} (h : p.Displays) (hq : Moved now target p q) : q.Displays := by
  have hh : (p.halted now).Shows (p.events.take p.index) := by
    rw [halted_eq]
    exact h.shows.congr rfl rfl rfl
  cases hq with
  | stayed => exact h
  | forward s ht hi hs hf =>
    have he : s.events = p.events := by rw [hs, halted_eq]; rfl
    refine landed (by rwa [he]) ?_ hf
    have hsplit := List.take_append_drop p.index (p.events.take (target + 1))
    rw [List.take_take, Nat.min_eq_left (by omega)] at hsplit
    rw [he, ← hsplit, hs]
    exact hh.absorbed _
  | back s ht hi hr hs hf =>
    have he : s.events = p.events := by rw [hs, halted_eq]; rfl
    refine landed (by rwa [he]) ?_ hf
    have hc : Console.Succeed [.reset, .clear] (p.halted now).console := by rwa [halted_eq]
    rw [he, hs]
    exact (Shows.rewound hc).absorbed (p.events.take (target + 1))

theorem cleared (speed : Binary64) (hs : Console.Succeed
    [.reset, .clear, .resize p.config.initialGeometry] p.console) :
    (p.cleared speed).Displays := by
  refine ⟨Nat.le_refl 0, ⟨?_, ?_, ?_⟩, fun _ => rfl⟩
  · change (Console.after _ p.console).shown ++ [] = []
    rw [Traced.after_shown hs]
    rfl
  · change (Console.after _ p.console).logged ++ "" = ""
    rw [Traced.after_logged hs]
    rfl
  · exact Metadata.modeOnly_tells {}

theorem outcome {op : Operation} (h : p.Displays) (hq : Outcome now p op q) : q.Displays := by
  cases hq with
  | unchanged => exact h
  | stepped _ _ hq => exact h.stepped hq
  | played _ _ hq => exact h.played hq
  | paused => exact h.pause now
  | speedChanged _ _ hq => exact h.speedChanged hq
  | moved _ _ _ hq => exact h.moved hq
  | loaded _ events => exact h.load events
  | live => exact h.setLive
  | disconnected => exact h.setDisconnected now
  | cleared speed hs => exact Displays.cleared speed hs

end Displays

theorem create_displays {s : σ} {config : Config} {p : Playback (Traced σ)}
    (h : create? ⟨s, []⟩ config = .ok p) : p.Displays := by
  obtain ⟨speed, -, rfl⟩ := create_eq h
  exact ⟨Nat.le_refl 0, ⟨rfl, rfl, Metadata.modeOnly_tells {}⟩, fun hh => absurd rfl hh⟩

/-- After every run the output and the metadata of the events before the cursor are there, and
something is held only while a playback that was made live is paused. -/
theorem displays_of_operateAll [Console σ] {s : σ} {config : Config} {p q : Playback (Traced σ)}
    {ops : List (Nanoseconds × Operation)} (hc : create? ⟨s, []⟩ config = .ok p)
    (h : (operateAll ops).run p = .ok () q) :
    q.index ≤ q.events.length ∧
      q.console.shown ++ q.held.terminal = (q.events.take q.index).flatMap Event.onTerminal ∧
      q.console.logged ++ q.held.keystrokes =
        String.join ((q.events.take q.index).map Event.inLog) ∧
      q.session.Tells (q.events.take q.index) ∧
      (q.held ≠ {} → q.paused = true ∧ ∃ now, (now, .command .setLive) ∈ ops) := by
  have hd : q.Displays :=
    operateAll_keeps (fun _ _ _ _ _ hq hp => hp.outcome hq) h (create_displays hc)
  rw [← Event.flatMap_terminalOutput, ← Event.map_keystrokeOutput]
  refine ⟨hd.index_le, hd.shows.output, hd.shows.keystrokes, hd.shows.session, fun hh => ?_⟩
  refine ⟨hd.paused_of_held hh, ?_⟩
  by_contra hl
  refine hh (operateAll_replays ?_ h (create_replays hc)).unheld
  rintro ⟨now, op⟩ ho rfl
  exact hl ⟨now, ho⟩

/-- A replay starts over as a live session, which takes events while it is paused and while it
plays, seeks back, plays on as a replay, and is live and paused when the rest comes in. -/
def mixedRun : List (Nanoseconds × Operation) := [
  (0, .command (.load [.incoming 0 [72]])), (1, .command .play), (2, .step),
  (3, .command .reset), (4, .command .setLive),
  (5, .command (.load [.start 0 { username := some "ada" }, .exec 0 "ls", .incoming 3 [104, 10],
    .outgoing 5 [27, 91, 65]])),
  (6, .step), (7, .step), (8, .step), (9, .command .play), (10, .step),
  (11, .command .previous), (12, .command (.setSpeed (Binary64.ofInt 2))),
  (13, .command .toggle), (14, .command .setDisconnected), (15, .command .pause),
  (16, .command .next), (17, .command .setLive),
  (18, .command (.load [.resize 7 40 100, .incoming 8 [105, 13, 10], .outgoing 9 [113],
    .incoming 10 [106]])),
  (19, .step), (20, .step), (21, .step)]

/-- Three of the events that came in last are applied, and what they put out is held. -/
theorem displays_after_mixedRun : ∃ p q : Playback (Traced Transcript),
    create? ⟨{ cell := ⟨8, 16⟩ }, []⟩ {} = .ok p ∧ (operateAll mixedRun).run p = .ok () q ∧
      q.index ≤ q.events.length ∧
      q.console.shown ++ q.held.terminal = (q.events.take q.index).flatMap Event.onTerminal ∧
      q.console.logged ++ q.held.keystrokes =
        String.join ((q.events.take q.index).map Event.inLog) ∧
      q.session.Tells (q.events.take q.index) ∧
      (q.held ≠ {} → q.paused = true ∧ ∃ now, (now, .command .setLive) ∈ mixedRun) ∧
      q.index = 7 ∧ q.events.length = 8 ∧ q.paused = true ∧
      q.console.shown = [104, 13, 10] ∧ q.held.terminal = [105, 13, 10] ∧
      q.console.logged = "ls[UP]" ∧ q.held.keystrokes = "q" ∧
      q.session =
        { username := some "ada", rows := some 40, cols := some 100, terminalType := some .exec,
          live := true, feed := .live } := by
  let s : Traced Transcript := ⟨{ cell := ⟨8, 16⟩ }, []⟩
  obtain ⟨q, hq, htest⟩ := exists_run_ok (x := operateAll mixedRun)
    (p := { config := {}, console := s, speed := Binary64.ofInt 1 })
    (fun q => decide (q.index = 7 ∧ q.events.length = 8 ∧ q.paused = true ∧
      q.console.shown = [104, 13, 10] ∧ q.held.terminal = [105, 13, 10] ∧
      q.console.logged = "ls[UP]" ∧ q.held.keystrokes = "q" ∧
      q.session =
        { username := some "ada", rows := some 40, cols := some 100, terminalType := some .exec,
          live := true, feed := .live }))
    (by decide +kernel)
  have hc := create_default s
  obtain ⟨hi, hshown, hlogged, htells, hheld⟩ := displays_of_operateAll hc hq
  exact ⟨_, q, hc, hq, hi, hshown, hlogged, htells, hheld, of_decide_eq_true htest⟩

end Playback
end SessionPlayback
