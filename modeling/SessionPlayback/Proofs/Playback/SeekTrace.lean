import SessionPlayback.Proofs.Playback.Rebuild

/-!
The trace of a seek. A seek that moves makes at most five calls, however many events it applies: a
seek back empties both surfaces first, and then whatever was held and whatever the events on the way
put out goes out in one piece, the size of the terminal before the keystrokes and the keystrokes
before the bytes. Nothing is acknowledged, and what a seek is not meant to change stays as it is.
-/

namespace SessionPlayback

theorem Held.foldl_push (cell : CellMetrics) (events : List Event) (h : Held) :
    events.foldl (fun h e => h.push cell e) h =
      { terminal := h.terminal ++ events.flatMap Event.terminalOutput
        keystrokes := h.keystrokes ++ String.join (events.map Event.keystrokeOutput)
        resize := (lastPresent (·.resizeOutput cell) events).or h.resize } := by
  have ht : (events.foldl (fun h e => h.push cell e) h).terminal = _ :=
    foldl_push_terminal events h
  have hk : (events.foldl (fun h e => h.push cell e) h).keystrokes = _ :=
    foldl_push_keystrokes events h
  rw [← ht, ← hk, ← foldl_push_resize]

namespace Playback

variable {σ : Type} [Console σ]

/-- The events that a seek applies: those up to the target, without the ones that a seek forward
finds applied. -/
def way (target : Nat) (p : Playback σ) : List Event :=
  if target < p.index then p.events.take (target + 1)
  else (p.events.take (target + 1)).drop p.index

def emptyingCalls (target : Nat) (p : Playback σ) : List Call :=
  if target < p.index then [.reset, .clear] else []

/-- What a seek adds to: what is held, or, on an emptied terminal, nothing but its initial size. -/
def heldAtStart (target : Nat) (p : Playback σ) : Held :=
  if target < p.index then { resize := some p.config.initialGeometry } else p.held

def gathered (target : Nat) (p : Playback σ) : Held :=
  let cell := Console.cellMetrics (Console.after (p.emptyingCalls target) p.console)
  let start := p.heldAtStart target
  let way := p.way target
  { terminal := start.terminal ++ way.flatMap Event.terminalOutput
    keystrokes := start.keystrokes ++ String.join (way.map Event.keystrokeOutput)
    resize := (lastPresent (·.resizeOutput cell) way).or start.resize }

def seekCalls (target : Nat) (p : Playback σ) : List Call :=
  p.emptyingCalls target ++ (p.gathered target).calls

theorem acknowledge_notMem_seekCalls (target : Nat) (p : Playback σ) :
    .acknowledge ∉ p.seekCalls target := by
  intro h
  rcases List.mem_append.mp h with h | h
  · unfold emptyingCalls at h
    split at h <;> simp at h
  · exact (p.gathered target).acknowledge_notMem h

/-- What a seek that moves leaves behind: a playback that waits behind the target, of which nothing
else has changed but what is known and shown. -/
structure Arrived (target : Nat) (p q : Playback σ) : Prop where
  paused : q.paused = true
  timer : q.timer = none
  index : q.index = target + 1
  savedDelay : q.savedDelay = p.gap target (target + 1)
  held : q.held = {}
  events : q.events = p.events
  config : q.config = p.config
  speed : q.speed = p.speed
  pendingAcks : q.pendingAcks = p.pendingAcks
  acked : q.acked = p.acked
  isLive : q.isLive = p.isLive
  feed : q.session.feed = p.session.feed

def prepared (now : Nanoseconds) (target : Nat) (p : Playback σ) : Playback σ :=
  (if target < p.index then (p.halted now).rewound else p.halted now).absorbed (p.way target)

variable {p : Playback σ} {target : Nat}

theorem prepared_console (now : Nanoseconds) :
    (p.prepared now target).console = Console.after (p.emptyingCalls target) p.console := by
  unfold prepared emptyingCalls
  rw [halted_eq]
  split <;> rfl

theorem prepared_held (now : Nanoseconds) :
    (p.prepared now target).held = p.gathered target := by
  unfold prepared gathered emptyingCalls heldAtStart
  rw [halted_eq, absorbed, ← Held.foldl_push]
  split <;> rfl

/-- Landing behind the target changes nothing else. -/
theorem prepared_arrived (now : Nanoseconds) :
    Arrived target p ((p.prepared now target).landed target) := by
  have hlive (q : Playback σ) : (q.absorbed (p.way target)).isLive = q.isLive :=
    Metadata.foldl_after_live _ q.session
  have hfeed (q : Playback σ) : (q.absorbed (p.way target)).session.feed = q.session.feed :=
    Metadata.foldl_after_feed _ q.session
  unfold prepared
  rw [halted_eq]
  constructor
  case isLive => exact (hlive _).trans (by split <;> rfl)
  case feed => exact (hfeed _).trans (by split <;> rfl)
  all_goals (split <;> rfl)

/-- Once the surfaces are empty, if they have to be, a seek that moves is a landing of the prepared
playback. -/
theorem moveTo_run_land (now : Nanoseconds)
    (hs : ¬(p.events.length ≤ target ∨ p.index = target + 1))
    (hempty : Console.Succeed (p.emptyingCalls target) p.console) :
    ∃ q events, q.absorbed events = p.prepared now target ∧
      (moveTo now target).run p = (land target events q.isLive).run q := by
  rw [moveTo_run, if_neg hs, ← halted_isLive now p]
  unfold prepared way
  split
  · rename_i hb
    have hc : (p.halted now).console = p.console := by rw [halted_eq]
    rw [emptyingCalls, if_pos hb, ← hc] at hempty
    refine ⟨_, _, rfl, ?_⟩
    rw [EStateM.run_bind, rewind_ok_iff.mpr ⟨hempty, rfl⟩]
    rfl
  · exact ⟨_, _, rfl, rfl⟩

/-- A seek that moves gets behind the target if all its calls succeed. -/
theorem moveTo_of_succeed (now : Nanoseconds)
    (hs : ¬(p.events.length ≤ target ∨ p.index = target + 1))
    (h : Console.Succeed (p.seekCalls target) p.console) :
    (moveTo now target).run p = .ok () ((p.prepared now target).landed target) := by
  obtain ⟨hempty, hflush⟩ := Console.succeed_append.mp h
  rw [← prepared_console now, ← prepared_held now] at hflush
  obtain ⟨q, events, hq, hrun⟩ := moveTo_run_land now hs hempty
  rw [← hq] at hflush ⊢
  rw [hrun]
  exact land_ok_iff.mpr ⟨hflush, rfl⟩

/-- A seek out of range, or to the event that was applied last, does nothing. Any other seek, from
whatever state, makes these calls and no others as long as they succeed, acknowledges nothing, and
comes to rest behind the target with all but the session's own data as it was. -/
theorem moveTo_trace (now : Nanoseconds) (target : Nat) (p : Playback (Traced σ)) :
    (p.events.length ≤ target ∨ p.index = target + 1 →
      (moveTo now target).run p = .ok () p) ∧
    (target < p.events.length → p.index ≠ target + 1 →
      Console.Succeed (p.seekCalls target) p.console →
      ∃ q, (moveTo now target).run p = .ok () q ∧
        q.console.calls = p.console.calls ++ (p.seekCalls target).map (·, true) ∧
        q.console.acknowledged = p.console.acknowledged ∧ Arrived target p q) := by
  constructor
  · intro hstay
    rw [moveTo_run, if_pos hstay]
  · intro ht hi hs
    have hrun := moveTo_of_succeed now (by omega) hs
    have hconsole : ((p.prepared now target).landed target).console =
        Console.after (p.seekCalls target) p.console := by
      unfold seekCalls
      rw [Console.after_append, ← prepared_console now, ← prepared_held now]
      rfl
    refine ⟨_, hrun, ?_, ?_, prepared_arrived now⟩
    · rw [hconsole, Traced.after_calls_of_succeed hs]
    · rw [hconsole, Traced.after_acknowledged_of_notMem (acknowledge_notMem_seekCalls target p)]

/-- With a resize, a keystroke and output held, a live session is taken to its last event and then
back to its second one. -/
theorem traces_over_held : ∃ p q r s : Playback (Traced Transcript),
    create? ⟨counting, []⟩ {} = .ok p ∧ (operateAll heldResizeRun).run p.setLive = .ok () q ∧
      q.seekCalls 7 = [.resize (CellMetrics.geometry ⟨8, 16⟩ 40 120), .append "lsq",
        .write [97, 98, 13, 10, 99]] ∧
      (moveTo 11 7).run q = .ok () r ∧
      r.console.calls = q.console.calls ++ (q.seekCalls 7).map (·, true) ∧
      r.console.acknowledged = q.console.acknowledged ∧ Arrived 7 q r ∧
      r.seekCalls 1 = [.reset, .clear, .resize (CellMetrics.geometry ⟨8, 16⟩ 30 100),
        .write [97]] ∧
      (moveTo 12 1).run r = .ok () s ∧
      s.console.calls = r.console.calls ++ (r.seekCalls 1).map (·, true) ∧
      s.console.acknowledged = r.console.acknowledged ∧ Arrived 1 r s ∧
      (moveTo 13 1).run s = .ok () s := by
  let p : Playback (Traced Transcript) :=
    { config := {}, console := ⟨counting, []⟩, speed := Binary64.ofInt 1 }
  have hserved (u : Playback (Traced Transcript)) : u.Served :=
    fun _ hk => Traced.serves_iff.mpr (Transcript.serves hk _)
  have hsucceed (u : Playback (Traced Transcript)) (target : Nat) :
      Console.Succeed (u.seekCalls target) u.console :=
    (hserved u).succeed (acknowledge_notMem_seekCalls target u)
  have hrun : succeedsWith (operateAll heldResizeRun) (fun q =>
      decide (q.index = 6 ∧ q.events.length = 8 ∧
        q.seekCalls 7 = [.resize (CellMetrics.geometry ⟨8, 16⟩ 40 120), .append "lsq",
          .write [97, 98, 13, 10, 99]])) p.setLive = true := by
    decide +kernel
  obtain ⟨q, hq, htest⟩ := exists_of_succeedsWith hrun
  obtain ⟨hi, hlen, hforward⟩ := of_decide_eq_true htest
  obtain ⟨r, hr, hrcalls, hracks, hra⟩ :=
    (moveTo_trace 11 7 q).2 (by omega) (by omega) (hsucceed q 7)
  have hback : r.seekCalls 1 = [.reset, .clear,
      .resize (CellMetrics.geometry ⟨8, 16⟩ 30 100), .write [97]] := by
    have hrun : succeedsWith (operateAll heldResizeRun) (fun q =>
        succeedsWith (moveTo 11 7) (fun r => decide (r.seekCalls 1 = [.reset, .clear,
          .resize (CellMetrics.geometry ⟨8, 16⟩ 30 100), .write [97]])) q) p.setLive = true := by
      decide +kernel
    simpa [succeedsWith, hq, hr] using hrun
  obtain ⟨s, hs, hscalls, hsacks, hsa⟩ :=
    (moveTo_trace 12 1 r).2 (by rw [hra.events]; omega) (by rw [hra.index]; omega)
      (hsucceed r 1)
  have hstay := (moveTo_trace 13 1 s).1 (.inr hsa.index)
  exact ⟨p, q, r, s, create_default _, hq, hforward, hr, hrcalls, hracks, hra, hback, hs, hscalls,
    hsacks, hsa, hstay⟩

end Playback
end SessionPlayback
