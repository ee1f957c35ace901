import SessionPlayback.Proofs.Playback.SeekTrace
import SessionPlayback.Proofs.Playback.Unending

/-!
What is held, told from what happened. A record is kept beside a playback of the events that were
applied since output of each kind was last flushed; it never looks at the output itself. Whatever is
done to the playback, and whatever of it fails, what is held is the output of the events on record.
-/

namespace SessionPlayback

structure Applied where
  cell : CellMetrics
  event : Event

/-- The events applied since output of each kind was last flushed. These differ by kind only after
a flush that failed, because it got no further than to the call that failed. -/
structure Unflushed where
  resize : List Applied := []
  keystrokes : List Applied := []
  terminal : List Applied := []

namespace Unflushed

def output (u : Unflushed) : Held where
  resize := (u.resize.filterMap fun a => a.event.resizeOutput a.cell).getLast?
  keystrokes := String.join (u.keystrokes.map (·.event.keystrokeOutput))
  terminal := u.terminal.flatMap (·.event.terminalOutput)

def apply (cell : CellMetrics) (events : List Event) (u : Unflushed) : Unflushed :=
  let more := events.map (Applied.mk cell)
  { resize := u.resize ++ more
    keystrokes := u.keystrokes ++ more
    terminal := u.terminal ++ more }

theorem output_apply (cell : CellMetrics) (events : List Event) (u : Unflushed) :
    (u.apply cell events).output = events.foldl (fun h e => h.push cell e) u.output := by
  rw [Held.foldl_push]
  simp [output, apply, lastPresent, List.filterMap_map, List.getLast?_append,
    List.flatMap_map, Function.comp_def, String.join_append]

variable {σ : Type} [Console σ]

/-- That output has been flushed to surfaces in that state: a kind is off the record once the calls
for the kinds before it have succeeded. -/
def flushed (s : σ) (h : Held) (u : Unflushed) : Unflushed where
  resize := []
  keystrokes := if Console.Succeed h.resizeCalls s then [] else u.keystrokes
  terminal := if Console.Succeed (h.resizeCalls ++ h.keystrokeCalls) s then [] else u.terminal

theorem output_flushed {s : σ} {h : Held} {u : Unflushed}
    (hk : h.keystrokes = u.output.keystrokes) (ht : h.terminal = u.output.terminal) :
    (u.flushed s h).output = h.left s := by
  simp only [flushed, output, Held.left, hk, ht]
  congr 1
  · split <;> rfl
  · split <;> rfl

/-- A step applies an event, unless there is none or a replay is paused, and flushes unless the
playback is paused. -/
def step (p : Playback σ) (u : Unflushed) : Unflushed :=
  match p.events[p.index]? with
  | none => u
  | some e =>
    if p.paused && !p.isLive then u
    else if p.paused then u.apply (Console.cellMetrics p.console) [e]
    else (u.apply (Console.cellMetrics p.console) [e]).flushed p.console (p.taken e).held

def play (p : Playback σ) (u : Unflushed) : Unflushed :=
  if p.paused then u.flushed p.console p.held else u

/-- A change of speed while playing resumes, provided that the speed and the delay can be
changed. -/
def changeSpeed (now : Nanoseconds) (requested : Binary64) (p : Playback σ) (u : Unflushed) :
    Unflushed :=
  match p.config.clampSpeed? requested with
  | none => u
  | some speed =>
    if p.paused then u
    else if (Delay.scale? (p.pause now).savedDelay (p.speed / speed)).isNone then u
    else u.flushed p.console p.held

/-- A seek that moves applies the events on its way, from a clean record if it goes back, and
flushes. -/
def moveTo (target : Nat) (p : Playback σ) (u : Unflushed) : Unflushed :=
  if p.events.length ≤ target ∨ p.index = target + 1 then u
  else if Console.Succeed (p.emptyingCalls target) p.console then
    let s := Console.after (p.emptyingCalls target) p.console
    let start := if target < p.index then {} else u
    (start.apply (Console.cellMetrics s) (p.way target)).flushed s (p.gathered target)
  else u

/-- Starting over drops the record, provided that there is a speed to start with. -/
def reset (p : Playback σ) (u : Unflushed) : Unflushed :=
  if (p.config.clampSpeed? p.config.speed).isSome then {} else u

def carryOut (now : Nanoseconds) (p : Playback σ) (u : Unflushed) : Command → Unflushed
  | .play => u.play p
  | .toggle => u.play p
  | .next => u.moveTo p.index p
  | .previous => if 2 ≤ p.index then u.moveTo (p.index - 2) p else u
  | .seek target => u.moveTo target p
  | .increaseSpeed => u.changeSpeed now (p.speed + p.config.speedStep) p
  | .decreaseSpeed => u.changeSpeed now (p.speed - p.config.speedStep) p
  | .setSpeed speed => u.changeSpeed now speed p
  | .reset => u.reset p
  | .pause | .load _ | .setLive | .setDisconnected | .shutdown => u

def access (now : Nanoseconds) (p : Playback σ) (u : Unflushed) : Access → Unflushed
  | .operation .step => u.step p
  | .operation (.command c) => u.carryOut now p c
  | .absorb e => u.apply (Console.cellMetrics p.console) [e]
  | .flush => u.flushed p.console p.held
  | .acknowledgeReceipt _ => u

end Unflushed

namespace Playback

variable {σ : Type}

def reached (x : Action σ Unit) (p : Playback σ) : Playback σ :=
  match x.run p with
  | .ok _ q => q
  | .error _ q => q

theorem Ends.reached {I : Playback σ → Prop} {x : Action σ Unit} {p : Playback σ}
    (h : Ends I I x p) : I (reached x p) := by
  unfold Playback.reached
  split
  · exact h.of_ok ‹_›
  · exact h.of_error ‹_›

abbrev Leaves (h : Held) (x : Action σ Unit) (p : Playback σ) : Prop :=
  Ends (·.held = h) (·.held = h) x p

theorem Leaves.bind_modify {h : Held} {x : Action σ Unit} {p : Playback σ}
    {f : Playback σ → Playback σ} (hx : Leaves h x p) (hf : ∀ q, (f q).held = q.held) :
    Leaves h (do x; modify f) p :=
  Ends.bind hx fun q hq => (hf q).trans hq

variable [Console σ]

theorem flush_leaves (p : Playback σ) : Leaves (p.held.left p.console) flush p := by
  apply Ends.of_run
  · intro q hq
    obtain ⟨hs, rfl⟩ := flush_ok_iff.mp hq
    exact (Held.left_of_succeed hs).symm
  · intro f q hq
    obtain ⟨made, -, rfl⟩ := flush_fails hq
    rfl

theorem sendAcks_held (p : Playback σ) : p.sendAcks.held = p.held := by
  obtain ⟨n, -, -, hs⟩ := sendAcks_eq p
  rw [hs]
  rfl

theorem showTaken_leaves (now : Nanoseconds) (p : Playback σ) :
    Leaves (p.held.left p.console) (showTaken now) p := by
  apply (flush_leaves p).bind_modify
  intro q
  obtain ⟨timer, paused, hs⟩ :=
    scheduleNext_frame { q.sendAcks with index := q.sendAcks.index + 1 } now
  dsimp only
  rw [hs]
  exact sendAcks_held q

theorem showResumed_leaves (now : Nanoseconds) (p : Playback σ) :
    Leaves (p.held.left p.console) (showResumed now) p := by
  apply (flush_leaves p).bind_modify
  intro q
  obtain ⟨timer, delay, hs⟩ := rearmed_frame now q.sendAcks
  rw [hs]
  exact sendAcks_held q

theorem perform_leaves (call : Call) (p : Playback σ) : Leaves p.held (perform call) p := by
  apply Ends.of_run
  · intro q hq
    obtain ⟨-, rfl⟩ := perform_ok_iff.mp hq
    rfl
  · intro f q hq
    rw [perform_error hq]
    rfl

theorem land_leaves (target : Nat) (events : List Event) (p : Playback σ) :
    Leaves ((p.absorbed events).held.left (p.absorbed events).console)
      (land target events p.isLive) p := by
  apply Ends.of_run
  · intro q hq
    obtain ⟨hf, rfl⟩ := land_ok_iff.mp hq
    exact (Held.left_of_succeed hf).symm
  · intro f q hq
    exact (flush_leaves _).of_error (land_error hq)

/-- A seek back that cannot empty the surfaces leaves what is held. -/
theorem moveTo_leaves {p : Playback σ} {target : Nat} (now : Nanoseconds)
    (hempty : ¬Console.Succeed (p.emptyingCalls target) p.console) :
    Leaves p.held (moveTo now target) p := by
  have hb : target < p.index := by
    by_contra hb
    exact hempty (by simp [emptyingCalls, hb])
  have hn : ¬Console.Succeed [.reset, .clear] (p.halted now).console := by
    rw [halted_eq]
    rwa [emptyingCalls, if_pos hb] at hempty
  have hh : (p.halted now).held = p.held := by rw [halted_eq]
  apply Ends.of_run
  · intro q hq
    rw [moveTo_run, if_pos hb] at hq
    split at hq
    · cases hq
      rfl
    · obtain ⟨r, hr, -⟩ := run_bind_ok_iff.mp hq
      exact absurd (rewind_ok_iff.mp hr).1 hn
  · intro f q hq
    rw [moveTo_run, if_pos hb] at hq
    split at hq
    · cases hq
    · rcases run_bind_error_iff.mp hq with hr | ⟨r, hr, -⟩
      · obtain ⟨-, made, -, rfl⟩ := rewind_error hr
        exact hh
      · exact absurd (rewind_ok_iff.mp hr).1 hn

def Owes (u : Unflushed) (p : Playback σ) : Prop := p.held = u.output

namespace Owes

variable {u : Unflushed} {p : Playback σ}

theorem output_flushed (h : p.Owes u) :
    (u.flushed p.console p.held).output = p.held.left p.console := by
  apply Unflushed.output_flushed
  · rw [h]
  · rw [h]

theorem step (h : p.Owes u) (now : Nanoseconds) :
    Leaves (u.step p).output (step now) p := by
  unfold Leaves Ends
  cases he : p.events[p.index]? with
  | none =>
    rw [step_run_none he]
    simp only [Unflushed.step, he]
    exact h
  | some e =>
    have ht : (p.taken e).Owes (u.apply (Console.cellMetrics p.console) [e]) := by
      unfold Owes
      rw [Unflushed.output_apply, ← h]
      rfl
    rw [step_run_some he]
    simp only [Unflushed.step, he]
    split_ifs
    · exact h
    · exact ht
    · have hf : (Unflushed.flushed p.console (p.taken e).held _).output =
          (p.taken e).held.left p.console := ht.output_flushed
      rw [hf]
      exact showTaken_leaves now (p.taken e)

theorem play (h : p.Owes u) (now : Nanoseconds) :
    Leaves (u.play p).output (play now) p := by
  unfold Leaves Ends
  rw [play_run]
  unfold Unflushed.play
  cases hp : p.paused with
  | false => exact h
  | true =>
    simp only [Bool.not_true, Bool.false_eq_true, ↓reduceIte, h.output_flushed]
    split_ifs
    · exact flush_leaves p
    · exact showResumed_leaves now p.resumed

theorem changeSpeed (h : p.Owes u) (now : Nanoseconds) (requested : Binary64) :
    Leaves (u.changeSpeed now requested p).output (changeSpeed now requested) p := by
  unfold Leaves Ends
  simp only [Playback.changeSpeed, EStateM.run_bind, EStateM.run_get, Unflushed.changeSpeed]
  cases p.config.clampSpeed? requested with
  | none => exact h
  | some speed =>
    dsimp only
    cases hp : p.paused with
    | true => exact h
    | false =>
      have hpause := pause_of_playing now hp
      simp only [Bool.false_eq_true, ↓reduceIte, EStateM.run_bind, EStateM.run_set]
      cases hd : Delay.scale? (p.pause now).savedDelay (p.speed / speed) with
      | none =>
        change (p.pause now).held = u.output
        rw [hpause]
        exact h
      | some delay =>
        have hr : (p.rescaled now speed delay).Owes u := by
          unfold rescaled
          rw [hpause]
          exact h
        have hu : u.play (p.rescaled now speed delay) = u.flushed p.console p.held := by
          unfold Unflushed.play rescaled
          rw [hpause]
          rfl
        rw [Option.isNone_some, if_neg Bool.false_ne_true, ← hu]
        exact hr.play now

/-- What a seek gathers is the output of the events on its way and of those that were on record,
which a seek back does not ask for. -/
theorem output_gathered (h : p.Owes u) (target : Nat) :
    (((if target < p.index then {} else u).apply
      (Console.cellMetrics (Console.after (p.emptyingCalls target) p.console))
      (p.way target)).flushed (Console.after (p.emptyingCalls target) p.console)
      (p.gathered target)).output =
    (p.gathered target).left (Console.after (p.emptyingCalls target) p.console) := by
  have hstart : (p.heldAtStart target).keystrokes =
      (if target < p.index then {} else u : Unflushed).output.keystrokes ∧
      (p.heldAtStart target).terminal =
        (if target < p.index then {} else u : Unflushed).output.terminal := by
    unfold heldAtStart
    split
    · exact ⟨rfl, rfl⟩
    · rw [h]
      exact ⟨rfl, rfl⟩
  apply Unflushed.output_flushed
  · rw [Unflushed.output_apply, Held.foldl_push, ← hstart.1]
    rfl
  · rw [Unflushed.output_apply, Held.foldl_push, ← hstart.2]
    rfl

theorem moveTo (h : p.Owes u) (now : Nanoseconds) (target : Nat) :
    Leaves (u.moveTo target p).output (moveTo now target) p := by
  unfold Leaves Unflushed.moveTo
  by_cases hs : p.events.length ≤ target ∨ p.index = target + 1
  · rw [if_pos hs]
    apply Ends.congr (y := (pure () : Action σ Unit)) (q := p)
    · rw [moveTo_run, if_pos hs]
      rfl
    · exact h
  · rw [if_neg hs]
    by_cases hempty : Console.Succeed (p.emptyingCalls target) p.console
    · obtain ⟨q, events, hq, hrun⟩ := moveTo_run_land now hs hempty
      have hl := land_leaves target events q
      rw [hq, prepared_held, prepared_console, ← h.output_gathered target] at hl
      rw [if_pos hempty]
      exact hl.congr hrun
    · rw [if_neg hempty]
      exact h ▸ moveTo_leaves now hempty

theorem reset (h : p.Owes u) : Leaves (u.reset p).output reset p := by
  have hempty {q : Playback σ} (hq : q.held = {}) (call : Call) :
      Leaves {} (perform call) q := hq ▸ perform_leaves call q
  unfold Leaves Ends
  simp only [Playback.reset, EStateM.run_bind, EStateM.run_modify, EStateM.run_get,
    Unflushed.reset]
  cases p.config.clampSpeed? p.config.speed with
  | none => exact h
  | some speed =>
    simp only [EStateM.run_bind, EStateM.run_set]
    exact Ends.bind (hempty rfl _) fun q hq => Ends.bind (hempty hq _) fun r hr => hempty hr _

omit [Console σ] in
theorem pause (h : p.Owes u) (now : Nanoseconds) : (p.pause now).Owes u := by
  obtain ⟨timer, delay, hs⟩ := pause_frame now p
  rw [hs]
  exact h

theorem carryOut (h : p.Owes u) (now : Nanoseconds) (c : Command) :
    Leaves (u.carryOut now p c).output (carryOut now c) p := by
  cases c with
  | play => exact h.play now
  | pause => exact h.pause now
  | toggle =>
    by_cases hp : p.paused = true
    · exact (h.play now).congr (by rw [Playback.carryOut, toggle_run, if_pos hp])
    · unfold Leaves Ends
      rw [Playback.carryOut, toggle_run, if_neg hp, Unflushed.carryOut, Unflushed.play, if_neg hp]
      exact h.pause now
  | next => exact h.moveTo now p.index
  | previous =>
    unfold Leaves Ends
    rw [Playback.carryOut, previous_run]
    unfold Unflushed.carryOut
    split_ifs
    · exact h.moveTo now (p.index - 2)
    · exact h
  | seek target => exact h.moveTo now target
  | increaseSpeed => exact h.changeSpeed now (p.speed + p.config.speedStep)
  | decreaseSpeed => exact h.changeSpeed now (p.speed - p.config.speedStep)
  | setSpeed speed => exact h.changeSpeed now speed
  | load events => exact h
  | setLive => exact h
  | setDisconnected =>
    change (p.setDisconnected now).held = u.output
    rw [setDisconnected_eq]
    exact h
  | reset => exact h.reset
  | shutdown => exact h

theorem access (h : p.Owes u) (now : Nanoseconds) (a : Access) :
    (reached (access now a) p).Owes (u.access now p a) := by
  apply Ends.reached (I := fun q => q.held = (u.access now p a).output)
  cases a with
  | operation op =>
    cases op with
    | step => exact h.step now
    | command c => exact h.carryOut now c
  | absorb e =>
    change (p.absorb e).held = _
    rw [Unflushed.access, Unflushed.output_apply, ← h]
    rfl
  | flush =>
    rw [Unflushed.access, h.output_flushed]
    exact flush_leaves p
  | acknowledgeReceipt count =>
    obtain ⟨n, -, hs⟩ := acknowledgeReceipt_eq count p
    change (acknowledgeReceipt count p).held = u.output
    rw [hs]
    exact h

end Owes

/-- One thing after the other; one that fails does not keep the others from being tried. -/
def reachedAll (accesses : List (Nanoseconds × Access)) (p : Playback σ) : Playback σ :=
  accesses.foldl (fun p (now, a) => reached (access now a) p) p

theorem reachedAll_append (front back : List (Nanoseconds × Access)) (p : Playback σ) :
    reachedAll (front ++ back) p = reachedAll back (reachedAll front p) :=
  List.foldl_append

def recorded : List (Nanoseconds × Access) → Playback σ → Unflushed → Unflushed
  | [], _, u => u
  | (now, a) :: rest, p, u => recorded rest (reached (access now a) p) (u.access now p a)

theorem Owes.reachedAll {u : Unflushed} {p : Playback σ} (h : p.Owes u)
    (accesses : List (Nanoseconds × Access)) :
    (reachedAll accesses p).Owes (recorded accesses p u) := by
  induction accesses generalizing p u with
  | nil => exact h
  | cons o rest ih => exact ih (h.access o.1 o.2)

end Playback
end SessionPlayback
