import SessionPlayback.Playback.Schedule

/-!
Runs of steps. Each step either applies the event at the cursor or leaves no timer armed, so the
number of events in front of the cursor bounds every run.
-/

namespace SessionPlayback.Playback

variable {σ : Type} [Console σ]

/-- Events in front of the cursor. -/
def remaining (p : Playback σ) : Nat := p.events.length - p.index

def drainFor (now : Nanoseconds) : Nat → Action σ Unit
  | 0 => pure ()
  | bound + 1 => do
    if (← get).wantsStep then
      step now
      drainFor now bound
    else pure ()

/-- Takes steps as long as a live session has events waiting and nothing scheduled. -/
def drain (now : Nanoseconds) : Action σ Unit := do drainFor now (← get).remaining

/-- When the timer fires; a deadline beyond the clock is a fault. -/
def deadline? (p : Playback σ) : Except Fault (Option Nanoseconds) :=
  match p.timer with
  | none => .ok none
  | some timer => if timer.deadline < clockLimit then .ok (some timer.deadline)
    else .error .clockRange

def fireDueFor (now : Nanoseconds) : Nat → Action σ Unit
  | 0 => pure ()
  | bound + 1 => do
    match (← get).deadline? with
    | .error fault => throw fault
    | .ok none => pure ()
    | .ok (some deadline) =>
      if deadline ≤ now then
        step now
        fireDueFor now bound
      else pure ()

def fireDue (now : Nanoseconds) : Action σ Unit := do fireDueFor now ((← get).remaining + 1)

structure Progress (σ : Type) where
  result : Except Fault Unit
  now : Nanoseconds
  playback : Playback σ

def followFor : Nat → Nanoseconds → Playback σ → Progress σ
  | 0, now, p => ⟨.ok (), now, p⟩
  | bound + 1, now, p =>
    match p.deadline? with
    | .error fault => ⟨.error fault, now, p⟩
    | .ok none => ⟨.ok (), now, p⟩
    | .ok (some deadline) =>
      let now := max now deadline
      match step now p with
      | .ok _ p => followFor bound now p
      | .error fault p => ⟨.error fault, now, p⟩

/-- Takes a step whenever the timer fires, until none is armed. -/
def follow (now : Nanoseconds) (p : Playback σ) : Progress σ := followFor (p.remaining + 1) now p

/-- Plays from the cursor to the end of what is loaded. -/
def playOut (now : Nanoseconds) (p : Playback σ) : Progress σ :=
  match play now p with
  | .ok _ p => follow now p
  | .error fault p => ⟨.error fault, now, p⟩

end SessionPlayback.Playback
