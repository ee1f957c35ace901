import SessionPlayback.Bounds
import SessionPlayback.Playback.Output

/-!
Playing on schedule: the delay between events, the step that the timer triggers, pausing, resuming
and changes of speed.
-/

namespace SessionPlayback

/-- The difference of two offsets, kept within 64 bits. -/
def offsetDifference (first second : Int64) : Int :=
  let difference := second.toInt - first.toInt
  if difference < int64Min then int64Min
  else if int64Max < difference then int64Max
  else difference

/-- A recorded gap of that many milliseconds at a speed, in whole milliseconds and never
negative. -/
def scaledMillis (difference : Int) (speed : Binary64) : Nat :=
  ((Binary64.round (Binary64.ofInt difference / speed)).max 0).toNatBounded uint64Max

namespace Playback

variable {σ : Type} [Console σ]

/-- The delay between two events of the sequence: scaled by the speed, then cut. -/
def gap (p : Playback σ) (first second : Nat) : Nanoseconds :=
  match p.events[first]?, p.events[second]? with
  | some a, some b =>
    let delay := scaledMillis (offsetDifference a.offset b.offset) p.speed * nanosPerMilli
    match p.config.maxIdle with
    | some cap => min delay cap
    | none => delay
  | _, _ => 0

def arm (p : Playback σ) (now delay : Nanoseconds) : Playback σ :=
  { p with timer := some ⟨now, delay⟩ }

/-- Arms the timer for the event at the cursor, or settles if there is none to come. -/
def scheduleNext (p : Playback σ) (now : Nanoseconds) : Playback σ :=
  if p.stopped then { p with paused := true }
  else if p.index < p.events.length then p.arm now (p.gap (p.index - 1) p.index)
  else if p.isLive then p
  else { p with paused := true }

/-- Applies the event at the cursor and flushes it. A paused live session applies it and holds its
output and its acknowledgement. -/
def playEvent (now : Nanoseconds) (e : Event) : Action σ Unit := do
  modify fun p => (p.apply e).countAcks (p.index + 1)
  if (← get).paused then modify fun p => { p with index := p.index + 1 }
  else
    flush
    modify fun p =>
      let p := p.sendAcks
      scheduleNext { p with index := p.index + 1 } now

/-- One step of the schedule, taken when the timer fires and when live events arrive while nothing
is scheduled. A paused replay takes none. -/
def step (now : Nanoseconds) : Action σ Unit := do
  modify fun p => { p with timer := none }
  let p ← get
  if p.paused && !p.isLive then pure ()
  else
    match p.events[p.index]? with
    | some e => playEvent now e
    | none => if p.isLive then pure () else set { p with paused := true }

/-- Stops applying events and remembers how much of the delay was left. -/
def pause (p : Playback σ) (now : Nanoseconds) : Playback σ :=
  if p.paused then p
  else
    match p.timer with
    | some timer => { p with paused := true, timer := none, savedDelay := timer.remainingAt now }
    | none => { p with paused := true }

/-- Resumes. Held output and acknowledgements go out first, then the timer is armed with the delay
that was left. A replay that has ended only flushes. -/
def play (now : Nanoseconds) : Action σ Unit := do
  let p ← get
  if !p.paused then pure ()
  else if p.isEnded then flush
  else
    set (countAcks { p with paused := false } p.index)
    flush
    modify fun p =>
      let p := p.sendAcks
      if p.index < p.events.length then
        { p.arm now p.savedDelay with savedDelay := 0 }
      else p

def toggle (now : Nanoseconds) : Action σ Unit := do
  if (← get).paused then play now else modify (·.pause now)

/-- Changes the speed. While playing, the time left until the next event is scaled with it; while
paused it is not. -/
def changeSpeed (now : Nanoseconds) (requested : Binary64) : Action σ Unit := do
  let p ← get
  match p.config.clampSpeed? requested with
  | none => throw .speedBounds
  | some speed =>
    if p.paused then set { p with speed }
    else
      let halted := { p.pause now with speed }
      set halted
      match Delay.scale? halted.savedDelay (p.speed / speed) with
      | none => throw .delayRange
      | some savedDelay =>
        set { halted with savedDelay }
        play now

def increaseSpeed (now : Nanoseconds) : Action σ Unit := do
  let p ← get
  changeSpeed now (p.speed + p.config.speedStep)

def decreaseSpeed (now : Nanoseconds) : Action σ Unit := do
  let p ← get
  changeSpeed now (p.speed - p.config.speedStep)

end Playback

end SessionPlayback
