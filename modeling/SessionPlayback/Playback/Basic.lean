import SessionPlayback.Config
import SessionPlayback.Console
import SessionPlayback.Keystrokes
import SessionPlayback.Metadata
import SessionPlayback.Newlines
import SessionPlayback.Timer

/-!
The state of a playback: a sequence of events and a cursor into it. Events before the cursor have
been applied; what they put out has reached the surfaces or is held. A playback never waits by
itself: it arms a timer, and whoever drives it takes a step when the timer fires.

A replay ends at its last event or at the end of the session. A live session has no end: when the
cursor has caught up the playback is idle until more events are loaded. Each live event is
acknowledged once what it put out has been flushed.
-/

namespace SessionPlayback

namespace Event

def terminalOutput (e : Event) : List UInt8 :=
  match e.kind with
  | .message ⟨.incoming, data⟩ =>
    match decodePayload data with
    | .ok bytes => Newlines.normalize bytes
    | .error _ => []
  | _ => []

/-- The text that the event adds to the keystroke log: keys that were pressed, a single zero byte
excepted, or a command. -/
def keystrokeOutput (e : Event) : String :=
  match e.kind with
  | .message ⟨.outgoing, data⟩ =>
    match decodePayload data with
    | .ok bytes => if bytes = [0] then "" else Keystrokes.escapeBytes bytes
    | .error _ => ""
  | .request r =>
    match r.purpose with
    | .exec =>
      match r.command with
      | .ok bytes => Keystrokes.escapeBytes bytes
      | .error _ => ""
    | _ => ""
  | _ => ""

def resizeOutput (cell : CellMetrics) (e : Event) : Option Geometry :=
  match e.kind with
  | .resize r => some (cell.geometry r.rows r.cols)
  | _ => none

end Event

def Metadata.after (m : Metadata) (e : Event) : Metadata :=
  match e.kind with
  | .start s => m.mergeStart s
  | .resize r => m.mergeResize r
  | .request r =>
    match r.purpose with
    | .exec => { m with terminalType := some .exec }
    | .terminal => { m with terminalType := some .interactive }
    | .other => m
  | _ => m

/-- Output that has not been flushed. -/
structure Held where
  terminal : List UInt8 := []
  keystrokes : String := ""
  resize : Option Geometry := none
  deriving DecidableEq, Repr

/-- The output of one more event; a resize replaces the one before it. -/
def Held.push (h : Held) (cell : CellMetrics) (e : Event) : Held where
  terminal := h.terminal ++ e.terminalOutput
  keystrokes := h.keystrokes ++ e.keystrokeOutput
  resize := (e.resizeOutput cell).or h.resize

structure Playback (σ : Type) where
  config : Config
  console : σ
  events : List Event := []
  /-- The cursor: the next event to apply. -/
  index : Nat := 0
  paused : Bool := true
  speed : Binary64
  session : Metadata := {}
  held : Held := {}
  timer : Option Timer := none
  /-- What was left of the delay at the last pause or seek. -/
  savedDelay : Nanoseconds := 0
  /-- Whether a replay has met the end of the session. -/
  stopped : Bool := false
  /-- Live events counted for acknowledgement and not yet acknowledged. -/
  pendingAcks : Nat := 0
  /-- Live events before this one have been counted. -/
  acked : Nat := 0

inductive Playback.Fault where
  | failed (e : Error)
  /-- The lowest speed is not a number. -/
  | speedBounds
  /-- A delay would be negative or too long. -/
  | delayRange
  /-- A deadline would lie beyond the clock. -/
  | clockRange
  deriving DecidableEq, Repr

/-- An operation of a playback. When it gives up, the changes made so far stay. -/
abbrev Playback.Action (σ : Type) := EStateM Playback.Fault (Playback σ)

inductive PlaybackState where
  | ended
  | playing
  | paused
  deriving DecidableEq, Repr

def PlaybackState.name : PlaybackState → String
  | .ended => "ended"
  | .playing => "playing"
  | .paused => "paused"

namespace Playback

variable {σ : Type}

def create? (console : σ) (config : Config) : Except Fault (Playback σ) :=
  match config.clampSpeed? config.speed with
  | some speed => .ok { config, console, speed }
  | none => .error .speedBounds

def isLive (p : Playback σ) : Bool := p.session.live

def isEnded (p : Playback σ) : Bool :=
  !p.isLive && (decide (p.events.length ≤ p.index) || p.stopped)

def state (p : Playback σ) : PlaybackState :=
  if p.isEnded then .ended else if p.paused then .paused else .playing

/-- Whether a live session has an event to apply and nothing is scheduled. While paused only events
that were never applied count, so that a seek back into a live session stays where it went. -/
def wantsStep (p : Playback σ) : Bool :=
  p.isLive && p.timer.isNone && decide (p.index < p.events.length) &&
    (!p.paused || decide (p.acked ≤ p.index))

/-- Time until the timer fires, zero when none is armed. -/
def timeToNextEvent (p : Playback σ) (now : Nanoseconds) : Nanoseconds :=
  (p.timer.map (·.remainingAt now)).getD 0

def load (p : Playback σ) (events : List Event) : Playback σ :=
  { p with events := p.events ++ events }

def setLive (p : Playback σ) : Playback σ := { p with session := p.session.setLive }

end Playback

end SessionPlayback
