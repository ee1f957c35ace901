import SessionPlayback.Console
import SessionPlayback.Feed.Queue

/-!
Surfaces that keep everything that is sent to them instead of showing it.
-/

namespace SessionPlayback

/-- What a terminal has received. -/
structure Screen where
  /-- Every write, in order, across resets. -/
  writes : List (List UInt8) := []
  /-- The bytes since the last reset. -/
  output : List UInt8 := []
  resets : Nat := 0
  /-- Every resize, in order. -/
  resizes : List Geometry := []
  deriving DecidableEq, Repr

namespace Screen

def write (s : Screen) (bytes : List UInt8) : Screen :=
  { s with writes := s.writes ++ [bytes], output := s.output ++ bytes }

def reset (s : Screen) : Screen := { s with output := [], resets := s.resets + 1 }

def resize (s : Screen) (g : Geometry) : Screen := { s with resizes := s.resizes ++ [g] }

def geometry (s : Screen) : Option Geometry := s.resizes.getLast?

def text (s : Screen) : String := Text.ofUtf8Lossy s.output

end Screen

structure KeystrokeLog where
  /-- The text since the last clearing. -/
  text : String := ""
  appends : Nat := 0
  deriving DecidableEq, Repr

namespace KeystrokeLog

def append (l : KeystrokeLog) (text : String) : KeystrokeLog :=
  ⟨l.text ++ text, l.appends + 1⟩

def clear (l : KeystrokeLog) : KeystrokeLog := { l with text := "" }

end KeystrokeLog

inductive Acknowledger where
  /-- Nobody expects any. -/
  | silent
  /-- They are counted. -/
  | counting (count : Nat)
  /-- The way back is gone. -/
  | closed
  /-- They wait for the sender of a feed. -/
  | feed (queue : AckQueue)
  deriving DecidableEq, Repr

namespace Acknowledger

def acknowledge : Acknowledger → Except Error Unit × Acknowledger
  | .silent => (.ok (), .silent)
  | .counting count => (.ok (), .counting (count + 1))
  | .closed => (.error .transportClosed, .closed)
  | .feed queue => if queue.listening then (.ok (), .feed queue.push)
    else (.error .transportClosed, .feed queue)

def count? : Acknowledger → Option Nat
  | .counting count => some count
  | .closed => some 0
  | _ => none

end Acknowledger

/-- A terminal, a keystroke log and an acknowledger that keep what they receive. -/
structure Transcript where
  cell : CellMetrics
  acks : Acknowledger := .silent
  screen : Screen := {}
  log : KeystrokeLog := {}
  deriving DecidableEq, Repr

namespace Transcript

def perform (call : Call) (t : Transcript) : Except Error Unit × Transcript :=
  match call with
  | .write bytes => (.ok (), { t with screen := t.screen.write bytes })
  | .reset => (.ok (), { t with screen := t.screen.reset })
  | .resize g => (.ok (), { t with screen := t.screen.resize g })
  | .append text => (.ok (), { t with log := t.log.append text })
  | .clear => (.ok (), { t with log := t.log.clear })
  | .acknowledge =>
    let (result, acks) := t.acks.acknowledge
    (result, { t with acks })

instance : Console Transcript where
  perform := perform
  cellMetrics t := t.cell

end Transcript

end SessionPlayback
