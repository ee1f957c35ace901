import SessionPlayback.Bounds
import SessionPlayback.Console
import SessionPlayback.Playback.Status

/-!
A terminal that is driven by control sequences. Everything goes out through a sink that takes all
bytes or, once it is closed, none.
-/

namespace SessionPlayback

structure ByteSink where
  /-- Everything taken so far. -/
  written : List UInt8 := []
  closed : Bool := false
  deriving DecidableEq, Repr

namespace ByteSink

def closedFault : IoFault := .other "sink closed"

/-- Takes bytes. No bytes are no work, so even a closed sink takes them. -/
def write (s : ByteSink) (bytes : List UInt8) : Except IoFault Unit × ByteSink :=
  if bytes.isEmpty then (.ok (), s)
  else if s.closed then (.error closedFault, s)
  else (.ok (), { s with written := s.written ++ bytes })

end ByteSink

structure Terminal where
  sink : ByteSink := {}
  cell : CellMetrics
  /-- Whether the terminal is asked to take the recorded sizes. -/
  followsResizes : Bool := false
  deriving DecidableEq, Repr

namespace Terminal

def control (rest : String) : String := "\x1b[" ++ rest

/-- Forgets what has scrolled off, clears the screen and puts the cursor into its first cell. -/
def resetSequence : String := control "3J" ++ control "2J" ++ control "1;1H"

/-- Sets the size in cells; larger counts than the sequence can name are cut. -/
def resizeSequence (g : Geometry) : String :=
  control ("8;" ++ toString (min g.rows.toNat uint16Max) ++ ";" ++
    toString (min g.cols.toNat uint16Max) ++ "t")

def titleSequence (title : String) : String := "\x1b]0;" ++ title ++ "\x07"

def send (t : Terminal) (bytes : List UInt8) : Except Error Unit × Terminal :=
  let (result, sink) := t.sink.write bytes
  (result.mapError fun fault => .renderer fault.message, { t with sink })

def write (t : Terminal) (bytes : List UInt8) : Except Error Unit × Terminal := t.send bytes

def reset (t : Terminal) : Except Error Unit × Terminal := t.send (Text.utf8 resetSequence)

def resize (t : Terminal) (g : Geometry) : Except Error Unit × Terminal :=
  if t.followsResizes then t.send (Text.utf8 (resizeSequence g)) else (.ok (), t)

def showStatus (t : Terminal) (status : Status) : Except Error Unit × Terminal :=
  let (result, sink) := t.sink.write (Text.utf8 (titleSequence status.line))
  (result.mapError fun fault => .ioWhile "setting title" fault, { t with sink })

end Terminal

end SessionPlayback
