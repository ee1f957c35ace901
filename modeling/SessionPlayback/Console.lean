import SessionPlayback.Error
import SessionPlayback.Geometry

/-!
The surfaces that a playback drives: a terminal grid, a keystroke log, and the way back to the
sender of a live session.
-/

namespace SessionPlayback

/-- What a playback asks of its surfaces. -/
inductive Call where
  | write (bytes : List UInt8)
  /-- Clear the terminal, what has scrolled off it and its cursor. -/
  | reset
  | resize (g : Geometry)
  | append (text : String)
  | clear
  /-- Tell the sender that one event has been taken. -/
  | acknowledge
  deriving DecidableEq, Repr

inductive Call.Kind where
  | write
  | reset
  | resize
  | append
  | clear
  | acknowledge
  deriving DecidableEq, Repr

def Call.kind : Call → Call.Kind
  | .write _ => .write
  | .reset => .reset
  | .resize _ => .resize
  | .append _ => .append
  | .clear => .clear
  | .acknowledge => .acknowledge

/-- Surfaces with their state. A call may fail, and changes the state either way. -/
class Console (σ : Type) where
  perform : Call → σ → Except Error Unit × σ
  /-- The size of a terminal cell at present. -/
  cellMetrics : σ → CellMetrics

end SessionPlayback
