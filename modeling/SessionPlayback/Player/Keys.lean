import SessionPlayback.Player.Command

/-!
The keys that an operator presses while a session plays.
-/

namespace SessionPlayback

inductive Key where
  | character (c : Char)
  | left
  | right
  | up
  | down
  | escape
  /-- A key without a meaning here. -/
  | other
  deriving DecidableEq, Repr

structure KeyEvent where
  key : Key
  /-- Whether the control key was held as well. -/
  control : Bool := false
  released : Bool := false
  deriving DecidableEq, Repr

def Key.command? (control : Bool) : Key → Option Command
  | .character 'c' => if control then some .shutdown else none
  | .character ' ' => some .toggle
  | .character 'n' | .right => some .next
  | .character 'p' | .left => some .previous
  | .character '+' | .character '=' | .up => some .increaseSpeed
  | .character '-' | .down => some .decreaseSpeed
  | .character 'q' | .escape => some .shutdown
  | _ => none

/-- The command for a press of a key; letting it go means nothing. -/
def KeyEvent.command? (e : KeyEvent) : Option Command :=
  if e.released then none else e.key.command? e.control

end SessionPlayback
