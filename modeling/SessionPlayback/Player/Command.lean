import SessionPlayback.Playback.Mode
import SessionPlayback.Playback.Run
import SessionPlayback.Playback.Seek

/-!
What an operator can ask of a player.
-/

namespace SessionPlayback

inductive Command where
  | play
  | pause
  | toggle
  | next
  | previous
  | seek (target : Nat)
  | increaseSpeed
  | decreaseSpeed
  | setSpeed (speed : Binary64)
  | load (events : List Event)
  | setLive
  | setDisconnected
  | reset
  | shutdown
  deriving DecidableEq, Repr

def Playback.carryOut {σ : Type} [Console σ] (now : Nanoseconds) : Command → Action σ Unit
  | .play => play now
  | .pause => modify (·.pause now)
  | .toggle => toggle now
  | .next => next now
  | .previous => previous now
  | .seek target => moveTo now target
  | .increaseSpeed => increaseSpeed now
  | .decreaseSpeed => decreaseSpeed now
  | .setSpeed speed => changeSpeed now speed
  | .load events => modify (·.load events)
  | .setLive => modify (·.setLive)
  | .setDisconnected => modify (·.setDisconnected now)
  | .reset => reset
  | .shutdown => pure ()

end SessionPlayback
