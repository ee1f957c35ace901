import SessionPlayback.Binary64
import SessionPlayback.Bounds
import SessionPlayback.Event

/-!
Delays and the timer. A timer is a delay armed at a known point of the clock; it is cancelled by
dropping it.
-/

namespace SessionPlayback

def nanosPerSecond : Nat := 1000000000

def delayLimit : Nanoseconds := (uint64Max + 1) * nanosPerSecond

/-- Points of the clock lie before this. -/
def clockLimit : Nanoseconds := int64Max.toNat * nanosPerSecond + nanosPerSecond

namespace Delay

/-- A delay as a number of seconds: the rounded seconds plus the rounded fraction. -/
def toSeconds (delay : Nanoseconds) : Binary64 :=
  .ofNat (delay / nanosPerSecond) +
    .ofNat (delay % nanosPerSecond) / .ofNat nanosPerSecond

/-- A number of seconds in whole nanoseconds, a half going to the even neighbour; `none` if it is
negative, not a number or too large. -/
def ofSeconds? : Binary64 → Option Nanoseconds
  | .finite negative magnitude =>
    if negative then (if magnitude.val = 0 then some 0 else none)
    else
      let units := Binary64.units magnitude
      let limit : Nat := (uint64Max + 1) <<< 1074
      if units < limit then
        some (Binary64.divNearestEven (units * nanosPerSecond) (1 <<< 1074))
      else none
  | _ => none

def scale? (delay : Nanoseconds) (factor : Binary64) : Option Nanoseconds :=
  ofSeconds? (factor * toSeconds delay)

end Delay

structure Timer where
  armedAt : Nanoseconds
  delay : Nanoseconds
  deriving DecidableEq, Repr

namespace Timer

def deadline (t : Timer) : Nanoseconds := t.armedAt + t.delay

/-- Time left until the timer fires, none once it should have; the full delay before it was
armed. -/
def remainingAt (t : Timer) (now : Nanoseconds) : Nanoseconds := t.delay - (now - t.armedAt)

end Timer

end SessionPlayback
