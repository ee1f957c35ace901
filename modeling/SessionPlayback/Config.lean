import SessionPlayback.Event
import SessionPlayback.Geometry

/-!
Settings of a playback.
-/

namespace SessionPlayback

structure Config where
  speed : Binary64 := 1
  speedStep : Binary64 := .ofRatio false 1 4
  minSpeed : Binary64 := .ofRatio false 1 10
  maxSpeed : Binary64 := 64
  /-- Longest pause between two events after scaling, if pauses are cut. -/
  maxIdle : Option Nanoseconds := none
  /-- Size of the terminal after a reset. -/
  initialGeometry : Geometry := ⟨24, 80, 800, 300⟩
  /-- Cell size where it cannot be measured. -/
  cellMetrics : CellMetrics := ⟨10, .ofRatio false 25 2⟩
  logLevel : String := "warn"
  deriving DecidableEq, Repr

namespace Config

/-- Highest speed in force: never below the lowest. -/
def speedCeiling (c : Config) : Binary64 := c.maxSpeed.max c.minSpeed

/-- A requested speed within the limits; what is not a number becomes the lowest speed. There is no
answer if the lowest speed itself is not a number. -/
def clampSpeed? (c : Config) (speed : Binary64) : Option Binary64 :=
  if speed.isNaN then some c.minSpeed else speed.clamp? c.minSpeed c.speedCeiling

def idleOfMillis (millis : Nat) : Nanoseconds := millis * nanosPerMilli

end Config

end SessionPlayback
