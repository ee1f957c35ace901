import SessionPlayback.Binary64.Decimal
import SessionPlayback.Bounds
import SessionPlayback.Config
import SessionPlayback.Text.Blank
import SessionPlayback.Text.Numeral
import SessionPlayback.Text.UpperCase

/-!
Settings from environment variables. A variable is named by a fixed beginning and the upper-case
name of the setting; values that cannot be read are ignored.
-/

namespace SessionPlayback.Config

structure Environment where
  /-- The beginning of every name. -/
  scope : String := "TTYREPLAY"
  /-- Variables that win over those of the process. -/
  overrides : List (String × String) := []
  /-- Variables of the process. -/
  process : List (String × String) := []

namespace Environment

def variableName (scope name : String) : String :=
  if scope.isEmpty then Text.upperCase name else scope ++ "_" ++ Text.upperCase name

/-- Values given without a variable, by the name of their setting. Of two for one variable the later
one counts. -/
def withValues (env : Environment) (values : List (String × String)) : Environment :=
  { env with
    overrides :=
      (values.map fun (name, value) => (variableName env.scope name, value)).reverse }

/-- What stands behind a name and an equals sign in one of the variables of a process. Each is one
text, its own name, an equals sign and its value, so a name can take in a part of a value. -/
def lookUp (process : List (String × String)) (name : String) : Option String :=
  process.findSome? fun (key, value) =>
    ((name ++ "=").toList.isPrefixOf? (key ++ "=" ++ value).toList).map String.ofList

def get? (env : Environment) (name : String) : Option String :=
  let full := variableName env.scope name
  (env.overrides.lookup full).or (lookUp env.process full)

/-- The value of a setting without blanks around it, read by `parse`. -/
def parse? (env : Environment) (name : String) (parse : List Char → Option α) : Option α :=
  (env.get? name).bind fun value => parse (Text.trim value.toList)

def float? (env : Environment) (name : String) : Option Binary64 :=
  env.parse? name Binary64.parse?

def nat? (env : Environment) (name : String) : Option Nat :=
  env.parse? name (Text.parseNat? uint64Max)

def int? (env : Environment) (name : String) : Option Int :=
  env.parse? name (Text.parseInt? int32Min int32Max)

def bool? (env : Environment) (name : String) : Option Bool :=
  env.parse? name fun text =>
    if text = ['t', 'r', 'u', 'e'] then some true
    else if text = ['f', 'a', 'l', 's', 'e'] then some false
    else none

def millis? (env : Environment) (name : String) : Option Nanoseconds :=
  (env.nat? name).map idleOfMillis

def apply (env : Environment) (c : Config) : Config :=
  { c with
    speed := (env.float? "SPEED").getD c.speed
    speedStep := (env.float? "SPEED_STEP").getD c.speedStep
    minSpeed := (env.float? "MIN_SPEED").getD c.minSpeed
    maxIdle := (env.millis? "MAX_IDLE_MS").or c.maxIdle
    logLevel := (env.get? "LOG_LEVEL").getD c.logLevel }

end Environment

end SessionPlayback.Config
