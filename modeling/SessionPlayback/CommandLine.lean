import SessionPlayback.Bounds
import SessionPlayback.CommandLine.Arguments
import SessionPlayback.CommandLine.LogFilter
import SessionPlayback.Config.Environment
import SessionPlayback.Config.File
import SessionPlayback.Console.LogFile
import SessionPlayback.Console.Transcript
import SessionPlayback.Feed.Opening
import SessionPlayback.FileTree
import SessionPlayback.Playback.Seek
import SessionPlayback.Recording

/-!
The command line. It names a command and its settings; a session is dumped, played, or followed
from a recorder. Settings come in layers, each over the ones before: the defaults, a file, the
environment, the options.
-/

namespace SessionPlayback.CommandLine

def programName : String := "ttyreplay"

def programVersion : String := "0.1.0"

abbrev Variables := List (String × String)

structure Options where
  config : Option String := none
  logLevel : Option String := none
  speed : Option Binary64 := none
  maxIdleMillis : Option Nat := none
  deriving DecidableEq, Repr

inductive Action where
  /-- Play a recording, with its keystrokes in a file if one is named. -/
  | play (file : String) (keystrokes : Option String) (followsResizes : Bool)
  /-- Print what the terminal shows in the end, and the keystrokes if wanted. -/
  | dump (file : String) (keystrokes : Bool)
  /-- Follow or download a session from a recorder. -/
  | live (url : String) (opening : Feed.Opening) (download : Bool) (keystrokes : Option String)
  deriving DecidableEq, Repr

structure Invocation where
  options : Options
  action : Action
  deriving DecidableEq, Repr

def optionNames : OptionNames :=
  [("config", true), ("log-level", true), ("speed", true), ("max-idle-ms", true)]

def playNames : OptionNames := [("keystrokes", true), ("resize", false)]

def dumpNames : OptionNames := [("keystrokes", false)]

def liveNames : OptionNames := [("secret", true), ("download", false), ("keystrokes", true)]

/-- A path is not empty. -/
def path? (text : String) : Option String := if text.isEmpty then none else some text

/-- Reads the value of an option if it is given; the outer `none` means that it cannot be read. -/
def value? (given : Given) (name : String) (read : String → Option α) : Option (Option α) :=
  match given.lookup name with
  | none => some none
  | some text => (read text).map some

def readOptions (given : Given) : Option Options := do
  let config ← value? given "config" path?
  let speed ← value? given "speed" fun text => Binary64.parse? text.toList
  let maxIdleMillis ←
    value? given "max-idle-ms" fun text => Text.parseNat? uint64Max text.toList
  return { config, logLevel := given.lookup "log-level", speed, maxIdleMillis }

/-- Options given twice, once before the command and once behind it: the ones behind it win. -/
def Options.or (inner outer : Options) : Options where
  config := inner.config.or outer.config
  logLevel := inner.logLevel.or outer.logLevel
  speed := inner.speed.or outer.speed
  maxIdleMillis := inner.maxIdleMillis.or outer.maxIdleMillis

/-- Options and operands of a command. No option is given twice. -/
def readCommand (names : OptionNames) (arguments : List String) :
    Option (Given × Options × List String) := do
  let (given, operands) ← readAll (optionNames ++ names) arguments
  if (given.map (·.1)).Nodup then return (given, ← readOptions given, operands) else none

def readPlay (arguments : List String) : Option (Options × Action) := do
  let (given, options, operands) ← readCommand playNames arguments
  let keystrokes ← value? given "keystrokes" path?
  match operands with
  | [file] => return (options, .play (← path? file) keystrokes (given.lookup "resize").isSome)
  | _ => none

def readDump (arguments : List String) : Option (Options × Action) := do
  let (given, options, operands) ← readCommand dumpNames arguments
  match operands with
  | [file] => return (options, .dump (← path? file) (given.lookup "keystrokes").isSome)
  | _ => none

def secretVariable : String := "TTYREPLAY_SECRET"

def readLive (env : Variables) (arguments : List String) : Option (Options × Action) := do
  let (given, options, operands) ← readCommand liveNames arguments
  let keystrokes ← value? given "keystrokes" path?
  let secret := (given.lookup "secret").or (env.lookup secretVariable)
  match operands with
  | [url, key] =>
    return (options, .live url { key, secret } (given.lookup "download").isSome keystrokes)
  | _ => none

def configVariable : String := "TTYREPLAY_CONFIG"

/-- The options in force, from those behind and before the command. The variable for the path of
the settings is read unless both sides name one, and it must be a path then. -/
def mergeOptions (env : Variables) (inner outer : Options) : Option Options :=
  let both := inner.or outer
  if inner.config.isSome ∧ outer.config.isSome then some both
  else
    match env.lookup configVariable with
    | none => some both
    | some text => (path? text).map fun path => { both with config := both.config.or (some path) }

inductive Request where
  | invoke (i : Invocation)
  /-- Print the version. -/
  | version
  deriving DecidableEq, Repr

/-- Whether an argument asks for the version, in the long or the short style. -/
def asksVersion (argument : String) : Bool := argument = "--version" || argument.startsWith "-V"

def readAction (env : Variables) : List String → Option (Options × Action)
  | "play" :: rest => readPlay rest
  | "dump" :: rest => readDump rest
  | "live" :: rest => readLive env rest
  | _ => none

/-- What the arguments ask for; `none` if they are not a command line. The version is asked for
before the command, and what stands behind the question does not matter. -/
def parse (env : Variables) (arguments : List String) : Option Request := do
  let (given, rest) ← readLeading optionNames arguments
  if ¬(given.map (·.1)).Nodup then none
  else
    let outer ← readOptions given
    if rest.head?.any asksVersion then return .version
    else
      let (inner, action) ← readAction env rest
      return .invoke { options := ← mergeOptions env inner outer, action }

def homeVariable : String := "HOME"

/-- Where a file with settings is looked for: in the working directory, then at home. -/
def configDirectories (env : Variables) : List String :=
  "." :: ((env.lookup homeVariable).map fun home =>
    if home.isEmpty ∨ home.endsWith "/" then home ++ ".config/ttyreplay"
    else home ++ "/.config/ttyreplay").toList

abbrev FileReader := String → Except IoFault (List UInt8)

def Options.configPath? (o : Options) (env : Variables) (read : FileReader) :
    Option String :=
  o.config.or (Config.File.locate (fun path => (read path).isOk) (configDirectories env))

def Options.apply (o : Options) (c : Config) : Config :=
  { c with
    speed := o.speed.getD c.speed
    maxIdle := (o.maxIdleMillis.map Config.idleOfMillis).or c.maxIdle
    logLevel := o.logLevel.getD c.logLevel }

def Options.configure (o : Options) (env : Variables) (read : FileReader) :
    Except Error Config := do
  let base ← match o.configPath? env read with
    | none => pure {}
    | some path => (·.apply {}) <$> Config.File.ofFile path (read path)
  return o.apply (({ process := env } : Config.Environment).apply base)

def filterVariable : String := "RUST_LOG"

structure Outcome where
  /-- The exit status. -/
  code : Nat := 0
  output : List UInt8 := []
  complaint : Option String := none
  deriving DecidableEq, Repr

namespace Outcome

def usage : Outcome := { code := 2 }

def failed (e : Error) : Outcome :=
  { code := 1, complaint := some (programName ++ ": " ++ e.message) }

/-- The exit status for settings that make the program break off. -/
def aborted : Outcome := { code := 101 }

def ofFault : Playback.Fault → Outcome
  | .failed e => failed e
  | _ => aborted

def version : Outcome := { output := Text.utf8 (programName ++ " " ++ programVersion ++ "\n") }

end Outcome

def checkSetFilter (c : Config) : Except Outcome Unit :=
  match LogFilter.check c.logLevel with
  | .ok () => .ok ()
  | .error .malformed => .error (.failed (.config ("invalid log filter: " ++ c.logLevel)))
  | .error .brokenCharacter => .error .aborted

/-- The filter for the log comes from its variable if that holds a valid one, else from the
settings. -/
def checkLogFilter (env : Variables) (c : Config) : Except Outcome Unit :=
  match (env.lookup filterVariable).map LogFilter.check with
  | some (.ok ()) => .ok ()
  | some (.error .brokenCharacter) => .error .aborted
  | _ => checkSetFilter c

structure Showing where
  config : Config
  events : List Event
  /-- Where the keystrokes go. -/
  keystrokes : Option String
  followsResizes : Bool
  deriving DecidableEq, Repr

inductive Result where
  | finished (o : Outcome)
  /-- Someone is to watch a recording. -/
  | present (s : Showing)
  deriving DecidableEq, Repr

def keystrokesHeading : String := "\r\n--- keystrokes ---\n"

/-- A playback in front of its last event, if it has any events. -/
def dumpedPlayback (c : Config) (events : List Event) :
    Except Playback.Fault (Playback Transcript) := do
  let p ← Playback.create? { cell := c.cellMetrics } c
  let p := p.load events
  if events.isEmpty then return p
  else
    match Playback.moveTo 0 (events.length - 1) p with
    | .ok _ p => return p
    | .error fault _ => throw fault

def dump (c : Config) (events : List Event) (keystrokes : Bool) : Outcome :=
  match dumpedPlayback c events with
  | .error fault => .ofFault fault
  | .ok p =>
    let log := if keystrokes then keystrokesHeading ++ p.console.log.text ++ "\n" else ""
    { output := p.console.screen.output ++ Text.utf8 log }

def unreachable (url : String) : Error := .websocket ("no connection to " ++ url)

/-- Carries out a command as far as files decide it. -/
def runAction (a : Action) (c : Config) (read : FileReader) : Except Error Result := do
  match a with
  | .dump file keystrokes =>
    let recording ← Recording.ofFile file (read file)
    return .finished (dump c recording.events keystrokes)
  | .play file keystrokes followsResizes =>
    let recording ← Recording.ofFile file (read file)
    return .present { config := c, events := recording.events, keystrokes, followsResizes }
  | .live url _ _ _ => throw (unreachable url)

def Invocation.run (i : Invocation) (env : Variables) (read : FileReader) :
    Except Outcome Result := do
  let c ← (i.options.configure env read).mapError .failed
  checkLogFilter env c
  (runAction i.action c read).mapError .failed

def Request.paths (r : Request) (env : Variables) : List String :=
  match r with
  | .version => []
  | .invoke i =>
    let file :=
      match i.action with
      | .dump file _ => [file]
      | .play file _ _ => [file]
      | .live _ _ _ _ => []
    i.options.config.toList ++ (configDirectories env).map Config.File.pathIn ++ file

def run (env : Variables) (read : FileReader) (arguments : List String) : Result :=
  match parse env arguments with
  | none => .finished .usage
  | some .version => .finished .version
  | some (.invoke i) =>
    match i.run env read with
    | .ok result => result
    | .error outcome => .finished outcome

def noTerminal : Error :=
  .ioWhile "enabling raw mode" (.other "No such device or address (os error 6)")

def Showing.refuse (s : Showing) (tree : FileTree) : Outcome :=
  let log : Except Error Unit :=
    match s.keystrokes with
    | none => .ok ()
    | some path => (tree.create path).mapError (LogFile.creationError path)
  match log with
  | .error e => .failed e
  | .ok () =>
    match Playback.create? (σ := Transcript) { cell := s.config.cellMetrics } s.config with
    | .error fault => .ofFault fault
    | .ok _ => .failed noTerminal

def runIn (tree : FileTree) (env : Variables) (arguments : List String) : Outcome :=
  match run env tree.read arguments with
  | .finished o => o
  | .present s => s.refuse tree

end SessionPlayback.CommandLine
