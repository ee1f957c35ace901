import SessionPlayback.CommandLine
import SessionPlayback.Console.Viewer
import SessionPlayback.Player

/-!
The program: reads arguments, variables and files, runs the command line, and shows a recording in
real time if that is what was asked for.
-/

namespace SessionPlayback.Main

def variableNames : List String :=
  let scope := ({} : Config.Environment).scope
  [CommandLine.configVariable, CommandLine.secretVariable, CommandLine.homeVariable,
    CommandLine.filterVariable] ++
    ["SPEED", "SPEED_STEP", "MIN_SPEED", "MAX_IDLE_MS", "LOG_LEVEL"].map
      (Config.Environment.variableName scope)

def readVariables : IO CommandLine.Variables :=
  variableNames.filterMapM fun name => do
    return (← IO.getEnv name).map fun value => (name, value)

def faultOf : IO.Error → IoFault
  | .noFileOrDirectory .. => .notFound
  | e => .other e.toString

def readFile (path : String) : IO (Except IoFault (List UInt8)) := do
  try
    return .ok (← IO.FS.readBinFile path).toList
  catch e => return .error (faultOf e)

def readFiles (paths : List String) : IO (List (String × Except IoFault (List UInt8))) :=
  paths.mapM fun path => return (path, ← readFile path)

def finish (o : CommandLine.Outcome) : IO UInt32 := do
  let out ← IO.getStdout
  out.write ⟨o.output.toArray⟩
  out.flush
  match o.complaint with
  | none => pure ()
  | some complaint => IO.eprintln complaint
  return o.code.toUInt32

/-- Sends what the player has put out to the terminal and the file, and hands back a player whose
terminal has nothing waiting. -/
def present (keystrokes : Option String) (player : Player Viewer) : IO (Player Viewer) := do
  let out ← IO.getStdout
  let viewer := player.playback.console
  let shown := (viewer.terminal.showStatus player.published).2
  out.write ⟨shown.sink.written.toArray⟩
  out.flush
  match keystrokes with
  | none => pure ()
  | some path => IO.FS.writeBinFile path ⟨viewer.log.file.bytes.toArray⟩
  return { player with playback.console.terminal.sink := {} }

/-- Waits for the timer and takes a turn, until no timer is armed. -/
partial def watch (keystrokes : Option String) (player : Player Viewer) : IO (Player Viewer) := do
  let player ← present keystrokes player
  match player.isRunning, player.playback.timer with
  | true, some timer =>
    let now ← IO.monoNanosNow
    if now < timer.deadline then
      IO.sleep ((timer.deadline - now + (nanosPerMilli - 1)) / nanosPerMilli).toUInt32
    watch keystrokes (player.turn (← IO.monoNanosNow) .timer)
  | _, _ => return player

def showRecording (s : CommandLine.Showing) : IO CommandLine.Outcome := do
  let created ←
    try
      match s.keystrokes with
      | none => pure ()
      | some path => IO.FS.writeBinFile path ⟨#[]⟩
      pure none
    catch e => pure (some (LogFile.creationError (s.keystrokes.getD "") (faultOf e)))
  match created with
  | some e => return .failed e
  | none =>
    let terminal : Terminal := { cell := s.config.cellMetrics, followsResizes := s.followsResizes }
    match Playback.create? ({ terminal } : Viewer) s.config with
    | .error fault => return .ofFault fault
    | .ok playback =>
      let now ← IO.monoNanosNow
      let player := (Player.create now (playback.load s.events)).beginTurn now
      let player ← watch s.keystrokes (player.turn now (.command .play))
      match player.ending with
      | some (.failed fault) => return .ofFault fault
      | _ => return {}

def run (arguments : List String) : IO UInt32 := do
  let env ← readVariables
  let paths := ((CommandLine.parse env arguments).map (·.paths env)).getD []
  let files ← readFiles paths
  let read (path : String) := (files.lookup path).getD (.error .notFound)
  match CommandLine.run env read arguments with
  | .finished o => finish o
  | .present s => finish (← showRecording s)

end SessionPlayback.Main

def main (arguments : List String) : IO UInt32 := SessionPlayback.Main.run arguments
