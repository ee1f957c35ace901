import SessionPlayback.Console.LogFile
import SessionPlayback.Console.Terminal

/-!
What someone watches a session on: a terminal, with the keystrokes in a file.
-/

namespace SessionPlayback

structure Viewer where
  terminal : Terminal
  log : LogFile := {}
  deriving DecidableEq, Repr

namespace Viewer

/-- Nobody waits for acknowledgements of what is only watched. -/
def perform (call : Call) (v : Viewer) : Except Error Unit × Viewer :=
  let onTerminal (r : Except Error Unit × Terminal) : Except Error Unit × Viewer :=
    (r.1, { v with terminal := r.2 })
  match call with
  | .write bytes => onTerminal (v.terminal.write bytes)
  | .reset => onTerminal v.terminal.reset
  | .resize g => onTerminal (v.terminal.resize g)
  | .append text => (.ok (), { v with log := v.log.append text })
  | .clear => (.ok (), { v with log := v.log.clear })
  | .acknowledge => (.ok (), v)

instance : Console Viewer where
  perform := perform
  cellMetrics v := v.terminal.cell

end Viewer

end SessionPlayback
