import SessionPlayback.Playback.Basic

/-!
How events reach the surfaces: they are applied to the state, their output is flushed, and live
events are acknowledged.
-/

namespace SessionPlayback.Playback

variable {σ : Type} [Console σ]

def perform (call : Call) : Action σ Unit := fun p =>
  match Console.perform call p.console with
  | (.ok (), console) => .ok () { p with console }
  | (.error e, console) => .error (.failed e) { p with console }

/-- Applies an event to what is known and what is held. -/
def absorb (p : Playback σ) (e : Event) : Playback σ :=
  { p with
    session := p.session.after e
    held := p.held.push (Console.cellMetrics p.console) e }

/-- Applies an event of the sequence; the end of the session stops a replay. -/
def apply (p : Playback σ) (e : Event) : Playback σ :=
  { p.absorb e with stopped := p.stopped || (e.isStop && !p.isLive) }

def flushResize : Action σ Unit := do
  let p ← get
  match p.held.resize with
  | none => pure ()
  | some g =>
    set { p with held := { p.held with resize := none } }
    perform (.resize g)

def flushKeystrokes : Action σ Unit := do
  let p ← get
  if p.held.keystrokes.isEmpty then pure ()
  else
    set { p with held := { p.held with keystrokes := "" } }
    perform (.append p.held.keystrokes)

def flushTerminal : Action σ Unit := do
  let p ← get
  if p.held.terminal.isEmpty then pure ()
  else
    set { p with held := { p.held with terminal := [] } }
    perform (.write p.held.terminal)

/-- Sends held output to the surfaces: the resize, then keystrokes, then terminal bytes. What has
been handed over is no longer held, even if the call fails. -/
def flush : Action σ Unit := do
  flushResize
  flushKeystrokes
  flushTerminal

/-- Counts live events before `bound` for acknowledgement. Each is counted once, however often
seeks apply it again. -/
def countAcks (p : Playback σ) (bound : Nat) : Playback σ :=
  if p.isLive && decide (p.acked < bound) then
    { p with pendingAcks := p.pendingAcks + (bound - p.acked), acked := bound }
  else p

/-- Sends acknowledgements until one fails; then the others are dropped. -/
def sendAcksFrom : Nat → Playback σ → Playback σ
  | 0, p => p
  | pending + 1, p =>
    match Console.perform .acknowledge p.console with
    | (.ok (), console) => sendAcksFrom pending { p with console, pendingAcks := pending }
    | (.error _, console) => { p with console, pendingAcks := 0 }

def sendAcks (p : Playback σ) : Playback σ := sendAcksFrom p.pendingAcks p

/-- Acknowledges events when they arrive instead of when they are played, as for a download of a
finished session. Stops at the first failure. -/
def acknowledgeReceipt : Nat → Playback σ → Playback σ
  | 0, p => p
  | count + 1, p =>
    match Console.perform .acknowledge p.console with
    | (.ok (), console) => acknowledgeReceipt count { p with console }
    | (.error _, console) => { p with console }

end SessionPlayback.Playback
