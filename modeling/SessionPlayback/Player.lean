import SessionPlayback.Feed.Queue
import SessionPlayback.Playback.Status
import SessionPlayback.Player.Command

/-!
The player: one loop around a playback that waits for commands, for the timer and for a feed, and
handles one of them per turn. Every turn begins where the loop begins: what a live session has
waiting is applied, the status is published, and the deadline is read afresh, so that a timer that
was cancelled never fires. A fault ends the player.
-/

namespace SessionPlayback

/-- Takes a batch of events from a feed. Live events are applied as far as nothing is scheduled, and
the end of the session ends the feed. A download acknowledges them at once and starts to play when
the end has come. -/
def Playback.takeBatch {σ : Type} [Console σ] (now : Nanoseconds) (batch : List Event) :
    Action σ Unit := do
  modify (·.load batch)
  if (← get).isLive then
    drain now
    if batch.any (·.isStop) then modify (·.setDisconnected now)
  else
    modify (acknowledgeReceipt batch.length)
    if batch.any (·.isStop) then play now

inductive Player.Ending where
  /-- By a command, or because nobody can send commands any more. -/
  | shutDown
  | failed (fault : Playback.Fault)
  deriving DecidableEq, Repr

structure Player (σ : Type) where
  playback : Playback σ
  /-- The player's end of a feed. A player without a feed does not listen. -/
  feed : InboundQueue := { attached := false, listening := false }
  /-- The status that others see. -/
  published : Status
  ending : Option Player.Ending := none

namespace Player

variable {σ : Type}

def isRunning (p : Player σ) : Bool := p.ending.isNone

def publish (now : Nanoseconds) (p : Player σ) : Player σ :=
  { p with published := p.playback.status now }

/-- Ends the player, and with it its end of the feed. -/
def finish (ending : Ending) (p : Player σ) : Player σ :=
  { p with ending := some ending, feed := p.feed.dropReceiver }

/-- A player for a playback. It has not begun its first turn. -/
def create (now : Nanoseconds) (playback : Playback σ) : Player σ :=
  { playback, published := playback.status now }

def live (now : Nanoseconds) (feed : InboundQueue) (playback : Playback σ) : Player σ :=
  { create now playback.setLive with feed }

/-- A player that downloads a session that is over: events are acknowledged when they arrive, and
playing begins when the end has arrived. -/
def download (now : Nanoseconds) (feed : InboundQueue) (playback : Playback σ) : Player σ :=
  { create now playback with feed }

variable [Console σ]

/-- Runs an operation of the playback; a fault ends the player. -/
def attempt (action : Playback.Action σ Unit) (p : Player σ) : Player σ :=
  match action p.playback with
  | .ok _ playback => { p with playback }
  | .error fault playback => finish (.failed fault) { p with playback }

def beginTurn (now : Nanoseconds) (p : Player σ) : Player σ :=
  let p := p.attempt (Playback.drain now)
  if p.isRunning then
    let p := p.publish now
    match p.playback.deadline? with
    | .ok _ => p
    | .error fault => p.finish (.failed fault)
  else p

def handle (now : Nanoseconds) (action : Playback.Action σ Unit) (p : Player σ) : Player σ :=
  let p := p.attempt action
  if p.isRunning then p.beginTurn now else p

/-- A turn for a command, with what its sender is told: the command has been carried out, or there
is no player for it. -/
def obey (now : Nanoseconds) (command : Command) (p : Player σ) :
    Except Error Unit × Player σ :=
  if p.isRunning then
    let p := p.attempt (Playback.carryOut now command)
    if p.isRunning then
      let p := p.publish now
      (.ok (), if command = .shutdown then p.finish .shutDown else p.beginTurn now)
    else (.error .playerStopped, p)
  else (.error .playerStopped, p)

def fire (now : Nanoseconds) (p : Player σ) : Player σ := p.handle now (Playback.step now)

/-- A turn for what the feed has: a batch, or its end, after which the player does not listen any
more. -/
def receive (now : Nanoseconds) (p : Player σ) : Player σ :=
  match p.feed.receive with
  | (.pending, _) => p
  | (.item (.events batch), feed) => { p with feed }.handle now (Playback.takeBatch now batch)
  | (_, feed) =>
    { p with feed := feed.dropReceiver }.handle now (Playback.carryOut now .setDisconnected)

inductive Input where
  | command (c : Command)
  | timer
  | delivery
  deriving DecidableEq, Repr

def turn (now : Nanoseconds) (input : Input) (p : Player σ) : Player σ :=
  if p.isRunning then
    match input with
    | .command c => (p.obey now c).2
    | .timer => p.fire now
    | .delivery => p.receive now
  else p

def isDue (now : Nanoseconds) (p : Player σ) : Bool :=
  (p.playback.timer.map fun timer => decide (timer.deadline ≤ now)).getD false

/-- What a player that has no commands handles next. The timer goes before the feed. -/
def ready? (now : Nanoseconds) (p : Player σ) : Option Input :=
  if !p.isRunning then none
  else if p.isDue now then some .timer
  else if p.feed.isReady then some .delivery
  else none

def dismiss (now : Nanoseconds) (p : Player σ) : Player σ :=
  if p.isRunning then (p.publish now).finish .shutDown else p

end Player

end SessionPlayback
