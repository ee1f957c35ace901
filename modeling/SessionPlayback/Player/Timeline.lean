import SessionPlayback.Console.FaultPlan
import SessionPlayback.Console.Transcript
import SessionPlayback.Player

/-!
A player on a clock that only moves when it is told to. Between two points of the clock the player
handles everything that is ready; timers fire at whole milliseconds, in the order of time.
-/

namespace SessionPlayback

/-- The first whole millisecond that is not before a point of the clock. -/
def ceilMilli (t : Nanoseconds) : Nanoseconds :=
  (t + (nanosPerMilli - 1)) / nanosPerMilli * nanosPerMilli

structure Timeline where
  now : Nanoseconds := 0
  player : Player (Faulty Transcript)

namespace Timeline

def create (player : Player (Faulty Transcript)) : Timeline :=
  { player := player.beginTurn 0 }

def restFor : Nat → Timeline → Timeline
  | 0, t => t
  | bound + 1, t =>
    match t.player.ready? t.now with
    | some input => restFor bound { t with player := t.player.turn t.now input }
    | none => t

/-- A bound for the turns to come without commands: every event that waits can take one, every
delivery and the end of the feed. -/
def workload (t : Timeline) : Nat :=
  t.player.playback.remaining + t.player.feed.workload + 2

def rest (t : Timeline) : Timeline := restFor t.workload t

def nextTick? (t : Timeline) : Option Nanoseconds :=
  if t.player.isRunning then t.player.playback.timer.map fun timer => ceilMilli timer.deadline
  else none

def runFor (halts : Timeline → Bool) (limit : Nanoseconds) : Nat → Timeline → Bool × Timeline
  | 0, t => (false, t)
  | bound + 1, t =>
    let t := t.rest
    if halts t then (true, t)
    else
      match t.nextTick? with
      | some tick =>
        if tick < limit then runFor halts limit bound { t with now := tick }
        else (false, rest { t with now := limit })
      | none => (false, rest { t with now := limit })

/-- Moves the clock until something has come about, but not beyond `limit`. What comes about just
then is too late. -/
def run (halts : Timeline → Bool) (limit : Nanoseconds) (t : Timeline) : Bool × Timeline :=
  runFor halts limit (t.workload + 1) t

def sleep (span : Nanoseconds) (t : Timeline) : Timeline :=
  (t.run (fun _ => false) (t.now + span)).2

def commandCapacity : Nat := 32

def obeyAll (commands : List Command) (t : Timeline) : List (Except Error Unit) × Timeline :=
  commands.foldl (fun (results, t) c =>
    let (result, player) := t.player.obey t.now c
    (results ++ [result], { t with player })) ([], t)

/-- Sends commands at once. As many as can wait are carried out one after the other; only then the
player turns to other things, and the rest follows. -/
def send (commands : List Command) (t : Timeline) : List (Except Error Unit) × Timeline :=
  if commands.length ≤ commandCapacity then
    let (results, t) := t.obeyAll commands
    (results, t.rest)
  else
    let (results, t) := t.obeyAll (commands.take commandCapacity)
    let (later, t) := send (commands.drop commandCapacity) t.rest
    (results ++ later, t)
termination_by commands.length
decreasing_by simp [commandCapacity]; grind [commandCapacity]

def acks (t : Timeline) : AckQueue :=
  match t.player.playback.console.inner.acks with
  | .feed queue => queue
  | _ => { senders := 0 }

def setAcks (queue : AckQueue) (t : Timeline) : Timeline :=
  { t with player.playback.console.inner.acks := .feed queue }

def setFeed (feed : InboundQueue) (t : Timeline) : Timeline := { t with player.feed := feed }

/-- Sends something to the player without letting it run. -/
def post (item : Inbound) (t : Timeline) : Except Error Unit × Timeline :=
  match t.player.feed.send item with
  | .ok feed => (.ok (), t.setFeed feed)
  | .error e => (.error e, t)

def deliver (items : List Inbound) (t : Timeline) : List (Except Error Unit) × Timeline :=
  let (results, t) := items.foldl (fun (results, t) item =>
    let (result, t) := post item t
    (results ++ [result], t)) (([] : List (Except Error Unit)), t)
  (results, t.rest)

/-- Whether a player that ended took its way back to the source with it. -/
def hasLostAcks (t : Timeline) : Bool :=
  match t.player.ending with
  | some (.failed _) => true
  | _ => false

def takeAcks (t : Timeline) : Nat × Timeline :=
  let queue := t.acks
  if queue.listening ∧ queue.waiting ≠ 0 then
    (queue.waiting, t.setAcks { queue with waiting := 0 })
  else (0, t)

inductive Delivery where
  | acknowledged
  | refused (e : Error)
  | timedOut
  deriving DecidableEq, Repr

def deliverAcked (e : Event) (span : Nanoseconds) (t : Timeline) : Delivery × Timeline :=
  match t.post (.events [e]) with
  | (.error fault, t) => (.refused fault, t.rest)
  | (.ok (), t) =>
    if span = 0 then (.timedOut, t.rest)
    else
      let (settled, t) := t.run (fun t => t.acks.waiting ≠ 0 || t.hasLostAcks) (t.now + span)
      if !settled then (.timedOut, t)
      else
        match t.acks.receive with
        | (.item _, queue) => (.acknowledged, t.setAcks queue)
        | _ => (.refused .transportClosed, t)

def dropSource (t : Timeline) : Timeline :=
  rest ((t.setFeed t.player.feed.dropSource).setAcks t.acks.dropReceiver)

inductive Awaited where
  | reached
  | timedOut
  | closed
  deriving DecidableEq, Repr

/-- Waits until a status with at least that index is published, but not longer than a span. -/
def await (index : Nat) (span : Nanoseconds) (t : Timeline) : Awaited × Timeline :=
  let reached (t : Timeline) : Bool := decide (index ≤ t.player.published.eventIndex)
  let (settled, t) := t.run (fun t => reached t || !t.player.isRunning) (t.now + span)
  (if !settled then .timedOut else if reached t then .reached else .closed, t)

end Timeline

end SessionPlayback
