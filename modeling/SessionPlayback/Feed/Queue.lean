import SessionPlayback.Error
import SessionPlayback.Event

/-!
A feed in one process: batches of events one way, acknowledgements the other way. Each way is a
queue with two ends; what has been sent stays in the queue when the sending end is dropped, and
nothing can be sent once the receiving end is.
-/

namespace SessionPlayback

inductive Inbound where
  | events (batch : List Event)
  /-- The remote side went away. -/
  | disconnected
  deriving DecidableEq, Repr

structure InboundQueue where
  waiting : List Inbound := []
  /-- Whether the source still has its end. -/
  attached : Bool := true
  /-- Whether the player still has its end. -/
  listening : Bool := true
  deriving DecidableEq, Repr

structure AckQueue where
  waiting : Nat := 0
  /-- How many hold a sending end. -/
  senders : Nat := 1
  /-- Whether the source still has its end. -/
  listening : Bool := true
  deriving DecidableEq, Repr

namespace InboundQueue

def send (q : InboundQueue) (item : Inbound) : Except Error InboundQueue :=
  if q.listening then .ok { q with waiting := q.waiting ++ [item] } else .error .transportClosed

def dropSource (q : InboundQueue) : InboundQueue := { q with attached := false }

/-- Without a receiver nothing waits. -/
def dropReceiver (q : InboundQueue) : InboundQueue := { q with waiting := [], listening := false }

end InboundQueue

inductive Received (α : Type) where
  | item (a : α)
  /-- Nothing yet. -/
  | pending
  /-- Nothing any more. -/
  | closed
  deriving DecidableEq, Repr

def InboundQueue.receive (q : InboundQueue) : Received Inbound × InboundQueue :=
  match q.waiting with
  | item :: rest => (.item item, { q with waiting := rest })
  | [] => (if q.attached then .pending else .closed, q)

namespace InboundQueue

/-- Whether whoever receives need not wait. -/
def isReady (q : InboundQueue) : Bool := q.listening && (!q.waiting.isEmpty || !q.attached)

/-- The work in the queue: one for each delivery, one for each event in it. -/
def workload (q : InboundQueue) : Nat :=
  q.waiting.foldl (fun work item =>
    match item with
    | .events batch => work + 1 + batch.length
    | .disconnected => work + 1) 0

end InboundQueue

namespace AckQueue

def push (q : AckQueue) : AckQueue := { q with waiting := q.waiting + 1 }

def send (q : AckQueue) : Except Error AckQueue :=
  if q.listening then .ok q.push else .error .transportClosed

def receive (q : AckQueue) : Received Unit × AckQueue :=
  match q.waiting with
  | n + 1 => (.item (), { q with waiting := n })
  | 0 => (if q.senders = 0 then .closed else .pending, q)

/-- Without a receiver nothing waits. -/
def dropReceiver (q : AckQueue) : AckQueue := { q with waiting := 0, listening := false }

def addSender (q : AckQueue) : AckQueue := { q with senders := q.senders + 1 }

def dropSender (q : AckQueue) : AckQueue := { q with senders := q.senders - 1 }

end AckQueue

end SessionPlayback
