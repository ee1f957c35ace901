import SessionPlayback.Base64
import SessionPlayback.Text.Utf8

/-!
Session events: timestamped occurrences in a recorded or live terminal session. Byte payloads stay
in base64 inside the event and are decoded when the event is applied, so a payload that cannot be
decoded never keeps an event out of its sequence.
-/

namespace SessionPlayback

/-- A span of time or a point of the clock, in whole nanoseconds. -/
abbrev Nanoseconds := Nat

def nanosPerMilli : Nat := 1000000

/-- Which way the bytes of a message went. -/
inductive Direction where
  | incoming
  | outgoing
  /-- A direction that is not played. -/
  | other
  deriving DecidableEq, Repr

structure SessionStart where
  clientHost : Option String := none
  serverHost : Option String := none
  username : Option String := none
  key : Option String := none
  /-- Seconds since the Unix epoch. -/
  startTime : Option Int64 := none
  deriving DecidableEq, Repr

structure WindowResize where
  rows : UInt32
  cols : UInt32
  deriving DecidableEq, Repr

/-- Bytes in one direction, in base64. -/
structure Message where
  direction : Direction
  data : String
  deriving DecidableEq, Repr

/-- What a channel request asks for, as far as playback cares. -/
inductive Request.Purpose where
  | exec
  | terminal
  | other
  deriving DecidableEq, Repr

structure Request where
  type : String
  payload : String
  deriving DecidableEq, Repr

inductive Event.Kind where
  | start (s : SessionStart)
  | resize (r : WindowResize)
  | message (m : Message)
  | stop
  | request (r : Request)
  /-- Any other record of the recorder. -/
  | unknown
  deriving DecidableEq, Repr

structure Event where
  /-- Milliseconds since the session opened. -/
  offset : Int64
  kind : Event.Kind
  deriving DecidableEq, Repr

def decodePayload (payload : String) : Except Base64.Fault (List UInt8) :=
  Base64.decode (Text.utf8 payload)

def encodePayload (bytes : List UInt8) : String :=
  String.ofList ((Base64.encode bytes).map fun octet => Char.ofNat octet.toNat)

def Message.decode (m : Message) : Except Base64.Fault (List UInt8) := decodePayload m.data

namespace Request

def execType : String := "exec"

def terminalType : String := "pty-req"

def purpose (r : Request) : Purpose :=
  if r.type = execType then .exec
  else if r.type = terminalType then .terminal
  else .other

def decode (r : Request) : Except Base64.Fault (List UInt8) := decodePayload r.payload

def lengthOctets : Nat := 4

/-- The command of an exec request: the payload behind its length, empty if there is nothing. -/
def command (r : Request) : Except Base64.Fault (List UInt8) :=
  r.decode.map (·.drop lengthOctets)

end Request

namespace Event

/-- Server output. -/
def incoming (offset : Int64) (bytes : List UInt8) : Event :=
  ⟨offset, .message ⟨.incoming, encodePayload bytes⟩⟩

/-- Client keystrokes. -/
def outgoing (offset : Int64) (bytes : List UInt8) : Event :=
  ⟨offset, .message ⟨.outgoing, encodePayload bytes⟩⟩

def resize (offset : Int64) (rows cols : UInt32) : Event := ⟨offset, .resize ⟨rows, cols⟩⟩

def request (offset : Int64) (type : String) (bytes : List UInt8) : Event :=
  ⟨offset, .request ⟨type, encodePayload bytes⟩⟩

/-- A request to run a command, which stands behind its length in four octets, highest first. -/
def exec (offset : Int64) (command : String) : Event :=
  let bytes := Text.utf8 command
  let n := bytes.length
  request offset Request.execType
    ((n / 16777216).toUInt8 :: (n / 65536).toUInt8 :: (n / 256).toUInt8 :: n.toUInt8 :: bytes)

def start (offset : Int64) (s : SessionStart) : Event := ⟨offset, .start s⟩

def stop (offset : Int64) : Event := ⟨offset, .stop⟩

/-- When the event happened; events before the opening count as at the opening. -/
def time (e : Event) : Nanoseconds := e.offset.toInt.toNat * nanosPerMilli

def isStop (e : Event) : Bool :=
  match e.kind with
  | .stop => true
  | _ => false

def kindName (e : Event) : String :=
  match e.kind with
  | .start _ => "session-start"
  | .resize _ => "window-resize"
  | .message _ => "message"
  | .stop => "session-stop"
  | .request _ => "request"
  | .unknown => "unknown"

/-- The event as one word for logs, such as `session-stop@1500ms`. -/
def label (e : Event) : String := e.kindName ++ "@" ++ toString e.offset.toInt ++ "ms"

end Event

end SessionPlayback
