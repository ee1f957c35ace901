import SessionPlayback.Error
import SessionPlayback.Event.Reader
import SessionPlayback.Text.Blank

/-!
Recorded sessions: a JSON array of events, one record per line. The recorder writes the closing
bracket when the session ends, so the text of a session in progress ends after a record, possibly
with a comma behind it. Such a text is read as an incomplete recording.
-/

namespace SessionPlayback

structure Recording where
  events : List Event := []
  /-- Whether the recorder closed the array. -/
  complete : Bool := false
  deriving DecidableEq, Repr

namespace Recording

def hasStop (r : Recording) : Bool := r.events.any Event.isStop

/-- Offset of the last event in milliseconds. -/
def duration (r : Recording) : Int := (r.events.getLast?.map (·.offset.toInt)).getD 0

def arrayReader : Json.Reader (List Event)
  | .openArray :: rest =>
    (Json.items .closeArray
        (fun reversed tokens =>
          (Event.reader (Json.nestingLimit - 2) tokens).map fun (event, rest) =>
            (event :: reversed, rest))
        [] rest).map
      fun (reversed, rest) => (reversed.reverse, rest)
  | tokens => .error (Json.unexpected "a sequence" tokens)

def readArray (text : List Char) : Except Json.Fault (List Event) :=
  Json.readAll arrayReader (String.ofList text)

/-- The text up to the last record, without commas and blanks behind it. -/
def openBody (text : List Char) : List Char :=
  Text.dropEndWhile (fun c => c = ',' || Text.isBlank c) text

/-- Reads an array that is still open by closing it. -/
def readOpen (text : List Char) : Except Error Recording :=
  match readArray (openBody text ++ [']']) with
  | .ok events => .ok ⟨events, false⟩
  | .error fault => .error (.json fault)

def read (text : String) : Except Error Recording :=
  let trimmed := Text.trim text.toList
  match trimmed with
  | [] => .ok {}
  | first :: _ =>
    if first ≠ '[' then
      .error (.invalidRecording "<input>" "not a JSON array of session events")
    else if trimmed.getLast? = some ']' then
      match readArray trimmed with
      | .ok events => .ok ⟨events, true⟩
      | .error _ => readOpen trimmed
    else readOpen trimmed

def readBytes (bytes : List UInt8) : Except Error Recording :=
  match IoFault.textOf bytes with
  | .ok text => read text
  | .error fault => .error (.io fault)

def ofFile (path : String) (content : Except IoFault (List UInt8)) : Except Error Recording :=
  match content.bind IoFault.textOf with
  | .ok text => (read text).mapError fun e => .invalidRecording path e.message
  | .error fault => .error (.ioWhile ("reading recording " ++ path) fault)

/-- Events in the layout of a recorder, with the closing bracket left off while the session is
running. -/
def write (events : List Event) (complete : Bool) : String :=
  "[\n" ++ ",\n".intercalate (events.map Event.render) ++ if complete then "\n]" else ""

end Recording

end SessionPlayback
