import SessionPlayback.Base64
import SessionPlayback.Json.Fault
import SessionPlayback.Text.Utf8

/-!
What can fail around a playback. Playback itself absorbs undecodable payloads, seeks out of range
and lost transports; an error means that something it depends on failed.
-/

namespace SessionPlayback

inductive IoFault where
  | notFound
  | isDirectory
  | notDirectory
  /-- A name or a path is longer than a system takes. -/
  | nameTooLong
  /-- A path has a character with code zero. -/
  | zeroInPath
  /-- Text was expected and the bytes are not UTF-8. -/
  | notText
  | other (message : String)
  deriving DecidableEq, Repr

def IoFault.message : IoFault → String
  | .notFound => "No such file or directory (os error 2)"
  | .isDirectory => "Is a directory (os error 21)"
  | .notDirectory => "Not a directory (os error 20)"
  | .nameTooLong => "File name too long (os error 36)"
  | .zeroInPath => "file name contained an unexpected NUL byte"
  | .notText => "stream did not contain valid UTF-8"
  | .other message => message

def IoFault.textOf (bytes : List UInt8) : Except IoFault String :=
  match Text.ofUtf8? bytes with
  | some text => .ok text
  | none => .error .notText

inductive Error where
  | io (fault : IoFault)
  | ioWhile (activity : String) (fault : IoFault)
  | json (fault : Json.Fault)
  | payload (fault : Base64.Fault)
  | invalidRecording (path message : String)
  | unexpectedFrame (frame : String)
  | transportClosed
  | transport (message : String)
  | websocket (message : String)
  | renderer (message : String)
  | playerStopped
  | config (message : String)
  deriving DecidableEq, Repr

namespace Error

def excerptLength : Nat := 120

def excerpt (input : String) : String :=
  if input.length ≤ excerptLength then input
  else
    String.ofList (input.toList.take excerptLength) ++ "... (" ++
      toString (Text.utf8 input).length ++ " bytes total)"

def message : Error → String
  | .io fault => "I/O error: " ++ fault.message
  | .ioWhile activity fault => activity ++ ": " ++ fault.message
  | .json fault => "invalid session JSON: " ++ fault.message
  | .payload fault => "undecodable event payload: " ++ fault.message
  | .invalidRecording path message => "invalid recording " ++ path ++ ": " ++ message
  | .unexpectedFrame frame => "unexpected transport frame: " ++ excerpt frame
  | .transportClosed => "transport closed"
  | .transport message => "transport error: " ++ message
  | .websocket message => "websocket error: " ++ message
  | .renderer message => "renderer error: " ++ message
  | .playerStopped => "player is no longer running"
  | .config message => "configuration error: " ++ message

/-- Whether the error means that the remote side of the feed went away. -/
def isDisconnect : Error → Bool
  | .transportClosed => true
  | .websocket _ => true
  | _ => false

end Error

end SessionPlayback
