import SessionPlayback.Event
import SessionPlayback.Json.Printer

/-!
The record of an event: a flat JSON object with the offset, the type and the members of that type.
-/

namespace SessionPlayback

namespace Direction

def recordName : Direction → String
  | .incoming => "incoming"
  | .outgoing => "outgoing"
  | .other => "other"

/-- Any name that is not one of the two played directions is another direction. -/
def ofRecordName (name : String) : Direction :=
  if name = "incoming" then .incoming
  else if name = "outgoing" then .outgoing
  else .other

end Direction

/-- A member that is left out when there is no value. -/
def optionalMember (name : String) (value : Option Json) : List (String × Json) :=
  match value with
  | some v => [(name, v)]
  | none => []

namespace Event.Kind

def recordType : Event.Kind → String
  | .start _ => "session-start"
  | .resize _ => "window-resize"
  | .message _ => "new-message"
  | .stop => "session-stop"
  | .request _ => "new-request"
  | .unknown => "Unknown"

/-- The members that belong to the type, in the order in which they are written. -/
def members : Event.Kind → List (String × Json)
  | .start s =>
    optionalMember "client_host" (s.clientHost.map .string) ++
    optionalMember "server_host" (s.serverHost.map .string) ++
    optionalMember "username" (s.username.map .string) ++
    optionalMember "key" (s.key.map .string) ++
    optionalMember "start" (s.startTime.map fun t => .ofInt t.toInt)
  | .resize r => [("term_rows", .ofInt r.rows.toNat), ("term_cols", .ofInt r.cols.toNat)]
  | .message m => [("direction", .string m.direction.recordName), ("data", .string m.data)]
  | .stop => []
  | .request r => [("request_type", .string r.type), ("request_payload", .string r.payload)]
  | .unknown => []

end Event.Kind

namespace Event

def toJson (e : Event) : Json :=
  .object (("offset", .ofInt e.offset.toInt) :: ("type", .string e.kind.recordType) ::
    e.kind.members)

def render (e : Event) : String := e.toJson.render

end Event

end SessionPlayback
