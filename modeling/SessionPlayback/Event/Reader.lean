import SessionPlayback.Event.Record
import SessionPlayback.Json.Reader
import SessionPlayback.Json.Schema

/-!
Events from their records. The offset is read where it stands; all other members are kept until the
object is complete and then read by the type that they name. So members may stand in any order, and
members that the type does not have are passed over.
-/

namespace SessionPlayback

open Json (Fault Field Reader Token)

namespace Event

inductive Tag where
  | start
  | resize
  | message
  | stop
  | request
  | unknown
  deriving DecidableEq, Repr

namespace Tag

/-- Names of types; messages and requests have a short name beside the one that is written. -/
def ofName (name : String) : Tag :=
  if name = "session-start" then .start
  else if name = "window-resize" then .resize
  else if name = "new-message" ∨ name = "message" then .message
  else if name = "session-stop" then .stop
  else if name = "new-request" ∨ name = "request" then .request
  else .unknown

def ofNumber : Nat → Tag
  | 0 => .start
  | 1 => .resize
  | 2 => .message
  | 3 => .stop
  | 4 => .request
  | _ => .unknown

def decode : Json → Except Fault Tag
  | .string name => .ok (ofName name)
  | .number (.whole n) =>
    if 0 ≤ n then .ok (ofNumber n.toNat)
    else .error (Json.wrongType (.number (.whole n)) "variant identifier")
  | v => .error (Json.wrongType v.found "variant identifier")

/-- The type among the members, which must name it exactly once. -/
def ofMembers (members : List (String × Json)) : Except Fault Tag :=
  match members.filter (·.1 = "type") with
  | [] => .error (.mismatch (.missingField "type"))
  | [(_, v)] => decode v
  | (_, v) :: _ :: _ =>
    match decode v with
    | .ok _ => .error (.mismatch (.duplicateField "type"))
    | .error fault => .error fault

end Tag

/-- A direction is a name, or an object with that name as its only member and nothing as its
value. -/
def decodeDirection : Json → Except Fault Direction
  | .string name => .ok (.ofRecordName name)
  | .object [(name, v)] =>
    match v with
    | .null | .object [] => .ok (.ofRecordName name)
    | v => .error (Json.wrongType v.found "unit")
  | .object _ => .error (Json.wrongValue .map "map with a single key")
  | v => .error (Json.wrongType v.found "string or map")

def startFields : List Field := [
  .of "client_host" Json.decodeOptionalString, .of "server_host" Json.decodeOptionalString,
  .of "username" Json.decodeOptionalString, .of "key" Json.decodeOptionalString,
  .of "start" Json.decodeOptionalInt64]

def resizeFields : List Field := [
  .of "term_rows" Json.decodeUInt32, .of "term_cols" Json.decodeUInt32]

def messageFields : List Field := [
  .of "direction" decodeDirection, .of "data" Json.decodeString]

def requestFields : List Field := [
  .of "request_type" Json.decodeString, .of "request_payload" Json.decodeString]

/-- `result`, unless one of the members is at fault. -/
def checked (fields : List Field) (members : List (String × Json)) (result : Except Fault α) :
    Except Fault α :=
  match Json.firstFault fields [] members with
  | some fault => .error fault
  | none => result

def readKind (tag : Tag) (members : List (String × Json)) : Except Fault Kind :=
  match tag with
  | .start => checked startFields members <| .ok <| .start {
      clientHost := Json.memberOr none "client_host" Json.decodeOptionalString members
      serverHost := Json.memberOr none "server_host" Json.decodeOptionalString members
      username := Json.memberOr none "username" Json.decodeOptionalString members
      key := Json.memberOr none "key" Json.decodeOptionalString members
      startTime := Json.memberOr none "start" Json.decodeOptionalInt64 members }
  | .resize => checked resizeFields members <| .ok <| .resize {
      rows := Json.memberOr 0 "term_rows" Json.decodeUInt32 members
      cols := Json.memberOr 0 "term_cols" Json.decodeUInt32 members }
  | .message => checked messageFields members <|
      match members.lookup "direction" with
      | none => .error (.mismatch (.missingField "direction"))
      | some v =>
        match decodeDirection v with
        | .error fault => .error fault
        | .ok direction =>
          .ok (.message ⟨direction, Json.memberOr "" "data" Json.decodeString members⟩)
  | .stop => .ok .stop
  | .request => checked requestFields members <| .ok <| .request {
      type := Json.memberOr "" "request_type" Json.decodeString members
      payload := Json.memberOr "" "request_payload" Json.decodeString members }
  | .unknown => .ok .unknown

/-- The members of a record as far as they have been read. -/
structure Draft where
  offset : Option Int64 := none
  /-- All members but the offset, last first. -/
  reversed : List (String × Json) := []

def readOffset : Reader Int64
  | .number n :: rest => (Json.decodeInt64 (.number n)).map fun offset => (offset, rest)
  | tokens => .error (Json.unexpected Json.int64Name tokens)

/-- One member. A second offset is a fault before its value is looked at. -/
def readMember (depth : Nat) (draft : Draft) : Reader Draft
  | .string "offset" :: rest =>
    if draft.offset.isSome then .error (.mismatch (.duplicateField "offset"))
    else
      match Json.name (.string "offset" :: rest) with
      | .error fault => .error fault
      | .ok (_, rest) =>
        (readOffset rest).map fun (offset, rest) => ({ draft with offset := some offset }, rest)
  | tokens =>
    match Json.name tokens with
    | .error fault => .error fault
    | .ok (name, rest) =>
      (Json.value depth rest).map fun (v, rest) =>
        ({ draft with reversed := (name, v) :: draft.reversed }, rest)

def ofDraft (draft : Draft) : Except Fault Event := do
  let members := draft.reversed.reverse
  let tag ← Tag.ofMembers members
  let kind ← readKind tag members
  return ⟨draft.offset.getD 0, kind⟩

/-- A record with at most `depth` arrays and objects inside its object. -/
def reader (depth : Nat) : Reader Event
  | .openObject :: rest =>
    match Json.items .closeObject (readMember depth) {} rest with
    | .error fault => .error fault
    | .ok (draft, rest) => (ofDraft draft).map fun event => (event, rest)
  | tokens => .error (Json.unexpected "struct SessionEvent" tokens)

def read (text : String) : Except Fault Event :=
  Json.readAll (reader (Json.nestingLimit - 1)) text

end Event

end SessionPlayback
