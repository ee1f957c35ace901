import SessionPlayback.Json.Printer
import SessionPlayback.Json.Reader
import SessionPlayback.Json.Schema
import SessionPlayback.Metadata

/-!
Metadata as JSON: an object with the ten fields in any order, or an array of the ten values. Each
value is read where it stands. Only the mode fields must be there.
-/

namespace SessionPlayback.Metadata

open Json (Fault Reader Token)

/-- A value or null. A text that stops within the null has come to its end too early. -/
def optional (reader : Reader α) : Reader (Option α)
  | .null :: rest => .ok (none, rest)
  | .broken .null fault :: _ => .error fault
  | tokens => (reader tokens).map fun (v, rest) => (some v, rest)

def readString : Reader String
  | .string s :: rest => .ok (s, rest)
  | tokens => .error (Json.unexpected "a string" tokens)

def readBool : Reader Bool
  | .bool b :: rest => .ok (b, rest)
  | tokens => .error (Json.unexpected "a boolean" tokens)

def readInt64 : Reader Int64
  | .number n :: rest => (Json.decodeInt64 (.number n)).map fun v => (v, rest)
  | tokens => .error (Json.unexpected Json.int64Name tokens)

def readUInt32 : Reader UInt32
  | .number n :: rest => (Json.decodeUInt32 (.number n)).map fun v => (v, rest)
  | tokens => .error (Json.unexpected Json.uint32Name tokens)

def choose (choices : List (String × α)) (name : String) : Except Fault α :=
  match choices.lookup name with
  | some v => .ok v
  | none => .error (.mismatch (.unknownVariant name (choices.map (·.1))))

def readChoiceEnd : Reader Unit
  | .colon :: .null :: .closeObject :: rest => .ok ((), rest)
  | .colon :: .null :: rest => .error (Json.separatorFault rest)
  | .colon :: rest => .error (Json.unexpected "unit" rest)
  | tokens => .error (Json.separatorFault tokens)

/-- One of some names, or an object with that name as its only member and null as its value. -/
def readChoice (choices : List (String × α)) : Reader α
  | .string name :: rest => (choose choices name).map fun v => (v, rest)
  | .openObject :: .string name :: rest =>
    match choose choices name with
    | .error fault => .error fault
    | .ok v => (readChoiceEnd rest).map fun (_, rest) => (v, rest)
  | .openObject :: rest => .error (Json.nameFault rest)
  | tokens => .error (Json.nameFault tokens)

def terminalTypes : List (String × TerminalType) :=
  [TerminalType.interactive, .exec].map fun t => (t.name, t)

def feedKinds : List (String × FeedKind) :=
  [FeedKind.live, .old].map fun f => (f.name, f)

structure Draft where
  clientHost : Option (Option String) := none
  serverHost : Option (Option String) := none
  username : Option (Option String) := none
  key : Option (Option String) := none
  startTime : Option (Option Int64) := none
  rows : Option (Option UInt32) := none
  cols : Option (Option UInt32) := none
  terminalType : Option (Option TerminalType) := none
  live : Option Bool := none
  feed : Option FeedKind := none

/-- A field: whether a draft has it, and how its value is read into a draft. -/
structure Column where
  name : String
  isRead : Draft → Bool
  read : Draft → Reader Draft

def into (reader : Reader α) (put : α → Draft) : Reader Draft := fun tokens =>
  (reader tokens).map fun (v, rest) => (put v, rest)

/-- The fields in the order of the array form. -/
def columns : List Column := [
  ⟨"client_host", (·.clientHost.isSome),
    fun d => into (optional readString) fun v => { d with clientHost := some v }⟩,
  ⟨"server_host", (·.serverHost.isSome),
    fun d => into (optional readString) fun v => { d with serverHost := some v }⟩,
  ⟨"username", (·.username.isSome),
    fun d => into (optional readString) fun v => { d with username := some v }⟩,
  ⟨"key", (·.key.isSome),
    fun d => into (optional readString) fun v => { d with key := some v }⟩,
  ⟨"start_time", (·.startTime.isSome),
    fun d => into (optional readInt64) fun v => { d with startTime := some v }⟩,
  ⟨"term_rows", (·.rows.isSome),
    fun d => into (optional readUInt32) fun v => { d with rows := some v }⟩,
  ⟨"term_cols", (·.cols.isSome),
    fun d => into (optional readUInt32) fun v => { d with cols := some v }⟩,
  ⟨"terminal_type", (·.terminalType.isSome),
    fun d => into (optional (readChoice terminalTypes)) fun v => { d with terminalType := some v }⟩,
  ⟨"live", (·.live.isSome), fun d => into readBool fun v => { d with live := some v }⟩,
  ⟨"feed", (·.feed.isSome),
    fun d => into (readChoice feedKinds) fun v => { d with feed := some v }⟩]

/-- The metadata of a draft; the mode fields must have been read. -/
def ofDraft (d : Draft) : Except Fault Metadata :=
  match d.live, d.feed with
  | none, _ => .error (.mismatch (.missingField "live"))
  | _, none => .error (.mismatch (.missingField "feed"))
  | some live, some feed => .ok {
      clientHost := d.clientHost.join
      serverHost := d.serverHost.join
      username := d.username.join
      key := d.key.join
      startTime := d.startTime.join
      rows := d.rows.join
      cols := d.cols.join
      terminalType := d.terminalType.join
      live, feed }

/-- A member of the object form. Members with other names are passed over. -/
def readMember (draft : Draft) : Reader Draft
  | .string name :: rest =>
    match columns.find? (·.name = name) with
    | some column =>
      if column.isRead draft then .error (.mismatch (.duplicateField name))
      else
        match Json.name (.string name :: rest) with
        | .ok (_, rest) => column.read draft rest
        | .error fault => .error fault
    | none =>
      match Json.name (.string name :: rest) with
      | .ok (_, rest) => (Json.skip rest.length rest).map fun (_, rest) => (draft, rest)
      | .error fault => .error fault
  | tokens => .error (Json.nameFault tokens)

def readColumns (draft : Draft) (index : Nat) : List Column → Reader Draft
  | [], .closeArray :: rest => .ok (draft, rest)
  | [], tokens => .error (Json.separatorFault tokens)
  | _ :: _, [] => .error .endOfInput
  | column :: columns, token :: rest =>
    let value? : Except Fault (List Token) :=
      if token = .closeArray then
        .error (.mismatch (.invalidLength index "struct SessionMetadata with 10 elements"))
      else if index = 0 then .ok (token :: rest)
      else if token = .comma then .ok rest
      else .error .malformed
    match value? with
    | .error fault => .error fault
    | .ok tokens =>
      match column.read draft tokens with
      | .error fault => .error fault
      | .ok (draft, rest) => readColumns draft (index + 1) columns rest

def reader : Reader Metadata
  | .openObject :: rest =>
    match Json.items .closeObject readMember {} rest with
    | .error fault => .error fault
    | .ok (draft, rest) => (ofDraft draft).map fun m => (m, rest)
  | .openArray :: rest =>
    match readColumns {} 0 columns rest with
    | .error fault => .error fault
    | .ok (draft, rest) => (ofDraft draft).map fun m => (m, rest)
  | tokens => .error (Json.unexpected "struct SessionMetadata" tokens)

def read (text : String) : Except Fault Metadata := Json.readAll reader text

/-- The fields that have a value, with the mode fields always there. -/
def toJson (m : Metadata) : Json :=
  let member {α : Type} (name : String) (value : Option α) (json : α → Json) :
      List (String × Json) :=
    match value with
    | some v => [(name, json v)]
    | none => []
  .object (
    member "client_host" m.clientHost .string ++
    member "server_host" m.serverHost .string ++
    member "username" m.username .string ++
    member "key" m.key .string ++
    member "start_time" m.startTime (fun t => .ofInt t.toInt) ++
    member "term_rows" m.rows (fun n => .ofInt n.toNat) ++
    member "term_cols" m.cols (fun n => .ofInt n.toNat) ++
    member "terminal_type" m.terminalType (fun t => .string t.name) ++
    [("live", .bool m.live), ("feed", .string m.feed.name)])

end SessionPlayback.Metadata
