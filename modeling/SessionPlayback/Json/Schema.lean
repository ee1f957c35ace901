import SessionPlayback.Bounds
import SessionPlayback.Json.Fault

/-!
Members of an object against what is expected of them. Members that are not expected are passed
over; of the others each may stand once and must have a value of its kind, and the first that
fails, in the order of the text, is the fault of the object.
-/

namespace SessionPlayback.Json

def decodeString : Json → Except Fault String
  | .string s => .ok s
  | v => .error (wrongType v.found "a string")

def decodeOptionalString : Json → Except Fault (Option String)
  | .null => .ok none
  | v => (decodeString v).map some

def int64Name : String := "i64"

def uint32Name : String := "u32"

def decodeInt64 : Json → Except Fault Int64
  | .number (.whole n) =>
    if int64Min ≤ n ∧ n ≤ int64Max then .ok (Int64.ofInt n)
    else .error (wrongValue (.number (.whole n)) int64Name)
  | v => .error (wrongType v.found int64Name)

def decodeOptionalInt64 : Json → Except Fault (Option Int64)
  | .null => .ok none
  | v => (decodeInt64 v).map some

def decodeUInt32 : Json → Except Fault UInt32
  | .number (.whole n) =>
    if 0 ≤ n ∧ n ≤ uint32Max then .ok n.toNat.toUInt32
    else .error (wrongValue (.number (.whole n)) uint32Name)
  | v => .error (wrongType v.found uint32Name)

structure Field where
  name : String
  /-- What is wrong with a value of the member. -/
  fault? : Json → Option Fault

def Field.of (name : String) (decode : Json → Except Fault α) : Field where
  name
  fault? v :=
    match decode v with
    | .ok _ => none
    | .error fault => some fault

/-- The first fault of the members, those in `seen` having stood before. -/
def firstFault (fields : List Field) (seen : List String) : List (String × Json) → Option Fault
  | [] => none
  | (name, v) :: rest =>
    match fields.find? (·.name = name) with
    | none => firstFault fields seen rest
    | some field =>
      if name ∈ seen then some (.mismatch (.duplicateField name))
      else
        match field.fault? v with
        | some fault => some fault
        | none => firstFault fields (name :: seen) rest

/-- The value of a member, or `default` if the member is missing or has no such value. -/
def memberOr (default : α) (name : String) (decode : Json → Except Fault α)
    (members : List (String × Json)) : α :=
  match members.lookup name with
  | some v =>
    match decode v with
    | .ok a => a
    | .error _ => default
  | none => default

end SessionPlayback.Json
