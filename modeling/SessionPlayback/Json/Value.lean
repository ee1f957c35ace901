import SessionPlayback.Binary64

/-!
JSON values. An object keeps its members in the order of the text, repeated names included, because
which of two faults is reported depends on it.
-/

namespace SessionPlayback

/-- A number is whole if it was written without fraction and exponent and fits 64 bits, with or
without sign; any other is a binary64 number. -/
inductive Json.Number where
  | whole (n : Int)
  | float (x : Binary64)
  deriving DecidableEq, Repr

inductive Json where
  | null
  | bool (b : Bool)
  | number (n : Json.Number)
  | string (s : String)
  | array (items : List Json)
  | object (members : List (String × Json))
  deriving Inhabited

namespace Json

def ofInt (n : Int) : Json := .number (.whole n)

/-- The first member of that name. -/
def member? (name : String) : Json → Option Json
  | .object members => members.lookup name
  | _ => none

end Json

end SessionPlayback
