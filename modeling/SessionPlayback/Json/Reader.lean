import SessionPlayback.Json.Token

/-!
JSON values from tokens. Every reader takes tokens from the front and gives back the rest, so that a
record can be read member by member and a fault in one member wins over whatever follows it.
-/

namespace SessionPlayback.Json

def nestingLimit : Nat := 127

abbrev Reader (α : Type) := List Token → Except Fault (α × List Token)

def valueFault : List Token → Fault
  | [] => .endOfInput
  | .broken _ fault :: _ => fault
  | _ => .malformed

/-- The fault of tokens at which no member name begins. Outside a string any text is malformed
there, even one that stops too early. -/
def nameFault : List Token → Fault
  | [] => .endOfInput
  | .broken .string fault :: _ => fault
  | _ => .malformed

def separatorFault : List Token → Fault
  | [] => .endOfInput
  | _ => .malformed

def Token.found? : Token → Option Found
  | .null => some .null
  | .bool b => some (.bool b)
  | .number n => some (.number n)
  | .string s => some (.string s)
  | .openArray => some .sequence
  | .openObject => some .map
  | _ => none

/-- The fault of tokens that begin with something else than `expected`. -/
def unexpected (expected : String) : List Token → Fault
  | [] => .endOfInput
  | token :: rest =>
    match token.found? with
    | some found => wrongType found expected
    | none => valueFault (token :: rest)

/-- Items after the first, each behind a comma, up to `close`. Each round takes a token, so the
bound is never reached. -/
def moreItems (close : Token) (item : α → Reader α) : Nat → α → Reader α
  | 0, _, tokens => .error (separatorFault tokens)
  | _, _, [] => .error .endOfInput
  | bound + 1, state, token :: rest =>
    if token = close then .ok (state, rest)
    else if token = .comma then
      match item state rest with
      | .ok (state, rest) => moreItems close item bound state rest
      | .error fault => .error fault
    else .error .malformed

/-- Items separated by commas up to `close`, read one after the other into a state. -/
def items (close : Token) (item : α → Reader α) (state : α) : Reader α
  | [] => .error .endOfInput
  | token :: rest =>
    if token = close then .ok (state, rest)
    else
      match item state (token :: rest) with
      | .ok (state, rest) => moreItems close item rest.length state rest
      | .error fault => .error fault

def name : Reader String
  | .string s :: rest =>
    match rest with
    | .colon :: rest => .ok (s, rest)
    | rest => .error (separatorFault rest)
  | tokens => .error (nameFault tokens)

/-- A value with at most `depth` arrays and objects inside one another. -/
def value : Nat → Reader Json
  | _, .null :: rest => .ok (.null, rest)
  | _, .bool b :: rest => .ok (.bool b, rest)
  | _, .number n :: rest => .ok (.number n, rest)
  | _, .string s :: rest => .ok (.string s, rest)
  | depth + 1, .openArray :: rest =>
    (items .closeArray
        (fun reversed tokens => (value depth tokens).map fun (v, rest) => (v :: reversed, rest))
        [] rest).map
      fun (reversed, rest) => (.array reversed.reverse, rest)
  | depth + 1, .openObject :: rest =>
    (items .closeObject
        (fun reversed tokens =>
          match name tokens with
          | .ok (key, tokens) =>
            (value depth tokens).map fun (v, rest) => ((key, v) :: reversed, rest)
          | .error fault => .error fault)
        [] rest).map
      fun (reversed, rest) => (.object reversed.reverse, rest)
  | _, tokens => .error (valueFault tokens)

/-- The fault of tokens at which there is nothing to pass over. A number that stops too early counts
as malformed there. -/
def skipFault : List Token → Fault
  | .broken .number _ :: _ => .malformed
  | tokens => valueFault tokens

def skipName : Reader Unit
  | .string _ :: .colon :: rest => .ok ((), rest)
  | .valueless .string :: .colon :: rest => .ok ((), rest)
  | .string _ :: rest => .error (separatorFault rest)
  | .valueless .string :: rest => .error (separatorFault rest)
  | tokens => .error (nameFault tokens)

/-- Passes over a value, readable or not; `depth` bounds the nesting. -/
def skip : Nat → Reader Unit
  | _, .null :: rest => .ok ((), rest)
  | _, .bool _ :: rest => .ok ((), rest)
  | _, .number _ :: rest => .ok ((), rest)
  | _, .string _ :: rest => .ok ((), rest)
  | _, .valueless _ :: rest => .ok ((), rest)
  | depth + 1, .openArray :: rest => items .closeArray (fun _ => skip depth) () rest
  | depth + 1, .openObject :: rest =>
    items .closeObject
      (fun _ tokens =>
        match skipName tokens with
        | .ok (_, tokens) => skip depth tokens
        | .error fault => .error fault)
      () rest
  | _, tokens => .error (skipFault tokens)

def readAll (reader : Reader α) (text : String) : Except Fault α :=
  match reader (tokens text) with
  | .ok (v, []) => .ok v
  | .ok (_, _ :: _) => .error .malformed
  | .error fault => .error fault

def read (text : String) : Except Fault Json := readAll (value nestingLimit) text

end SessionPlayback.Json
