import SessionPlayback.Json.Fault
import SessionPlayback.Json.Numeral

/-!
JSON text as tokens. A scan over the characters keeps one small state, so tokens come in the order
of the text and a fault stands behind everything that precedes it. A reader meets the fault only
when it gets that far.
-/

namespace SessionPlayback.Json

/-- What a token that cannot be read looks like from its beginning. -/
inductive Shape where
  | string
  | number
  | null
  | other
  deriving DecidableEq, Repr

inductive Token where
  | openArray
  | closeArray
  | openObject
  | closeObject
  | comma
  | colon
  | null
  | bool (b : Bool)
  | number (n : Number)
  | string (s : String)
  /-- A string with half a surrogate pair or a number out of range: it can be passed over but not
  read. -/
  | valueless (shape : Shape)
  /-- No token; the text is not looked at beyond. -/
  | broken (shape : Shape) (fault : Fault)
  deriving DecidableEq, Repr

inductive Escape where
  | none
  | backslash
  /-- Four octets of hexadecimal digits: how many have been seen and their value, as long as all
  are digits. `high` is the first half of a surrogate pair that awaits this one. -/
  | code (high : Option Nat) (octets : Nat) (value : Option Nat)
  /-- The first half of a pair has been read; a backslash is expected. -/
  | pairBackslash (high : Nat)
  /-- And then the letter of a code escape. -/
  | pairLetter (high : Nat)
  deriving DecidableEq, Repr

/-- A string that has been opened; `reversed` holds its characters so far. -/
structure Literal where
  reversed : List Char := []
  /-- False once half a surrogate pair has been met alone. -/
  paired : Bool := true
  escape : Escape := .none
  deriving DecidableEq, Repr

inductive Lexer where
  | ready
  | word (rest : List Char) (token : Token)
  | number (n : Numeral)
  | string (s : Literal)
  | stopped

namespace Literal

def push (s : Literal) (c : Char) : Literal :=
  { s with reversed := c :: s.reversed, escape := .none }

def pushUnpaired (s : Literal) : Literal :=
  { s with paired := false, escape := .none }

def shortEscape? : Char → Option Char
  | '"' => some '"'
  | '\\' => some '\\'
  | '/' => some '/'
  | 'b' => some '\x08'
  | 'f' => some '\x0c'
  | 'n' => some '\n'
  | 'r' => some '\r'
  | 't' => some '\t'
  | _ => none

def hexDigit? (c : Char) : Option Nat :=
  if c.isDigit then some (c.toNat - '0'.toNat)
  else if 'a' ≤ c ∧ c ≤ 'f' then some (c.toNat - 'a'.toNat + 10)
  else if 'A' ≤ c ∧ c ≤ 'F' then some (c.toNat - 'A'.toNat + 10)
  else none

def pushCode (s : Literal) (high : Option Nat) (code : Nat) : Literal :=
  match high with
  | some first =>
    if 0xDC00 ≤ code ∧ code ≤ 0xDFFF then
      s.push (Char.ofNat ((first - 0xD800) * 1024 + (code - 0xDC00) + 0x10000))
    else s.pushUnpaired
  | none =>
    if 0xDC00 ≤ code ∧ code ≤ 0xDFFF then s.pushUnpaired
    else if 0xD800 ≤ code ∧ code ≤ 0xDBFF then { s with escape := .pairBackslash code }
    else s.push (Char.ofNat code)

/-- One digit of a code escape. What is no digit is a fault only when four octets are there. -/
def pushHex (s : Literal) (high : Option Nat) (octets : Nat) (value : Option Nat) (c : Char) :
    Option Literal :=
  let octets := octets + c.utf8Size
  let value := value.bind fun v => (hexDigit? c).map (v * 16 + ·)
  if octets < 4 then some { s with escape := .code high octets value }
  else value.map (s.pushCode high)

def pushEscape (s : Literal) (c : Char) : Option Literal :=
  if c = 'u' then some { s with escape := .code none 0 (some 0) }
  else (shortEscape? c).map s.push

def token (s : Literal) : Token :=
  if s.paired then .string (String.ofList s.reversed.reverse) else .valueless .string

def fail (s : Literal) (fault : Fault) : List Token :=
  (if s.paired then [] else [.valueless .string]) ++ [.broken .string fault]

/-- A character that no escape is waiting for. -/
def stepPlain (s : Literal) (c : Char) : List Token × Lexer :=
  if c = '"' then ([s.token], .ready)
  else if c = '\\' then ([], .string { s with escape := .backslash })
  else if c.toNat < 0x20 then (s.fail .malformed, .stopped)
  else ([], .string (s.push c))

def continueWith (s : Literal) : Option Literal → List Token × Lexer
  | some next => ([], .string next)
  | none => (s.fail .malformed, .stopped)

def step (s : Literal) (c : Char) : List Token × Lexer :=
  match s.escape with
  | .none => s.stepPlain c
  | .backslash => s.continueWith (s.pushEscape c)
  | .code high octets value => s.continueWith (s.pushHex high octets value c)
  | .pairBackslash high =>
    if c = '\\' then ([], .string { s with escape := .pairLetter high })
    else s.pushUnpaired.stepPlain c
  | .pairLetter high =>
    if c = 'u' then ([], .string { s with escape := .code (some high) 0 (some 0) })
    else s.pushUnpaired.continueWith (s.pushUnpaired.pushEscape c)

end Literal

def Numeral.token (n : Numeral) : Token :=
  match n.value? with
  | some value => .number value
  | none => .valueless .number

namespace Lexer

/-- The four blanks of JSON. -/
def isBlank (c : Char) : Bool := c = ' ' || c = '\t' || c = '\n' || c = '\r'

/-- A character between two tokens. -/
def start (c : Char) : List Token × Lexer :=
  if isBlank c then ([], .ready)
  else
    match c with
    | '[' => ([.openArray], .ready)
    | ']' => ([.closeArray], .ready)
    | '\x7b' => ([.openObject], .ready)
    | '\x7d' => ([.closeObject], .ready)
    | ',' => ([.comma], .ready)
    | ':' => ([.colon], .ready)
    | '"' => ([], .string {})
    | 'n' => ([], .word ['u', 'l', 'l'] .null)
    | 't' => ([], .word ['r', 'u', 'e'] (.bool true))
    | 'f' => ([], .word ['a', 'l', 's', 'e'] (.bool false))
    | c =>
      match Numeral.start? c with
      | some n => ([], .number n)
      | none => ([.broken .other .malformed], .stopped)

def cutWord : Token → Token
  | .null => .broken .null .endOfInput
  | _ => .broken .other .endOfInput

def stepWord (rest : List Char) (token : Token) (c : Char) : List Token × Lexer :=
  match rest with
  | [d] => if c = d then ([token], .ready) else ([.broken .other .malformed], .stopped)
  | d :: more =>
    if c = d then ([], .word more token) else ([.broken .other .malformed], .stopped)
  | [] => ([.broken .other .malformed], .stopped)

/-- A character within or right after a numeral. -/
def stepNumber (n : Numeral) (c : Char) : List Token × Lexer :=
  match n.push? c with
  | some next => ([], .number next)
  | none =>
    if n.isComplete (some c) then
      let (tokens, state) := start c
      (n.token :: tokens, state)
    else ([.broken .number .malformed], .stopped)

def step (state : Lexer) (c : Char) : List Token × Lexer :=
  match state with
  | .ready => start c
  | .word rest token => stepWord rest token c
  | .number n => stepNumber n c
  | .string s => s.step c
  | .stopped => ([], .stopped)

def finish : Lexer → List Token
  | .ready => []
  | .word _ token => [cutWord token]
  | .number n => if n.isComplete none then [n.token] else [.broken .number .endOfInput]
  | .string s => s.fail .endOfInput
  | .stopped => []

def run (state : Lexer) : List Char → List Token
  | [] => state.finish
  | c :: rest =>
    let (tokens, next) := state.step c
    tokens ++ run next rest

end Lexer

def tokens (text : String) : List Token := Lexer.run .ready text.toList

end SessionPlayback.Json
