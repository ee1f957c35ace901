/-!
UTF-8 as a scan over octets. The scan yields one character for each well-formed sequence and one
mark for each maximal stretch that begins a sequence and cannot complete it, so that strict and
forgiving decoding are two readings of the same list.
-/

namespace SessionPlayback.Text.Utf8

/-- A sequence that has begun: the next octet must lie in `low..high`, and `more` octets follow
it. -/
structure Partial where
  low : UInt8
  high : UInt8
  more : Nat
  bits : Nat
  deriving DecidableEq, Repr

inductive Lead where
  | char (c : Char)
  | opens (p : Partial)
  | invalid

/-- First octets. The narrowed second ranges exclude overlong forms, surrogates and code points
above the last one. -/
def lead (octet : UInt8) : Lead :=
  let bits := octet.toNat
  if octet < 0x80 then .char (Char.ofNat bits)
  else if octet < 0xC2 then .invalid
  else if octet < 0xE0 then .opens ⟨0x80, 0xBF, 0, bits - 0xC0⟩
  else if octet < 0xF0 then
    .opens ⟨if octet = 0xE0 then 0xA0 else 0x80, if octet = 0xED then 0x9F else 0xBF, 1,
      bits - 0xE0⟩
  else if octet < 0xF5 then
    .opens ⟨if octet = 0xF0 then 0x90 else 0x80, if octet = 0xF4 then 0x8F else 0xBF, 2,
      bits - 0xF0⟩
  else .invalid

def start (octet : UInt8) : List (Option Char) × Option Partial :=
  match lead octet with
  | .char c => ([some c], none)
  | .opens p => ([], some p)
  | .invalid => ([none], none)

/-- One octet. An octet that cannot continue the open sequence ends it and starts afresh. -/
def step (state : Option Partial) (octet : UInt8) : List (Option Char) × Option Partial :=
  match state with
  | none => start octet
  | some p =>
    if p.low ≤ octet ∧ octet ≤ p.high then
      let bits := p.bits * 64 + octet.toNat % 64
      match p.more with
      | 0 => ([some (Char.ofNat bits)], none)
      | more + 1 => ([], some ⟨0x80, 0xBF, more, bits⟩)
    else
      let (emitted, state) := start octet
      (none :: emitted, state)

/-- All characters of the octets, with `none` for each stretch that is not UTF-8. -/
def scan (state : Option Partial) : List UInt8 → List (Option Char)
  | [] => if state.isSome then [none] else []
  | octet :: rest =>
    let (emitted, next) := step state octet
    emitted ++ scan next rest

end SessionPlayback.Text.Utf8

namespace SessionPlayback.Text

def utf8 (text : String) : List UInt8 :=
  text.toList.flatMap String.utf8EncodeChar

/-- The text that octets encode, if they are UTF-8 throughout. -/
def ofUtf8? (octets : List UInt8) : Option String :=
  ((Utf8.scan none octets).mapM id).map String.ofList

/-- The text that octets encode, with a replacement character for each stretch that is not
UTF-8. -/
def ofUtf8Lossy (octets : List UInt8) : String :=
  String.ofList ((Utf8.scan none octets).map (·.getD '\uFFFD'))

end SessionPlayback.Text
