/-!
Base64 with the standard alphabet and padding. Decoding is strict: padding must be complete, stand
at the end, and the bits that the last symbol does not use must be zero.
-/

namespace SessionPlayback.Base64

/-- Why a text is not base64. Positions count octets. -/
inductive Fault where
  | invalidByte (offset : Nat) (byte : UInt8)
  | invalidLength
  | invalidPadding
  | invalidLastSymbol (offset : Nat) (byte : UInt8)
  deriving DecidableEq, Repr

def Fault.message : Fault → String
  | .invalidByte offset byte =>
    "Invalid byte " ++ toString byte.toNat ++ ", offset " ++ toString offset ++ "."
  | .invalidLength => "Encoded text cannot have a 6-bit remainder."
  | .invalidPadding => "Invalid padding"
  | .invalidLastSymbol offset byte =>
    "Invalid last symbol " ++ toString byte.toNat ++ ", offset " ++ toString offset ++ "."

def padding : UInt8 := 61

def symbol (bits : Nat) : UInt8 :=
  if bits < 26 then (65 + bits).toUInt8
  else if bits < 52 then (97 + (bits - 26)).toUInt8
  else if bits < 62 then (48 + (bits - 52)).toUInt8
  else if bits = 62 then 43 else 47

def bits? (octet : UInt8) : Option Nat :=
  let code := octet.toNat
  if 65 ≤ code ∧ code ≤ 90 then some (code - 65)
  else if 97 ≤ code ∧ code ≤ 122 then some (code - 97 + 26)
  else if 48 ≤ code ∧ code ≤ 57 then some (code - 48 + 52)
  else if code = 43 then some 62
  else if code = 47 then some 63
  else none

/-- Three octets become four symbols; one or two octets at the end are padded. -/
def encode : List UInt8 → List UInt8
  | a :: b :: c :: rest =>
    let n := a.toNat * 65536 + b.toNat * 256 + c.toNat
    symbol (n / 262144) :: symbol (n / 4096 % 64) :: symbol (n / 64 % 64) :: symbol (n % 64) ::
      encode rest
  | [a, b] =>
    let n := a.toNat * 1024 + b.toNat * 4
    [symbol (n / 4096), symbol (n / 64 % 64), symbol (n % 64), padding]
  | [a] =>
    let n := a.toNat * 16
    [symbol (n / 64), symbol (n % 64), padding, padding]
  | [] => []

/-- Every octet as six bits; the first that is no symbol is the fault. -/
def readSymbols (offset : Nat) : List UInt8 → Except Fault (List Nat)
  | [] => .ok []
  | octet :: rest =>
    match bits? octet with
    | some bits => (readSymbols (offset + 1) rest).map (bits :: ·)
    | none => .error (.invalidByte offset octet)

/-- The last stretch of up to eight octets, where padding may stand: its symbols and the number of
padding octets. `start` is the offset of the stretch, `index` the place within it. Misplaced padding
is reported at the first padding octet. -/
def readLast (start index : Nat) (firstPadding : Option Nat) (paddings : Nat) :
    List UInt8 → Except Fault (List Nat × Nat)
  | [] => .ok ([], paddings)
  | octet :: rest =>
    if octet = padding then
      if index % 4 < 2 then .error (.invalidByte (start + firstPadding.getD index) padding)
      else readLast start (index + 1) (firstPadding.or (some index)) (paddings + 1) rest
    else
      match firstPadding with
      | some first => .error (.invalidByte (start + first) padding)
      | none =>
        match bits? octet with
        | some bits =>
          (readLast start (index + 1) none paddings rest).map fun (symbols, count) =>
            (bits :: symbols, count)
        | none => .error (.invalidByte (start + index) octet)

/-- Four symbols carry three octets, three carry two and two carry one. -/
def octets : List Nat → List UInt8
  | a :: b :: c :: d :: rest =>
    let n := a * 262144 + b * 4096 + c * 64 + d
    (n / 65536).toUInt8 :: (n / 256).toUInt8 :: n.toUInt8 :: octets rest
  | [a, b, c] =>
    let n := a * 1024 + b * 16 + c / 4
    [(n / 256).toUInt8, n.toUInt8]
  | [a, b] => [(a * 4 + b / 16).toUInt8]
  | _ => []

/-- Whether the last symbol sets bits that belong to no octet. -/
def hasUnusedBits (symbols : List Nat) : Bool :=
  let last := symbols.getLastD 0
  match symbols.length % 4 with
  | 2 => last % 16 ≠ 0
  | 3 => last % 4 ≠ 0
  | _ => false

def decode (text : List UInt8) : Except Fault (List UInt8) :=
  if text.length % 4 = 1 then
    let last := text.getLastD 0
    if last = padding ∨ (bits? last).isSome then .error .invalidLength
    else .error (.invalidByte (text.length - 1) last)
  else
    let start := (text.length - 1) / 8 * 8
    match readSymbols 0 (text.take start) with
    | .error fault => .error fault
    | .ok front =>
      match readLast start 0 none 0 (text.drop start) with
      | .error fault => .error fault
      | .ok (back, paddings) =>
        if (back.length + paddings) % 4 ≠ 0 then .error .invalidPadding
        else if hasUnusedBits back then
          .error (.invalidLastSymbol (start + back.length - 1)
            ((text.drop start).getD (back.length - 1) 0))
        else .ok (octets (front ++ back))

end SessionPlayback.Base64
