import SessionPlayback.Binary64.Decimal

/-!
The shortest decimal that reads back as a given number, and its text. For each count of digits the
two neighbours of the value on that decimal grid are tried; the first grid with a hit wins, and of
two hits the nearer one.
-/

namespace SessionPlayback.Binary64

/-- Decimal exponent of the leading digit of a magnitude that is not zero. -/
def leadingExponent (magnitude : Nat) : Int :=
  ((Nat.toDigits 10 ((units magnitude * Nat.pow 10 400) >>> 1074)).length : Int) - 401

/-- The neighbour with `count` digits that reads back as the magnitude, if there is one: its
digits, as a number of the last place `place`. -/
def neighbour? (magnitude : Nat) (place : Int) : Option Nat :=
  let num := units magnitude * Nat.pow 10 (-place).toNat
  let den := Nat.pow 10 place.toNat <<< 1074
  let below := num / den
  let readsBack (digits : Nat) : Bool :=
    match ofDecimal false digits place with
    | .finite _ m => m.val = magnitude
    | _ => false
  match readsBack below, readsBack (below + 1) with
  | true, true =>
    let twice := 2 * (num % den)
    some (if twice < den || twice = den && below % 2 = 0 then below else below + 1)
  | true, false => some below
  | false, true => some (below + 1)
  | false, false => none

/-- The fewest digits that read back, from `count` of them upwards; the second component is the
exponent of the last digit. -/
def searchDigits (magnitude : Nat) (leading : Int) : Nat → Nat → Nat × Int
  | 0, _ => (0, 0)
  | more + 1, count =>
    let place := leading - count
    match neighbour? magnitude place with
    | some digits => (digits, place)
    | none => searchDigits magnitude leading more (count + 1)

/-- Shortest digits of a magnitude that is not zero and the exponent of the last one. The upper
neighbour can be a power of ten, whose zero is dropped. -/
def shortestDigits (magnitude : Nat) : Nat × Int :=
  let (digits, place) := searchDigits magnitude (leadingExponent magnitude) 20 0
  if digits % 10 = 0 then (digits / 10, place + 1) else (digits, place)

/-- How digits become text: values whose leading exponent lies between `least` and `most` are
written without an exponent. -/
structure Layout where
  least : Int
  most : Int

/-- Messages about unexpected numbers write `0.00001` and `1000000000000000.0` in full, and go to
a signed exponent beyond. -/
def messageLayout : Layout := ⟨-5, 15⟩

def renderMagnitude (layout : Layout) (magnitude : Nat) : List Char :=
  if magnitude = 0 then ['0', '.', '0']
  else
    let (number, place) := shortestDigits magnitude
    let digits := Nat.toDigits 10 number
    let leading : Int := place + digits.length - 1
    if layout.least ≤ leading && leading ≤ layout.most then
      if 0 ≤ place then digits ++ List.replicate place.toNat '0' ++ ['.', '0']
      else if 0 ≤ leading then
        digits.take (leading.toNat + 1) ++ '.' :: digits.drop (leading.toNat + 1)
      else '0' :: '.' :: (List.replicate ((-leading).toNat - 1) '0' ++ digits)
    else
      let mantissa :=
        match digits with
        | [] => []
        | [d] => [d]
        | d :: more => d :: '.' :: more
      mantissa ++ 'e' :: (if leading < 0 then '-' else '+') :: Nat.toDigits 10 leading.natAbs

/-- The shortest text that reads back as the number, always with a point or an exponent. -/
def render (layout : Layout) : Binary64 → String
  | .nan => "NaN"
  | .infinite s => if s then "-inf" else "inf"
  | .finite s m => String.ofList ((if s then ['-'] else []) ++ renderMagnitude layout m)

end SessionPlayback.Binary64
