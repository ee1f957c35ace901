import SessionPlayback.Binary64.Decimal
import SessionPlayback.Bounds
import SessionPlayback.Json.Value

/-!
JSON numbers read digit by digit. The digits that fit 64 bits are kept as a whole number and the
others only counted; the number is then that whole number times one power of ten, rounded once for
each of the two.
-/

namespace SessionPlayback.Json

inductive Numeral.Place where
  | sign
  | zero
  | whole
  | point
  | fraction
  | exponentMark
  | exponentSign
  | exponent
  deriving DecidableEq, Repr

structure Numeral where
  negative : Bool
  place : Numeral.Place
  /-- The digits kept so far. -/
  significand : Nat := 0
  /-- The power of ten that the kept digits are to be multiplied with. -/
  scale : Int := 0
  /-- Whether a digit of this part has been left out. -/
  full : Bool := false
  exponentNegative : Bool := false
  exponent : Nat := 0
  deriving DecidableEq, Repr

namespace Numeral

def digit? (c : Char) : Option Nat :=
  if c.isDigit then some (c.toNat - '0'.toNat) else none

def pushWhole (n : Numeral) (digit : Nat) : Numeral :=
  let extended := n.significand * 10 + digit
  if !n.full && extended ≤ uint64Max then { n with place := .whole, significand := extended }
  else { n with place := .whole, scale := n.scale + 1, full := true }

def pushFraction (n : Numeral) (digit : Nat) : Numeral :=
  let extended := n.significand * 10 + digit
  if !n.full && extended ≤ uint64Max then
    { n with place := .fraction, significand := extended, scale := n.scale - 1 }
  else { n with place := .fraction, full := true }

def pushExponent (n : Numeral) (digit : Nat) : Numeral :=
  { n with place := .exponent, exponent := n.exponent * 10 + digit }

/-- The numeral with one more character, if that character can continue it. -/
def push? (n : Numeral) (c : Char) : Option Numeral :=
  match n.place with
  | .sign =>
    (digit? c).map fun d =>
      { n with place := if d = 0 then .zero else .whole, significand := d }
  | .zero =>
    if c = '.' then some { n with place := .point, full := false }
    else if c = 'e' ∨ c = 'E' then some { n with place := .exponentMark }
    else none
  | .whole =>
    if c = '.' then some { n with place := .point, full := false }
    else if c = 'e' ∨ c = 'E' then some { n with place := .exponentMark }
    else (digit? c).map n.pushWhole
  | .point => (digit? c).map n.pushFraction
  | .fraction =>
    if c = 'e' ∨ c = 'E' then some { n with place := .exponentMark }
    else (digit? c).map n.pushFraction
  | .exponentMark =>
    if c = '+' then some { n with place := .exponentSign }
    else if c = '-' then some { n with place := .exponentSign, exponentNegative := true }
    else (digit? c).map n.pushExponent
  | .exponentSign => (digit? c).map n.pushExponent
  | .exponent => (digit? c).map n.pushExponent

def start? (c : Char) : Option Numeral :=
  if c = '-' then some { negative := true, place := .sign }
  else push? { negative := false, place := .sign } c

/-- Whether the numeral may end here. A zero that a digit follows may not. -/
def isComplete (n : Numeral) (next : Option Char) : Bool :=
  match n.place with
  | .zero => !next.any Char.isDigit
  | .whole | .fraction | .exponent => true
  | _ => false

/-- `x * 10 ^ exponent`, in range or not. -/
def scaleUp? (x : Binary64) (exponent : Nat) : Option Binary64 :=
  if exponent ≤ 308 then
    let scaled := x * Binary64.ofDecimal false 1 exponent
    if scaled.isInfinite then none else some scaled
  else if x = 0 then some x
  else none

/-- `x / 10 ^ exponent`, in steps that divide by finite numbers. After three of them nothing is
left of a number below `2 ^ 64`. -/
def scaleDown (x : Binary64) (exponent : Nat) : Nat → Binary64
  | 0 => 0
  | steps + 1 =>
    if exponent ≤ 308 then x / Binary64.ofDecimal false 1 exponent
    else scaleDown (x / Binary64.ofDecimal false 1 308) (exponent - 308) steps

def value? (n : Numeral) : Option Number :=
  let isWhole := (n.place = .zero ∨ n.place = .whole) ∧ !n.full
  if isWhole ∧ !n.negative then some (.whole n.significand)
  else if isWhole ∧ 0 < n.significand ∧ int64Min ≤ -(n.significand : Int) then
    some (.whole (-(n.significand : Int)))
  else
    let exponent := n.scale + (if n.exponentNegative then -(n.exponent : Int) else n.exponent)
    let x := Binary64.ofNat n.significand
    let scaled? :=
      if 0 ≤ exponent then scaleUp? x exponent.toNat
      else some (scaleDown x exponent.natAbs 4)
    scaled?.map fun x => .float (if n.negative then -x else x)

end Numeral

end SessionPlayback.Json
