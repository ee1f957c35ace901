/-!
Binary64 floating-point numbers, kept as a sign and a magnitude. A magnitude counts the finite
values between zero and the number, so that order, the next larger value and the carry of a
rounding are all arithmetic on naturals. Every finite value is a whole number of `2 ^ -1074`, and
each operation computes that number exactly before it rounds once, to nearest with ties to even.
-/

namespace SessionPlayback

/-- Magnitudes of finite numbers are below the one that stands for infinity. -/
def Binary64.infinityMagnitude : Nat := 0x7FF0000000000000

/-- A binary64 number. All not-a-number patterns are one value. -/
inductive Binary64 where
  | nan
  | infinite (negative : Bool)
  | finite (negative : Bool) (magnitude : Fin Binary64.infinityMagnitude)
  deriving DecidableEq, Repr

namespace Binary64

/-- The leading bit of the significand of a normal number. Magnitudes below it are those of
subnormal numbers, and it is the distance from one power of two to the next. -/
def leadingBit : Nat := 0x10000000000000

/-- The value of a magnitude in units of `2 ^ -1074`. -/
def units (magnitude : Nat) : Nat :=
  if magnitude < leadingBit then magnitude
  else (leadingBit + magnitude % leadingBit) <<< (magnitude / leadingBit - 1)

/-- Quotient to the nearest natural, an exact half going to the even neighbour. -/
def divNearestEven (num den : Nat) : Nat :=
  let quotient := num / den
  let remainder := num % den
  if den < 2 * remainder then quotient + 1
  else if 2 * remainder = den then quotient + quotient % 2
  else quotient

/-- The magnitude nearest to `num / den` units, where infinity has not been cut off yet. A carry
out of the 53 significant bits lands on the next exponent by itself. -/
def nearestMagnitude (num den : Nat) : Nat :=
  let shift := (num / den).log2 - 52
  shift * leadingBit + divNearestEven num (den <<< shift)

def ofMagnitude (negative : Bool) (magnitude : Nat) : Binary64 :=
  if h : magnitude < infinityMagnitude then .finite negative ⟨magnitude, h⟩ else .infinite negative

/-- The number nearest to `num / den` units of `2 ^ -1074`. -/
def ofUnits (negative : Bool) (num den : Nat) : Binary64 :=
  ofMagnitude negative (nearestMagnitude num den)

def ofRatio (negative : Bool) (num den : Nat) : Binary64 :=
  ofUnits negative (num <<< 1074) den

def ofNat (n : Nat) : Binary64 := ofRatio false n 1

def ofInt (n : Int) : Binary64 := ofRatio (decide (n < 0)) n.natAbs 1

instance (n : Nat) : OfNat Binary64 n := ⟨ofNat n⟩

def zero (negative : Bool) : Binary64 := .finite negative ⟨0, by decide⟩

instance : Inhabited Binary64 := ⟨zero false⟩

def isNaN : Binary64 → Bool
  | .nan => true
  | _ => false

def isInfinite : Binary64 → Bool
  | .infinite _ => true
  | _ => false

def neg : Binary64 → Binary64
  | .nan => .nan
  | .infinite s => .infinite !s
  | .finite s m => .finite (!s) m

/-- A finite number with its sign, in units of `2 ^ -1074`. -/
def signedUnits (negative : Bool) (magnitude : Nat) : Int :=
  if negative then -(units magnitude : Int) else units magnitude

/-- A sum of zero is negative only if both terms are. -/
def add : Binary64 → Binary64 → Binary64
  | .nan, _ => .nan
  | _, .nan => .nan
  | .infinite s, .infinite t => if s = t then .infinite s else .nan
  | .infinite s, .finite _ _ => .infinite s
  | .finite _ _, .infinite t => .infinite t
  | .finite s m, .finite t n =>
    let sum := signedUnits s m + signedUnits t n
    if sum = 0 then zero (s && t) else ofUnits (decide (sum < 0)) sum.natAbs 1

def sub (x y : Binary64) : Binary64 := add x (neg y)

def mul : Binary64 → Binary64 → Binary64
  | .nan, _ => .nan
  | _, .nan => .nan
  | .infinite s, .infinite t => .infinite (s != t)
  | .infinite s, .finite t n => if n.val = 0 then .nan else .infinite (s != t)
  | .finite s m, .infinite t => if m.val = 0 then .nan else .infinite (s != t)
  | .finite s m, .finite t n => ofUnits (s != t) (units m * units n) (1 <<< 1074)

def div : Binary64 → Binary64 → Binary64
  | .nan, _ => .nan
  | _, .nan => .nan
  | .infinite _, .infinite _ => .nan
  | .infinite s, .finite t _ => .infinite (s != t)
  | .finite s _, .infinite t => zero (s != t)
  | .finite s m, .finite t n =>
    if n.val = 0 then (if m.val = 0 then .nan else .infinite (s != t))
    else ofUnits (s != t) (units m <<< 1074) (units n)

instance : Neg Binary64 := ⟨neg⟩
instance : Add Binary64 := ⟨add⟩
instance : Sub Binary64 := ⟨sub⟩
instance : Mul Binary64 := ⟨mul⟩
instance : Div Binary64 := ⟨div⟩

/-- The place of a number in the order of all numbers; both zeros have the same place, and
not-a-number has none. -/
def rank : Binary64 → Option Int
  | .nan => none
  | .infinite s => some (if s then -(infinityMagnitude : Int) else infinityMagnitude)
  | .finite s m => some (if s then -(m.val : Int) else m.val)

/-- Comparison is false as soon as one side is not a number. -/
def le (x y : Binary64) : Bool :=
  match x.rank, y.rank with
  | some a, some b => decide (a ≤ b)
  | _, _ => false

def lt (x y : Binary64) : Bool :=
  match x.rank, y.rank with
  | some a, some b => decide (a < b)
  | _, _ => false

/-- The larger of two numbers; one that is not a number loses, and of two equal ones the second
is taken. -/
def max (x y : Binary64) : Binary64 :=
  if x.isNaN then y else if y.isNaN then x else if x.le y then y else x

/-- The nearest number within `low` and `high`; `none` unless `low ≤ high`. -/
def clamp? (x low high : Binary64) : Option Binary64 :=
  if low.le high then
    let raised := if x.lt low then low else x
    some (if high.lt raised then high else raised)
  else none

/-- The nearest whole number, a half going away from zero. -/
def round : Binary64 → Binary64
  | .finite s m => ofRatio s ((2 * units m + 1 <<< 1074) >>> 1075) 1
  | x => x

/-- The whole part, with everything negative or not a number going to zero and everything above
`bound` going to `bound`. -/
def toNatBounded (bound : Nat) : Binary64 → Nat
  | .nan => 0
  | .infinite s => if s then 0 else bound
  | .finite s m => if s then 0 else min (units m >>> 1074) bound

def signBit : Nat := 0x8000000000000000

/-- The standard 64-bit pattern, sign first; not-a-number has the quiet pattern. -/
def toBits : Binary64 → Nat
  | .nan => infinityMagnitude + leadingBit / 2
  | .infinite s => (if s then signBit else 0) + infinityMagnitude
  | .finite s m => (if s then signBit else 0) + m

end Binary64

end SessionPlayback
