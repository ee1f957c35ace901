import SessionPlayback.Binary64

/-!
Decimal text read as a binary64 number. The value of the text is exact, so reading rounds once.
-/

namespace SessionPlayback.Binary64

/-- The number nearest to `digits * 10 ^ exponent`. Exponents far outside the range of finite
numbers are settled without computing the power. -/
def ofDecimal (negative : Bool) (digits : Nat) (exponent : Int) : Binary64 :=
  if digits = 0 then zero negative
  else if 400 < exponent then .infinite negative
  else if 0 ≤ exponent then ofRatio negative (digits * Nat.pow 10 exponent.toNat) 1
  else if digits.log2 + 1080 < 3 * exponent.natAbs then zero negative
  else ofRatio negative digits (Nat.pow 10 exponent.natAbs)

def digitsValue (digits : List Char) : Nat :=
  digits.foldl (fun n c => n * 10 + (c.toNat - '0'.toNat)) 0

def splitSign : List Char → Bool × List Char
  | '-' :: rest => (true, rest)
  | '+' :: rest => (false, rest)
  | text => (false, text)

def parseExponent? (text : List Char) : Option Int :=
  let (negative, digits) := splitSign text
  if digits.isEmpty || !digits.all Char.isDigit then none
  else
    let value := min (digitsValue digits) 0x10000
    some (if negative then -(value : Int) else value)

/-- Digits with an optional point and exponent; a point needs a digit on one side of it. -/
def parseUnsigned? (negative : Bool) (text : List Char) : Option Binary64 :=
  let whole := text.takeWhile Char.isDigit
  let afterWhole := text.dropWhile Char.isDigit
  let (fraction, rest) :=
    match afterWhole with
    | '.' :: more => (more.takeWhile Char.isDigit, more.dropWhile Char.isDigit)
    | more => ([], more)
  if whole.isEmpty && fraction.isEmpty then none
  else
    let exponent? :=
      match rest with
      | [] => some 0
      | c :: more => if c = 'e' || c = 'E' then parseExponent? more else none
    exponent?.map fun exponent =>
      ofDecimal negative (digitsValue (whole ++ fraction)) (exponent - fraction.length)

/-- A number as users write it: a sign, then a decimal numeral, `inf`, `infinity` or `nan` in any
case. -/
def parse? (text : List Char) : Option Binary64 :=
  let (negative, unsigned) := splitSign text
  let word := unsigned.map Char.toLower
  if word = ['i', 'n', 'f'] || word = ['i', 'n', 'f', 'i', 'n', 'i', 't', 'y'] then
    some (.infinite negative)
  else if word = ['n', 'a', 'n'] then some .nan
  else parseUnsigned? negative unsigned

end SessionPlayback.Binary64
