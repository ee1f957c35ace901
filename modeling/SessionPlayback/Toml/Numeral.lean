import SessionPlayback.Binary64.Decimal
import SessionPlayback.Bounds
import SessionPlayback.Toml.Text
import SessionPlayback.Toml.Value

/-!
TOML numbers, dates and times. A number is the longest run of characters that numbers are made of,
and must be a numeral as a whole.
-/

namespace SessionPlayback.Toml

/-- The digits of a run in which single underscores may stand between digits. -/
def joinedDigits? (isDigit : Char → Bool) : List Char → Option (List Char)
  | [] => none
  | [c] => if isDigit c then some [c] else none
  | c :: '_' :: rest =>
    if isDigit c then (joinedDigits? isDigit rest).map (c :: ·) else none
  | c :: rest => if isDigit c then (joinedDigits? isDigit rest).map (c :: ·) else none

/-- Digits without a leading zero, zero itself excepted. -/
def wholeDigits? (text : List Char) : Option (List Char) :=
  match text with
  | '0' :: _ :: _ => none
  | text => joinedDigits? Char.isDigit text

def fitting? (n : Int) : Option Value :=
  if int64Min ≤ n ∧ n ≤ int64Max then some (.integer n) else none

/-- A whole number to a base, given by the digits after its two-character mark. -/
def based? (base : Nat) (isDigit : Char → Bool) (digits : List Char) : Option Value :=
  (joinedDigits? isDigit digits).bind fun digits =>
    fitting? (digits.foldl (fun n c => n * base + (hexDigit? c).getD 0) 0 : Nat)

/-- A decimal number behind its sign. Numbers that round to positive infinity are refused. -/
def decimal? (negative : Bool) (text : List Char) : Option Value := do
  let isPart (c : Char) := c.isDigit || c = '_'
  let whole ← wholeDigits? (text.takeWhile isPart)
  let afterWhole := text.dropWhile isPart
  if afterWhole.isEmpty then
    let n : Int := Binary64.digitsValue whole
    fitting? (if negative then -n else n)
  else
    let (fraction, rest) ←
      match afterWhole with
      | '.' :: more =>
        (joinedDigits? Char.isDigit (more.takeWhile isPart)).map (·, more.dropWhile isPart)
      | more => some ([], more)
    let exponent ←
      match rest with
      | [] => some 0
      | c :: more =>
        if c = 'e' ∨ c = 'E' then
          let (minus, digits) := Binary64.splitSign more
          (joinedDigits? Char.isDigit digits).map fun digits =>
            let n : Int := Binary64.digitsValue digits
            if minus then -n else n
        else none
    let x := Binary64.ofDecimal negative (Binary64.digitsValue (whole ++ fraction))
      (exponent - fraction.length)
    if x = .infinite false then none else some (.float x)

def number? (run : List Char) : Option Value :=
  match run with
  | '0' :: 'x' :: digits => based? 16 (fun c => (hexDigit? c).isSome) digits
  | '0' :: 'o' :: digits => based? 8 (fun c => '0' ≤ c && c ≤ '7') digits
  | '0' :: 'b' :: digits => based? 2 (fun c => c = '0' || c = '1') digits
  | run =>
    match Binary64.splitSign run with
    | (negative, ['i', 'n', 'f']) => some (.float (.infinite negative))
    | (_, ['n', 'a', 'n']) => some (.float .nan)
    | (negative, text) => decimal? negative text

def fixedDigits (count : Nat) : Scanner Nat := fun text =>
  let digits := text.take count
  if digits.length = count ∧ digits.all Char.isDigit then
    some (Binary64.digitsValue digits, text.drop count)
  else none

def expect (c : Char) : List Char → Option (List Char)
  | d :: rest => if c = d then some rest else none
  | [] => none

def isLeapYear (year : Nat) : Bool :=
  (year % 4 = 0 && year % 100 ≠ 0) || year % 400 = 0

def daysInMonth (year month : Nat) : Nat :=
  if month = 2 then (if isLeapYear year then 29 else 28)
  else if month = 4 ∨ month = 6 ∨ month = 9 ∨ month = 11 then 30
  else 31

def date? (text : List Char) : Option (List Char) := do
  let (year, text) ← fixedDigits 4 text
  let text ← expect '-' text
  let (month, text) ← fixedDigits 2 text
  let text ← expect '-' text
  let (day, text) ← fixedDigits 2 text
  if 1 ≤ month ∧ month ≤ 12 ∧ 1 ≤ day ∧ day ≤ daysInMonth year month then some text else none

def time? (text : List Char) : Option (List Char) := do
  let (hour, text) ← fixedDigits 2 text
  let text ← expect ':' text
  let (minute, text) ← fixedDigits 2 text
  let text ← expect ':' text
  let (second, text) ← fixedDigits 2 text
  if hour ≤ 23 ∧ minute ≤ 59 ∧ second ≤ 60 then
    match text with
    | '.' :: more =>
      if (more.takeWhile Char.isDigit).isEmpty then none else some (more.dropWhile Char.isDigit)
    | text => some text
  else none

/-- The text behind the distance to universal time, which may be missing. -/
def skipZone? (text : List Char) : Option (List Char) :=
  match text with
  | 'Z' :: rest => some rest
  | 'z' :: rest => some rest
  | c :: rest =>
    if c = '+' ∨ c = '-' then do
      let (hour, rest) ← fixedDigits 2 rest
      let rest ← expect ':' rest
      let (minute, rest) ← fixedDigits 2 rest
      if hour ≤ 23 ∧ minute ≤ 59 then some rest else none
    else some text
  | [] => some []

def skipTime (text : List Char) : Option (List Char) :=
  match text with
  | c :: rest =>
    if c = 'T' ∨ c = 't' ∨ c = ' ' then
      match time? rest with
      | some rest => skipZone? rest
      | none => some text
    else some text
  | [] => some []

def startsMoment (text : List Char) : Bool :=
  match text with
  | a :: b :: c :: rest =>
    a.isDigit && b.isDigit &&
      (c = ':' ||
        match rest with
        | d :: e :: _ => c.isDigit && d.isDigit && e = '-'
        | _ => false)
  | _ => false

def moment : Scanner Value := fun text =>
  let rest? :=
    match date? text with
    | some rest => skipTime rest
    | none => time? text
  rest?.map fun rest => (.moment, rest)

def isNumberChar (c : Char) : Bool := c.isAlphanum || c = '_' || c = '+' || c = '-' || c = '.'

def numeral : Scanner Value := fun text =>
  if startsMoment text then moment text
  else
    (number? (text.takeWhile isNumberChar)).map fun v => (v, text.dropWhile isNumberChar)

end SessionPlayback.Toml
