/-!
Decimal whole numbers in text: an optional sign, at least one digit, nothing else.
-/

namespace SessionPlayback.Text

def natOfDigits? (text : List Char) : Option Nat :=
  if text.isEmpty || !text.all Char.isDigit then none
  else some (text.foldl (fun n c => n * 10 + (c.toNat - '0'.toNat)) 0)

/-- A number that is not negative and at most `most`. A plus sign is allowed, a minus sign is
not. -/
def parseNat? (most : Nat) (text : List Char) : Option Nat :=
  let digits :=
    match text with
    | '+' :: rest => rest
    | _ => text
  (natOfDigits? digits).filter (· ≤ most)

def parseInt? (least most : Int) (text : List Char) : Option Int :=
  let value : Option Int :=
    match text with
    | '-' :: rest => (natOfDigits? rest).map fun n => -(n : Int)
    | '+' :: rest => (natOfDigits? rest).map fun n => (n : Int)
    | _ => (natOfDigits? text).map fun n => (n : Int)
  value.filter fun n => least ≤ n && n ≤ most

end SessionPlayback.Text
