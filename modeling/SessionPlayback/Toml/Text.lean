/-!
TOML strings and comments: which characters they may hold and where they end.
-/

namespace SessionPlayback.Toml

abbrev Scanner (α : Type) := List Char → Option (α × List Char)

def isBlank (c : Char) : Bool := c = ' ' || c = '\t'

def skipBlanks (text : List Char) : List Char := text.dropWhile isBlank

/-- A tab or a character that is no control character. -/
def isPrintable (c : Char) : Bool := c = '\t' || (0x20 ≤ c.toNat && c.toNat ≠ 0x7F)

def isBasic (c : Char) : Bool := isPrintable c && c ≠ '"' && c ≠ '\\'

def isLiteral (c : Char) : Bool := isPrintable c && c ≠ '\''

def shortEscape? : Char → Option Char
  | 'b' => some '\x08'
  | 't' => some '\t'
  | 'n' => some '\n'
  | 'f' => some '\x0c'
  | 'r' => some '\r'
  | '"' => some '"'
  | '\\' => some '\\'
  | _ => none

def hexDigit? (c : Char) : Option Nat :=
  if c.isDigit then some (c.toNat - '0'.toNat)
  else if 'a' ≤ c ∧ c ≤ 'f' then some (c.toNat - 'a'.toNat + 10)
  else if 'A' ≤ c ∧ c ≤ 'F' then some (c.toNat - 'A'.toNat + 10)
  else none

/-- The character with a hexadecimal code; surrogates are none. -/
def coded? (digits : List Char) : Option Char :=
  let code? := digits.foldl
    (fun code? c => code?.bind fun code => (hexDigit? c).map (code * 16 + ·)) (some 0)
  code?.bind fun code => if code.isValidChar then some (Char.ofNat code) else none

def basicRest (reversed : List Char) : Scanner String
  | [] => none
  | '"' :: rest => some (String.ofList reversed.reverse, rest)
  | '\\' :: 'u' :: a :: b :: c :: d :: rest =>
    match coded? [a, b, c, d] with
    | some char => basicRest (char :: reversed) rest
    | none => none
  | '\\' :: 'U' :: a :: b :: c :: d :: e :: f :: g :: h :: rest =>
    match coded? [a, b, c, d, e, f, g, h] with
    | some char => basicRest (char :: reversed) rest
    | none => none
  | '\\' :: c :: rest =>
    match shortEscape? c with
    | some char => basicRest (char :: reversed) rest
    | none => none
  | c :: rest => if isBasic c then basicRest (c :: reversed) rest else none

def literalRest (text : List Char) : Option (String × List Char) :=
  match text.dropWhile isLiteral with
  | '\'' :: rest => some (String.ofList (text.takeWhile isLiteral), rest)
  | _ => none

/-- Up to two quotes right behind the closing three belong to the string. -/
def closeLong (quote : Char) (reversed : List Char) (text : List Char) : String × List Char :=
  match text with
  | a :: b :: rest =>
    if a = quote then
      if b = quote then (String.ofList (quote :: quote :: reversed).reverse, rest)
      else (String.ofList (quote :: reversed).reverse, b :: rest)
    else (String.ofList reversed.reverse, text)
  | [a] =>
    if a = quote then (String.ofList (quote :: reversed).reverse, [])
    else (String.ofList reversed.reverse, text)
  | [] => (String.ofList reversed.reverse, [])

inductive LongPlace where
  | text
  /-- The end of the line after a backslash. -/
  | lineEnd
  /-- The first character that is no blank after such a line end. -/
  | skipping
  deriving DecidableEq

def longBasicRest (place : LongPlace) (reversed : List Char) : Scanner String
  | [] => none
  | '\r' :: '\n' :: rest =>
    match place with
    | .text => longBasicRest .text ('\n' :: reversed) rest
    | _ => longBasicRest .skipping reversed rest
  | '\n' :: rest =>
    match place with
    | .text => longBasicRest .text ('\n' :: reversed) rest
    | _ => longBasicRest .skipping reversed rest
  | ' ' :: rest =>
    match place with
    | .text => longBasicRest .text (' ' :: reversed) rest
    | place => longBasicRest place reversed rest
  | '\t' :: rest =>
    match place with
    | .text => longBasicRest .text ('\t' :: reversed) rest
    | place => longBasicRest place reversed rest
  | '"' :: '"' :: '"' :: rest =>
    if place = .lineEnd then none else some (closeLong '"' reversed rest)
  | '\\' :: 'u' :: a :: b :: c :: d :: rest =>
    if place = .lineEnd then none
    else
      match coded? [a, b, c, d] with
      | some char => longBasicRest .text (char :: reversed) rest
      | none => none
  | '\\' :: 'U' :: a :: b :: c :: d :: e :: f :: g :: h :: rest =>
    if place = .lineEnd then none
    else
      match coded? [a, b, c, d, e, f, g, h] with
      | some char => longBasicRest .text (char :: reversed) rest
      | none => none
  | '\\' :: c :: rest =>
    if place = .lineEnd then none
    else
      match shortEscape? c with
      | some char => longBasicRest .text (char :: reversed) rest
      | none =>
        if isBlank c then longBasicRest .lineEnd reversed rest
        else if c = '\n' then longBasicRest .skipping reversed rest
        else
          match c, rest with
          | '\r', '\n' :: rest => longBasicRest .skipping reversed rest
          | _, _ => none
  | c :: rest =>
    if place ≠ .lineEnd ∧ (isBasic c ∨ c = '"') then longBasicRest .text (c :: reversed) rest
    else none

def longLiteralRest (reversed : List Char) : Scanner String
  | [] => none
  | '\r' :: '\n' :: rest => longLiteralRest ('\n' :: reversed) rest
  | '\n' :: rest => longLiteralRest ('\n' :: reversed) rest
  | '\'' :: '\'' :: '\'' :: rest => some (closeLong '\'' reversed rest)
  | c :: rest =>
    if isPrintable c then longLiteralRest (c :: reversed) rest else none

/-- A line end right behind the opening quotes is not part of the string. -/
def dropFirstLineEnd : List Char → List Char
  | '\r' :: '\n' :: rest => rest
  | '\n' :: rest => rest
  | text => text

def shortString : Scanner String
  | '"' :: rest => basicRest [] rest
  | '\'' :: rest => literalRest rest
  | _ => none

def string : Scanner String
  | '"' :: '"' :: '"' :: rest => longBasicRest .text [] (dropFirstLineEnd rest)
  | '\'' :: '\'' :: '\'' :: rest => longLiteralRest [] (dropFirstLineEnd rest)
  | text => shortString text

def lineEnd? : List Char → Option (List Char)
  | '\n' :: rest => some rest
  | '\r' :: '\n' :: rest => some rest
  | _ => none

def skipComment (text : List Char) : List Char :=
  match text with
  | '#' :: rest => rest.dropWhile isPrintable
  | text => text

/-- The text behind the rest of a line that holds at most a comment. -/
def skipLine? (text : List Char) : Option (List Char) :=
  match skipComment (skipBlanks text) with
  | [] => some []
  | rest => lineEnd? rest

/-- The text behind blanks, comments and line ends; each round takes a line, so `bound` need only
reach the length of the text. -/
def skipLines : Nat → List Char → List Char
  | 0, text => text
  | bound + 1, text =>
    let rest := skipBlanks text
    match lineEnd? (skipComment rest) with
    | some rest => skipLines bound rest
    | none => rest

end SessionPlayback.Toml
