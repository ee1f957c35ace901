import SessionPlayback.Binary64.Shortest
import SessionPlayback.Json.Value

/-!
JSON text without blanks. Only the double quote, the backslash and the control characters are
escaped.
-/

namespace SessionPlayback.Json

def escapedChar (c : Char) : List Char :=
  match c with
  | '"' => ['\\', '"']
  | '\\' => ['\\', '\\']
  | '\x08' => ['\\', 'b']
  | '\x0c' => ['\\', 'f']
  | '\n' => ['\\', 'n']
  | '\r' => ['\\', 'r']
  | '\t' => ['\\', 't']
  | c =>
    if c.toNat < 0x20 then
      ['\\', 'u', '0', '0', Nat.digitChar (c.toNat / 16), Nat.digitChar (c.toNat % 16)]
    else [c]

def renderString (s : String) : List Char :=
  '"' :: s.toList.flatMap escapedChar ++ ['"']

def renderNumber : Number → List Char
  | .whole n => (toString n).toList
  | .float x =>
    if x.isNaN || x.isInfinite then ['n', 'u', 'l', 'l']
    else (x.render Binary64.messageLayout).toList

mutual

def renderChars : Json → List Char
  | .null => ['n', 'u', 'l', 'l']
  | .bool b => if b then ['t', 'r', 'u', 'e'] else ['f', 'a', 'l', 's', 'e']
  | .number n => renderNumber n
  | .string s => renderString s
  | .array items => '[' :: renderItems items ++ [']']
  | .object members => '\x7b' :: renderMembers members ++ ['\x7d']

def renderItems : List Json → List Char
  | [] => []
  | [v] => renderChars v
  | v :: w :: rest => renderChars v ++ ',' :: renderItems (w :: rest)

def renderMembers : List (String × Json) → List Char
  | [] => []
  | [(key, v)] => renderString key ++ ':' :: renderChars v
  | (key, v) :: m :: rest =>
    renderString key ++ ':' :: renderChars v ++ ',' :: renderMembers (m :: rest)

end

def render (v : Json) : String := String.ofList (renderChars v)

end SessionPlayback.Json
