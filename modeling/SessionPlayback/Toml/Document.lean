import SessionPlayback.Toml.Numeral

/-!
TOML documents: lines with headers and with keys and values.
-/

namespace SessionPlayback.Toml

/-- Arrays and inline tables may be nested this deep, and keys may have this many parts. -/
def nestingLimit : Nat := 79

def isBareKeyChar (c : Char) : Bool :=
  (c.toNat < 128 && c.isAlphanum) || c = '_' || c = '-'

def simpleKey : Scanner String := fun text =>
  match shortString text with
  | some result => some result
  | none =>
    let bare := text.takeWhile isBareKeyChar
    if bare.isEmpty then none else some (String.ofList bare, text.dropWhile isBareKeyChar)

def keyParts : Nat → Scanner (List String)
  | 0, _ => none
  | bound + 1, text =>
    match simpleKey text with
    | none => none
    | some (part, rest) =>
      match skipBlanks rest with
      | '.' :: more =>
        (keyParts bound (skipBlanks more)).map fun (parts, rest) => (part :: parts, rest)
      | rest => some ([part], rest)

def key : Scanner (List String) := keyParts nestingLimit

def arrayItems (item : Scanner Value) : Nat → List Value → Scanner Value
  | 0, _, _ => none
  | bound + 1, reversed, text =>
    match skipLines text.length text with
    | ']' :: rest => some (.array reversed.reverse, rest)
    | text =>
      match item text with
      | none => none
      | some (v, rest) =>
        match skipLines rest.length rest with
        | ',' :: rest => arrayItems item bound (v :: reversed) rest
        | ']' :: rest => some (.array (v :: reversed).reverse, rest)
        | _ => none

def pair (item : Scanner Value) : Scanner (List String × Value) := fun text =>
  match key text with
  | some (path, '=' :: rest) => (item (skipBlanks rest)).map fun (v, rest) => ((path, v), rest)
  | _ => none

def inlineEntries (item : Scanner Value) : Nat → Table → Scanner Value
  | 0, _, _ => none
  | bound + 1, table, text =>
    match pair item (skipBlanks text) with
    | none => none
    | some ((path, v), rest) =>
      match table.define path v, skipBlanks rest with
      | some table, ',' :: rest => inlineEntries item bound table rest
      | some table, '\x7d' :: rest => some (table.toValue, rest)
      | _, _ => none

/-- A value with at most `depth` arrays and inline tables inside one another. -/
def value : Nat → Scanner Value
  | depth + 1, '[' :: rest => arrayItems (value depth) (rest.length + 1) [] rest
  | depth + 1, '\x7b' :: rest =>
    match skipBlanks rest with
    | '\x7d' :: rest => some (.table [], rest)
    | rest => inlineEntries (value depth) (rest.length + 1) .empty rest
  | _, text =>
    match text with
    | 't' :: 'r' :: 'u' :: 'e' :: rest => some (.boolean true, rest)
    | 'f' :: 'a' :: 'l' :: 's' :: 'e' :: rest => some (.boolean false, rest)
    | c :: _ =>
      if c = '"' ∨ c = '\'' then (string text).map fun (s, rest) => (.string s, rest)
      else numeral text
    | [] => none

/-- A document as far as it has been read: all tables, and the header in force. -/
structure Draft where
  root : Table := .empty
  header : List String := []

def Draft.define (draft : Draft) (path : List String) (v : Value) : Option Draft :=
  (draft.root.updateAt false draft.header (·.define path v)).map fun root => { draft with root }

def line (draft : Draft) : Scanner Draft := fun text =>
  match text with
  | '[' :: '[' :: rest =>
    match key (skipBlanks rest) with
    | some (path, ']' :: ']' :: rest) =>
      (draft.root.openElement path).map fun root => (⟨root, path⟩, rest)
    | _ => none
  | '[' :: rest =>
    match key (skipBlanks rest) with
    | some (path, ']' :: rest) =>
      (draft.root.openTable path).map fun root => (⟨root, path⟩, rest)
    | _ => none
  | text =>
    match pair (value nestingLimit) text with
    | some ((path, v), rest) => (draft.define path v).map fun draft => (draft, rest)
    | none => none

def lines : Nat → Draft → List Char → Option Draft
  | 0, draft, _ => some draft
  | bound + 1, draft, text =>
    match skipLines text.length text with
    | [] => some draft
    | '#' :: rest => if (rest.dropWhile isPrintable).isEmpty then some draft else none
    | text =>
      match line draft text with
      | none => none
      | some (draft, rest) => (skipLine? rest).bind (lines bound draft)

/-- The table of a document. A byte order mark at its start is passed over. -/
def read (text : String) : Option Value :=
  let chars :=
    match text.toList with
    | '\uFEFF' :: rest => rest
    | chars => chars
  (lines (chars.length + 1) {} chars).map fun draft => draft.root.toValue

end SessionPlayback.Toml
