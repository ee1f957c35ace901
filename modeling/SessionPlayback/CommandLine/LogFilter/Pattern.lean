import SessionPlayback.Text.Alphanumeric
import SessionPlayback.Text.Blank
import SessionPlayback.Text.Numeral

/-!
Which texts are regular expressions that a field of a log filter can be matched with. Such a text
holds no closing brace and no comma, so a counted repetition is never complete. The classes of
letters, digits and blanks, folding of case and borders of words are there for ASCII only: they are
refused as long as a pattern is about Unicode text, and what may match half a character is refused
when it is not.
-/

namespace SessionPlayback.CommandLine.LogFilter.Pattern

/-- What holds from a place in a pattern to the end of its group. -/
structure Mode where
  /-- Upper and lower case are the same. -/
  folds : Bool := false
  /-- Characters are those of Unicode, not single bytes. -/
  unicode : Bool := true
  /-- Blanks and comments are passed over. -/
  spaced : Bool := false
  deriving DecidableEq, Repr

/-- A blank that a mode passes over, or a comment up to the end of its line. -/
def skipSpace (inComment : Bool) : List Char → List Char
  | [] => []
  | c :: rest =>
    if inComment then skipSpace (c ≠ '\n') rest
    else if Text.isBlank c then skipSpace false rest
    else if c = '#' then skipSpace true rest
    else c :: rest

def Mode.skip (m : Mode) (text : List Char) : List Char :=
  if m.spaced then skipSpace false text else text

inductive Atom where
  /-- A character; `isByte` if it was given as a byte. -/
  | literal (code : Nat) (isByte : Bool)
  /-- A class of letters, digits or blanks, or what is not in it. -/
  | named (negated : Bool)
  /-- A border of a word, or a place that is none. -/
  | wordBorder
  /-- The beginning or the end of the text. -/
  | textBorder
  deriving DecidableEq, Repr

def Mode.allows (m : Mode) : Atom → Bool
  | .literal code isByte => if m.unicode then !m.folds else !(isByte && 0x7F < code)
  | .named negated => !m.unicode && !negated
  | .wordBorder => !m.unicode
  | .textBorder => true

def Mode.allowsInClass (m : Mode) : Atom → Bool
  | .literal code _ => if m.unicode then !m.folds else code ≤ 0x7F
  | .named negated => !m.unicode && !negated
  | _ => false

def hexDigit? (c : Char) : Option Nat :=
  if c.isDigit then some (c.toNat - '0'.toNat)
  else if 'a' ≤ c ∧ c ≤ 'f' then some (c.toNat - 'a'.toNat + 10)
  else if 'A' ≤ c ∧ c ≤ 'F' then some (c.toNat - 'A'.toNat + 10)
  else none

def readHex (m : Mode) (value : Nat) : Nat → List Char → Option (Nat × List Char)
  | 0, text => some (value, text)
  | _ + 1, [] => none
  | digits + 1, c :: rest =>
    match hexDigit? c with
    | some d => readHex m (value * 16 + d) digits (m.skip rest)
    | none => none

def readCode (m : Mode) (digits : Nat) (text : List Char) : Option (Atom × List Char) :=
  match readHex m 0 digits (m.skip text) with
  | some (code, rest) =>
    if code < 0xD800 ∨ 0xDFFF < code ∧ code < 0x110000 then
      some (.literal code (digits = 2), rest)
    else none
  | none => none

def controlLetters : List (Char × Nat) :=
  [('a', 7), ('f', 12), ('t', 9), ('n', 10), ('r', 13), ('v', 11)]

/-- What stands behind a backslash. Every ASCII character that is no letter, digit or angle bracket
stands for itself there. -/
def readEscape (m : Mode) : List Char → Option (Atom × List Char)
  | [] => none
  | c :: rest =>
    if c = 'x' then readCode m 2 rest
    else if c = 'u' then readCode m 4 rest
    else if c = 'U' then readCode m 8 rest
    else if ['d', 's', 'w'].contains c then some (.named false, rest)
    else if ['D', 'S', 'W'].contains c then some (.named true, rest)
    else if ['b', 'B', '<', '>'].contains c then some (.wordBorder, rest)
    else if ['A', 'z'].contains c then some (.textBorder, rest)
    else
      match controlLetters.lookup c with
      | some code => some (.literal code false, rest)
      | none =>
        if c.toNat < 128 ∧ !c.isAlphanum then some (.literal c.toNat false, rest) else none

def readClassAtom (m : Mode) : List Char → Option (Atom × List Char)
  | [] => none
  | '\\' :: rest => readEscape m rest
  | c :: rest => some (.literal c.toNat false, rest)

def Mode.allowsRange (m : Mode) : Atom → Atom → Bool
  | .literal first isByte, .literal last isByte' =>
    first ≤ last && m.allowsInClass (.literal first isByte) &&
      m.allowsInClass (.literal last isByte')
  | _, _ => false

def readRangeEnd (m : Mode) (first : Atom) (text : List Char) : Option (List Char) :=
  let single := if m.allowsInClass first then some (m.skip text) else none
  match m.skip text with
  | '-' :: rest =>
    match m.skip rest with
    | [] => none
    | ']' :: _ => single
    | '-' :: _ => single
    | next =>
      match readClassAtom m next with
      | some (last, rest) => if m.allowsRange first last then some rest else none
      | none => none
  | _ => single

def className : List String :=
  ["alnum", "alpha", "ascii", "blank", "cntrl", "digit", "graph", "lower", "print", "punct",
    "space", "upper", "word", "xdigit"]

/-- A class by its name between colons, behind its opening bracket: whether it is negated. -/
def readClassName? (text : List Char) : Option (Bool × List Char) :=
  match text with
  | ':' :: rest =>
    let (negated, rest) :=
      match rest with
      | '^' :: rest => (true, rest)
      | rest => (false, rest)
    let name := String.ofList (rest.takeWhile (· ≠ ':'))
    match rest.dropWhile (· ≠ ':') with
    | ':' :: ']' :: rest => if className.contains name then some (negated, rest) else none
    | _ => none
  | _ => none

/-- Hyphens at the beginning of brackets are plain characters. -/
def dropHyphens (m : Mode) : Nat → List Char → List Char
  | bound + 1, '-' :: rest => dropHyphens m bound (m.skip rest)
  | _, text => text

/-- Behind an opening bracket: its negation, hyphens, and a closing bracket that is a plain
character because it comes first. -/
def openClass (m : Mode) (text : List Char) : Option (List Char) :=
  let afterBracket := m.skip text
  let inner :=
    match afterBracket with
    | '^' :: rest => if m.unicode then some (m.skip rest) else none
    | text => some text
  inner.bind fun text =>
    let afterHyphens := dropHyphens m text.length text
    let rest :=
      match text, afterHyphens with
      | '-' :: _, _ => afterHyphens
      | _, ']' :: rest => m.skip rest
      | _, _ => afterHyphens
    if rest.length < text.length ∧ !m.allowsInClass (.literal '-'.toNat false) then none
    else some rest

/-- Brackets up to the closing one, `depth` more being open around them. -/
def readClass (m : Mode) : Nat → Nat → List Char → Option (List Char)
  | 0, _, _ => none
  | bound + 1, depth, text =>
    match m.skip text with
    | [] => none
    | '[' :: rest =>
      match readClassName? rest with
      | some (negated, rest) =>
        if m.unicode && m.folds || !m.unicode && negated then none
        else readClass m bound depth rest
      | none => (openClass m rest).bind (readClass m bound (depth + 1))
    | ']' :: rest =>
      match depth with
      | 0 => some rest
      | depth + 1 => readClass m bound depth rest
    | '&' :: '&' :: rest => readClass m bound depth rest
    | '-' :: '-' :: rest => readClass m bound depth rest
    | '~' :: '~' :: rest => readClass m bound depth rest
    | text =>
      match readClassAtom m text with
      | some (first, rest) => (readRangeEnd m first rest).bind (readClass m bound depth)
      | none => none

/-- The letters of a mode, and the hyphen that turns letters off. -/
def modeLetters : List Char := ['-', 'i', 'm', 's', 'U', 'u', 'R', 'x']

/-- Letters of a group that change the mode, up to a colon or the closing parenthesis. No letter
stands twice, and a hyphen, which turns the letters behind it off, is not the last. -/
def readLetters (seen : List Char) : List Char → Option (List Char × List Char)
  | [] => none
  | c :: rest =>
    if c = ':' ∨ c = ')' then
      if seen.head? = some '-' then none else some (seen.reverse, c :: rest)
    else if seen.contains c ∨ c ∉ modeLetters then none
    else readLetters (c :: seen) rest

def Mode.change (m : Mode) (letters : List Char) : Mode :=
  let on := letters.takeWhile (· ≠ '-')
  let off := letters.dropWhile (· ≠ '-')
  { folds := on.contains 'i' || (m.folds && !off.contains 'i')
    unicode := on.contains 'u' || (m.unicode && !off.contains 'u')
    spaced := on.contains 'x' || (m.spaced && !off.contains 'x') }

structure Progress where
  mode : Mode := {}
  /-- Whether something stands right before that can be repeated. -/
  repeatable : Bool := false
  /-- The modes around the groups that are open. -/
  outer : List Mode := []
  names : List (List Char) := []
  deriving DecidableEq, Repr

def Progress.enter (p : Progress) (mode : Mode) : Progress :=
  { p with mode, repeatable := false, outer := p.mode :: p.outer }

def groupName? (text : List Char) : Option (List Char × List Char) :=
  let name := text.takeWhile (· ≠ '>')
  match name, text.dropWhile (· ≠ '>') with
  | first :: more, _ :: rest =>
    if (first = '_' || Text.isAlphabetic first) &&
        more.all fun c => ['_', '.', '[', ']'].contains c || Text.isAlphanumeric c then
      some (name, rest)
    else none
  | _, _ => none

/-- Begins a group with a name that no other group has. -/
def Progress.enterNamed (p : Progress) (text : List Char) : Option (Progress × List Char) :=
  match groupName? text with
  | some (name, rest) =>
    if p.names.contains name then none
    else some ({ p.enter p.mode with names := name :: p.names }, rest)
  | none => none

/-- Behind an opening parenthesis. A look around is not to be had. -/
def Progress.openGroup (p : Progress) (text : List Char) : Option (Progress × List Char) :=
  match p.mode.skip text with
  | '?' :: rest =>
    match rest with
    | 'P' :: '<' :: rest => p.enterNamed rest
    | '<' :: '=' :: _ => none
    | '<' :: '!' :: _ => none
    | '<' :: rest => p.enterNamed rest
    | rest =>
      match readLetters [] rest with
      | some (letters, ')' :: rest) =>
        if letters.isEmpty then none
        else some ({ p with mode := p.mode.change letters, repeatable := false }, rest)
      | some (letters, _ :: rest) => some (p.enter (p.mode.change letters), rest)
      | _ => none
  | rest => some (p.enter p.mode, rest)

def Progress.after (p : Progress) (rest : List Char) : Option (Progress × List Char) :=
  some ({ p with repeatable := true }, rest)

def Progress.step (p : Progress) (c : Char) (rest : List Char) : Option (Progress × List Char) :=
  match c with
  | '(' => p.openGroup rest
  | ')' =>
    match p.outer with
    | mode :: outer => { p with mode, outer }.after rest
    | [] => none
  | '|' => some ({ p with repeatable := false }, rest)
  | '[' =>
    ((openClass p.mode rest).bind (readClass p.mode (rest.length + 1) 0)).bind p.after
  | '\x7b' => none
  | '\\' =>
    match readEscape p.mode rest with
    | some (atom, rest) => if p.mode.allows atom then p.after rest else none
    | none => none
  | '.' => if p.mode.unicode then p.after rest else none
  | c =>
    if ['?', '*', '+'].contains c then
      if p.repeatable then
        p.after (match rest with
          | '?' :: rest => rest
          | rest => rest)
      else none
    else if ['^', '$'].contains c || p.mode.allows (.literal c.toNat false) then p.after rest
    else none

/-- Reads a pattern to its end; each step takes a character, so the bound is never reached. -/
def accepts : Nat → Progress → List Char → Bool
  | 0, _, _ => false
  | bound + 1, p, text =>
    match p.mode.skip text with
    | [] => p.outer.isEmpty
    | c :: rest =>
      match p.step c rest with
      | some (p, rest) => accepts bound p rest
      | none => false

def isValid (text : List Char) : Bool := accepts (text.length + 1) {} text

end SessionPlayback.CommandLine.LogFilter.Pattern
