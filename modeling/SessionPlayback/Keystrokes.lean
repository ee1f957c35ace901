import SessionPlayback.Text.Utf8

/-!
Client keystrokes as readable text. Escape sequences that keyboards send are named; any control
character that is left, other than tab and newline, is written by its code.
-/

namespace SessionPlayback.Keystrokes

/-- Sequences with a name, in the order in which they are tried. A longer sequence stands before
its own beginning. -/
def labels : List (String × String) := [
  ("\x1b[A", "[UP]"), ("\x1b[B", "[DOWN]"), ("\x1b[C", "[RIGHT]"), ("\x1b[D", "[LEFT]"),
  ("\x1bOA", "[UP]"), ("\x1bOB", "[DOWN]"), ("\x1bOC", "[RIGHT]"), ("\x1bOD", "[LEFT]"),
  ("\x1b[H", "[HOME]"), ("\x1b[F", "[END]"), ("\x1bOH", "[HOME]"), ("\x1bOF", "[END]"),
  ("\x1b[1~", "[HOME]"), ("\x1b[2~", "[INSERT]"), ("\x1b[3~", "[DELETE]"), ("\x1b[4~", "[END]"),
  ("\x1b[5~", "[PGUP]"), ("\x1b[6~", "[PGDN]"),
  ("\x1bOP", "[F1]"), ("\x1bOQ", "[F2]"), ("\x1bOR", "[F3]"), ("\x1bOS", "[F4]"),
  ("\x1b[15~", "[F5]"), ("\x1b[17~", "[F6]"), ("\x1b[18~", "[F7]"), ("\x1b[19~", "[F8]"),
  ("\x1b[20~", "[F9]"), ("\x1b[21~", "[F10]"), ("\x1b[23~", "[F11]"), ("\x1b[24~", "[F12]"),
  ("\x1b", "[ESC]"), ("\x7f", "[BACKSPACE]")]

def charLabels : List (List Char × List Char) :=
  labels.map fun (keys, label) => (keys.toList, label.toList)

/-- The first entry of the table that the text begins with. -/
def match? (text : List Char) : Option (List Char × List Char) :=
  charLabels.find? fun (keys, _) => keys.isPrefixOf text

/-- A character that no entry begins with. -/
def plain (c : Char) : List Char :=
  if c.toNat < 0x20 ∧ c ≠ '\t' ∧ c ≠ '\n' then
    ['[', '\\'] ++ Nat.toDigits 10 c.toNat ++ [']']
  else [c]

/-- Names or spells out the keys of `text`; the first `skip` characters belong to a sequence that
has already been named. -/
def escapeFrom : Nat → List Char → List Char
  | _, [] => []
  | skip + 1, _ :: rest => escapeFrom skip rest
  | 0, c :: rest =>
    match match? (c :: rest) with
    | some (keys, label) => label ++ escapeFrom (keys.length - 1) rest
    | none => plain c ++ escapeFrom 0 rest

def escape (text : String) : String :=
  String.ofList (escapeFrom 0 text.toList)

/-- Keystroke bytes as shown in the log; what is not UTF-8 is replaced first. -/
def escapeBytes (bytes : List UInt8) : String :=
  escape (Text.ofUtf8Lossy bytes)

end SessionPlayback.Keystrokes
