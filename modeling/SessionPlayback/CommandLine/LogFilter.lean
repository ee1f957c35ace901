import SessionPlayback.Binary64.Decimal
import SessionPlayback.Bounds
import SessionPlayback.CommandLine.LogFilter.Pattern

/-!
Filters for the log, separated by commas. A filter names a level, or a target, or a span in brackets
with fields in braces, and may end in an equals sign and a level. Blanks around a filter are no part
of it, but its parts are cut out by their distance from its beginning: blanks in front of it shift
what is cut, and a cut within a character is a failure of its own.
-/

namespace SessionPlayback.CommandLine.LogFilter

inductive Fault where
  | malformed
  /-- A part would end within a character. -/
  | brokenCharacter
  deriving DecidableEq, Repr

def levelNames : List String := ["error", "warn", "info", "debug", "trace", "off"]

/-- The name of a level in any case, or its number. -/
def isLevel (text : List Char) : Bool :=
  (Text.parseNat? 5 text).isSome || levelNames.contains (String.ofList (text.map Char.toLower))

/-- A level can be left out behind its equals sign. -/
def isLevelPart (text : List Char) : Bool := text.isEmpty || isLevel text

def beginsTarget (c : Char) : Bool :=
  c = '-' || c = ':' || c = '_' || Text.isAlphanumeric c

/-- A field: a name, and behind an equals sign a number or a pattern. -/
def isField (text : List Char) : Bool :=
  match text.dropWhile (· ≠ '=') with
  | [] => !text.isEmpty
  | _ :: behind =>
    let value := behind.takeWhile (· ≠ '=')
    (Binary64.parse? value).isSome || Pattern.isValid value

/-- What stands behind so many bytes; `none` if that is within a character. -/
def dropBytes? : Nat → List Char → Option (List Char)
  | 0, text => some text
  | _ + 1, [] => none
  | count + 1, c :: rest =>
    if c.utf8Size ≤ count + 1 then dropBytes? (count + 1 - c.utf8Size) rest else none

/-- So many bytes from the front; `none` if the cut is within a character. -/
def takeBytes? : Nat → List Char → Option (List Char)
  | 0, _ => some []
  | _ + 1, [] => none
  | count + 1, c :: rest =>
    if c.utf8Size ≤ count + 1 then (takeBytes? (count + 1 - c.utf8Size) rest).map (c :: ·)
    else none

def part? (text : List Char) (first last : Nat) : Option (List Char) :=
  (dropBytes? first text).bind (takeBytes? (last - first))

/-- Where the reading of a filter has got to. Parts that are not complete have the distance at which
they begin. -/
inductive Stage where
  | start
  | target
  | span (first : Nat)
  | field (first : Nat)
  /-- Behind the fields of a span. -/
  | fields
  /-- Behind a span. -/
  | scope
  | level (first : Nat)
  deriving DecidableEq, Repr

def Stage.behind (next : Stage) (part : Option (List Char)) (p : List Char → Bool) :
    Except Fault Stage :=
  match part with
  | none => .error .brokenCharacter
  | some text => if p text then .ok next else .error .malformed

/-- One character of a filter at a distance from its beginning; `text` is the filter with the blanks
around it. -/
def Stage.step (text : List Char) (distance : Nat) (c : Char) : Stage → Except Fault Stage
  | .start =>
    if c = '[' then .ok (.span (distance + 1))
    else if beginsTarget c then .ok .target
    else .error .malformed
  | .target =>
    if c = '=' then behind (.level (distance + 1)) (part? text 0 distance) fun _ => true
    else if c = '[' then behind (.span (distance + 1)) (part? text 0 distance) fun _ => true
    else .ok .target
  | .span first =>
    if c = ']' then behind .scope (part? text first distance) fun _ => true
    else if c = '\x7b' then
      behind (.field (distance + 1)) (part? text first distance) fun _ => true
    else .ok (.span first)
  | .field first =>
    if c = '\x7d' then behind .fields (part? text first distance) isField
    else .ok (.field first)
  | .fields => if c = ']' then .ok .scope else .error .malformed
  | .scope => if c = '=' then .ok (.level (distance + 1)) else .error .malformed
  | .level first => .ok (.level first)

def Stage.finish (text : List Char) : Stage → Except Fault Unit
  | .target => .ok ()
  | .scope => .ok ()
  | .level first =>
    match dropBytes? first text with
    | none => .error .brokenCharacter
    | some behind => if isLevelPart behind then .ok () else .error .malformed
  | _ => .error .malformed

def readFrom (text : List Char) (distance : Nat) (stage : Stage) :
    List Char → Except Fault Unit
  | [] => stage.finish text
  | c :: rest =>
    match stage.step text distance c with
    | .ok stage => readFrom text (distance + c.utf8Size) stage rest
    | .error fault => .error fault

def checkDirective (text : List Char) : Except Fault Unit :=
  readFrom text 0 .start (Text.trim text)

/-- Checks a list of filters from its beginning. Empty ones do not count. -/
def check (text : String) : Except Fault Unit :=
  ((text.splitOn ",").filter fun directive => !directive.isEmpty).forM fun directive =>
    checkDirective directive.toList

end SessionPlayback.CommandLine.LogFilter
