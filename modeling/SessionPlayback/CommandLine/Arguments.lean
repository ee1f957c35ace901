/-!
Arguments in the long style: options begin with two hyphens and carry a value behind an equals sign
or in the next argument, and after two bare hyphens nothing is an option any more.
-/

namespace SessionPlayback.CommandLine

/-- The options of a command by name, each with whether it carries a value. -/
abbrev OptionNames := List (String × Bool)

/-- Options given, with their values. An option without a value has the empty one. -/
abbrev Given := List (String × String)

inductive Argument where
  | option (name value : String)
  | operand (text : String)
  /-- Two bare hyphens. -/
  | separator
  deriving DecidableEq, Repr

/-- Whether an argument can be an operand or a value: it does not begin with a hyphen, or it is just
one. -/
def isPlain (argument : String) : Bool := !argument.startsWith "-" || argument = "-"

/-- An option by its name and what stands behind the equals sign, if there is one. Takes a value
from the arguments behind it if it needs one. -/
def readOption (known : OptionNames) (name : String) (value : Option String)
    (rest : List String) : Option (Argument × List String) :=
  match known.lookup name, value, rest with
  | some true, some v, _ => some (.option name v, rest)
  | some true, none, v :: rest => if isPlain v then some (.option name v, rest) else none
  | some false, none, _ => some (.option name "", rest)
  | _, _, _ => none

/-- Reads the first argument; `none` if it is no known option or lacks its value. -/
def readArgument (known : OptionNames) (first : String) (rest : List String) :
    Option (Argument × List String) :=
  if isPlain first then some (.operand first, rest)
  else if first = "--" then some (.separator, rest)
  else if first.startsWith "--" then
    let body := first.toList.drop 2
    let name := String.ofList (body.takeWhile (· ≠ '='))
    match body.dropWhile (· ≠ '=') with
    | [] => readOption known name none rest
    | _ :: value => readOption known name (some (String.ofList value)) rest
  else none

def isKnown (known : OptionNames) (argument : String) : Bool :=
  argument.startsWith "--" &&
    (known.lookup (String.ofList ((argument.toList.drop 2).takeWhile (· ≠ '=')))).isSome

theorem readOption_length {known : OptionNames} {name : String} {value : Option String}
    {rest remaining : List String} {argument : Argument}
    (h : readOption known name value rest = some (argument, remaining)) :
    remaining.length ≤ rest.length := by
  unfold readOption at h
  split at h
  · simp_all
  · split at h <;> simp_all
  · simp_all
  · simp at h

/-- Reading an argument leaves at most those behind it. -/
theorem readArgument_length {known : OptionNames} {first : String}
    {rest remaining : List String} {argument : Argument}
    (h : readArgument known first rest = some (argument, remaining)) :
    remaining.length ≤ rest.length := by
  unfold readArgument at h
  split at h
  · simp_all
  · split at h
    · simp_all
    · split at h
      · simp only at h
        split at h <;> exact readOption_length h
      · simp at h

/-- The options in front of the first argument that is none of them, which is left where it is. An
option without its value is a fault. -/
def readLeading (known : OptionNames) : List String → Option (Given × List String)
  | [] => some ([], [])
  | first :: rest =>
    match h : readArgument known first rest with
    | some (.option name value, remaining) =>
      have := readArgument_length h
      (readLeading known remaining).map fun (given, rest) => ((name, value) :: given, rest)
    | some _ => some ([], first :: rest)
    | none => if isKnown known first then none else some ([], first :: rest)
termination_by arguments => arguments.length
decreasing_by all_goals exact Nat.lt_succ_of_le this

def readAll (known : OptionNames) : List String → Option (Given × List String)
  | [] => some ([], [])
  | first :: rest =>
    match h : readArgument known first rest with
    | some (.option name value, remaining) =>
      have := readArgument_length h
      (readAll known remaining).map fun (given, operands) => ((name, value) :: given, operands)
    | some (.operand text, remaining) =>
      have := readArgument_length h
      (readAll known remaining).map fun (given, operands) => (given, text :: operands)
    | some (.separator, remaining) => some ([], remaining)
    | none => none
termination_by arguments => arguments.length
decreasing_by all_goals exact Nat.lt_succ_of_le this

end SessionPlayback.CommandLine
