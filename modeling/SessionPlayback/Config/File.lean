import SessionPlayback.Bounds
import SessionPlayback.Config
import SessionPlayback.Error
import SessionPlayback.Toml.Document

/-!
Settings from a TOML file. Every key may be left out and then keeps the value it is laid over; keys
with other names are an error.
-/

namespace SessionPlayback.Config

open Toml (Value)

structure File where
  speed : Option Binary64 := none
  speedStep : Option Binary64 := none
  minSpeed : Option Binary64 := none
  maxSpeed : Option Binary64 := none
  maxIdleMillis : Option Nat := none
  logLevel : Option String := none
  geometry : Option Geometry := none
  cell : Option CellMetrics := none

namespace File

def fileName : String := "ttyreplay.toml"

/-- A number; whole ones are rounded if need be. -/
def float? : Value → Option Binary64
  | .float x => some x
  | .integer n => some (.ofInt n)
  | _ => none

def nat? : Value → Option Nat
  | .integer n => if 0 ≤ n then some n.toNat else none
  | _ => none

def uint32? : Value → Option UInt32
  | .integer n => if 0 ≤ n ∧ n ≤ uint32Max then some n.toNat.toUInt32 else none
  | _ => none

def string? : Value → Option String
  | .string s => some s
  | _ => none

/-- The values of a section in the order of its keys: a table that has them all, or an array that
begins with them. -/
def sectionValues? (keys : List String) : Value → Option (List Value)
  | .table entries => keys.mapM fun key => entries.lookup key
  | .array items => if keys.length ≤ items.length then some (items.take keys.length) else none
  | _ => none

def geometryOf? (v : Value) : Option Geometry := do
  match ← (← sectionValues? ["rows", "cols", "width", "height"] v).mapM uint32? with
  | [rows, cols, width, height] => some ⟨rows, cols, width, height⟩
  | _ => none

def cellOf? (v : Value) : Option CellMetrics := do
  match ← (← sectionValues? ["width", "height"] v).mapM float? with
  | [width, height] => some ⟨width, height⟩
  | _ => none

/-- Takes over one entry; there is none with another key or with a value of another kind. -/
def takeEntry (file : File) : String × Value → Option File
  | ("speed", v) => (float? v).map fun x => { file with speed := some x }
  | ("speed_step", v) => (float? v).map fun x => { file with speedStep := some x }
  | ("min_speed", v) => (float? v).map fun x => { file with minSpeed := some x }
  | ("max_speed", v) => (float? v).map fun x => { file with maxSpeed := some x }
  | ("max_idle_ms", v) => (nat? v).map fun n => { file with maxIdleMillis := some n }
  | ("log_level", v) => (string? v).map fun s => { file with logLevel := some s }
  | ("geometry", v) => (geometryOf? v).map fun g => { file with geometry := some g }
  | ("cell", v) => (cellOf? v).map fun c => { file with cell := some c }
  | _ => none

def parse (text : String) : Except Error File :=
  match Toml.read text with
  | some (.table entries) =>
    match entries.foldlM takeEntry {} with
    | some file => .ok file
    | none => .error (.config "unknown key or value of the wrong kind")
  | _ => .error (.config "malformed TOML")

def apply (file : File) (c : Config) : Config :=
  { c with
    speed := file.speed.getD c.speed
    speedStep := file.speedStep.getD c.speedStep
    minSpeed := file.minSpeed.getD c.minSpeed
    maxSpeed := file.maxSpeed.getD c.maxSpeed
    maxIdle := (file.maxIdleMillis.map idleOfMillis).or c.maxIdle
    logLevel := file.logLevel.getD c.logLevel
    initialGeometry := file.geometry.getD c.initialGeometry
    cellMetrics := file.cell.getD c.cellMetrics }

def ofFile (path : String) (content : Except IoFault (List UInt8)) : Except Error File :=
  match content.bind IoFault.textOf with
  | .ok text => parse text
  | .error fault => .error (.ioWhile ("reading config " ++ path) fault)

def pathIn (directory : String) : String :=
  if directory.isEmpty ∨ directory.endsWith "/" then directory ++ fileName
  else directory ++ "/" ++ fileName

def locate (isFile : String → Bool) (directories : List String) : Option String :=
  (directories.map pathIn).find? isFile

end File

end SessionPlayback.Config
