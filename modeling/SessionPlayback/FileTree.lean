import SessionPlayback.Error

/-!
A tree of files. A path is walked name by name: every name but the last has to lead to a directory,
a dot stays, two dots go up, and repeated slashes count once. Outside of the tree there are only
directories that every system has, and the empty device.
-/

namespace SessionPlayback

inductive FileTree.Entry where
  | file (bytes : List UInt8)
  | directory
  deriving DecidableEq, Repr

/-- Entries by the names that lead to them. -/
structure FileTree where
  entries : List (List String × FileTree.Entry) := []
  deriving DecidableEq, Repr

namespace FileTree

inductive Origin where
  /-- The directory of the tree. -/
  | tree
  /-- A directory somewhere above the tree. -/
  | above
  /-- The directory above all others. -/
  | top
  deriving DecidableEq, Repr

structure Place where
  origin : Origin
  names : List String := []
  deriving DecidableEq, Repr

/-- The directory around a place. There is none around the top. -/
def Place.up (p : Place) : Place :=
  match p.names, p.origin with
  | [], .tree => ⟨.above, []⟩
  | names, origin => ⟨origin, names.dropLast⟩

/-- The names of a path. Two slashes in a row have an empty name between them. -/
def names (path : String) : List String := path.splitOn "/"

/-- The places on the way of a path through the tree, the last one first. -/
def stops (path : String) : List (List String) :=
  (names path).foldl (fun stops name =>
    let here := stops.headD []
    if name = "" ∨ name = "." then stops
    else if name = ".." then here.dropLast :: stops
    else (here ++ [name]) :: stops) [[]]

/-- What a path with the bytes of a file, or with nothing for a directory, puts into a tree: itself
and the directories on its way. -/
def entriesOf (path : String) (content : Option (List UInt8)) : List (List String × Entry) :=
  match stops path with
  | [] => []
  | place :: way =>
    (place, (content.map Entry.file).getD .directory) :: way.map fun place => (place, .directory)

def ofList (items : List (String × Option (List UInt8))) : FileTree where
  entries := items.flatMap fun (path, content) => entriesOf path content

/-- What lies outside of every tree. -/
def systemEntries : List (List String × Entry) :=
  (["dev", "null"], .file []) ::
    [[], ["dev"], ["etc"], ["home"], ["proc"], ["tmp"], ["usr"], ["var"]].map fun names =>
      (names, .directory)

def entry? (t : FileTree) (p : Place) : Option Entry :=
  match p.origin with
  | .tree => if p.names.isEmpty then some .directory else t.entries.lookup p.names
  | .above => if p.names.isEmpty then some .directory else none
  | .top => systemEntries.lookup p.names

/-- Names and paths have fewer bytes than this. -/
def nameLimit : Nat := 256

def pathLimit : Nat := 4096

def isTooLong (name : String) : Bool := nameLimit ≤ name.utf8ByteSize

/-- The place that names lead to from a place, with what stands there. -/
def walk (t : FileTree) (p : Place) : List String → Except IoFault (Place × Entry)
  | [] =>
    match t.entry? p with
    | some e => .ok (p, e)
    | none => .error .notFound
  | name :: rest =>
    match t.entry? p with
    | none => .error .notFound
    | some (.file _) => .error .notDirectory
    | some .directory =>
      if name = "" ∨ name = "." then t.walk p rest
      else if name = ".." then t.walk p.up rest
      else if isTooLong name then .error .nameTooLong
      else t.walk { p with names := p.names ++ [name] } rest

def begin? (path : String) : Except IoFault Place :=
  if path.isEmpty then .error .notFound
  else if path.toList.contains '\x00' then .error .zeroInPath
  else if pathLimit ≤ path.utf8ByteSize then .error .nameTooLong
  else .ok ⟨if path.startsWith "/" then .top else .tree, []⟩

def read (t : FileTree) (path : String) : Except IoFault (List UInt8) := do
  match ← t.walk (← begin? path) (names path) with
  | (_, .file bytes) => return bytes
  | (_, .directory) => throw .isDirectory

/-- Whether a file can be created, or opened to be emptied if there is one. A slash at the end asks
for a directory. -/
def create (t : FileTree) (path : String) : Except IoFault Unit := do
  let start ← begin? path
  let all := names path
  let kept := (all.reverse.dropWhile (· = "")).reverse
  let name := kept.getLastD ""
  let (place, _) ← t.walk start (kept.dropLast ++ [""])
  if kept.length < all.length ∨ name = "." ∨ name = ".." then throw .isDirectory
  else if isTooLong name then throw .nameTooLong
  else if t.entry? { place with names := place.names ++ [name] } = some .directory then
    throw .isDirectory

end FileTree

end SessionPlayback
