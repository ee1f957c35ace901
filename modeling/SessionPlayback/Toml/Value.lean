import SessionPlayback.Binary64

/-!
TOML values, and tables while a document is being read. A table remembers how it came about, since
that decides what may be added to it: a header or a value closes it to further definitions, while a
table that exists only because a longer key passed through it is still open.
-/

namespace SessionPlayback.Toml

inductive Value where
  | string (s : String)
  | integer (n : Int)
  | float (x : Binary64)
  | boolean (b : Bool)
  /-- A date, a time or both. -/
  | moment
  | array (items : List Value)
  | table (entries : List (String × Value))
  deriving Inhabited

mutual

inductive Node where
  | value (v : Value)
  | table (t : Table)
  /-- The tables of repeated double-bracket headers. -/
  | tables (ts : List Table)

/-- A table that is being read. It is `implied` if no header or value has defined it, and `dotted`
if it comes from a dotted key. -/
inductive Table where
  | mk (implied dotted : Bool) (entries : List (String × Node))

end

namespace Table

def empty : Table := .mk false false []

def implied : Table → Bool
  | .mk implied _ _ => implied

def dotted : Table → Bool
  | .mk _ dotted _ => dotted

def entries : Table → List (String × Node)
  | .mk _ _ entries => entries

def get? (t : Table) (key : String) : Option Node := t.entries.lookup key

def put (t : Table) (key : String) (node : Node) : Table :=
  let entries :=
    if t.entries.any (·.1 = key) then
      t.entries.map fun entry => if entry.1 = key then (key, node) else entry
    else t.entries ++ [(key, node)]
  .mk t.implied t.dotted entries

/-- Changes the table that `path` leads to. Missing tables on the way are implied; a list of tables
leads to its last one. On the way of a dotted key no table may have been defined already. -/
def updateAt (dotted : Bool) : List String → (Table → Option Table) → Table → Option Table
  | [], change, t => change t
  | key :: path, change, t =>
    match t.get? key with
    | none =>
      (updateAt dotted path change (.mk true dotted [])).map fun inner => t.put key (.table inner)
    | some (.value _) => none
    | some (.tables ts) =>
      match ts.getLast? with
      | none => none
      | some last =>
        (updateAt dotted path change last).map fun inner =>
          t.put key (.tables (ts.dropLast ++ [inner]))
    | some (.table inner) =>
      if dotted && !inner.implied then none
      else (updateAt dotted path change inner).map fun inner => t.put key (.table inner)

def define (path : List String) (v : Value) (t : Table) : Option Table :=
  match path.getLast? with
  | none => none
  | some key =>
    let way := path.dropLast
    updateAt true way
      (fun inner =>
        if inner.dotted == way.isEmpty || (inner.get? key).isSome then none
        else some (inner.put key (.value v)))
      t

def openTable (path : List String) (t : Table) : Option Table :=
  match path.getLast? with
  | none => none
  | some key =>
    updateAt false path.dropLast
      (fun parent =>
        match parent.get? key with
        | none => some (parent.put key (.table empty))
        | some (.table inner) =>
          if inner.implied && !inner.dotted then
            some (parent.put key (.table (.mk false false inner.entries)))
          else none
        | some _ => none)
      t

def openElement (path : List String) (t : Table) : Option Table :=
  match path.getLast? with
  | none => none
  | some key =>
    updateAt false path.dropLast
      (fun parent =>
        match parent.get? key with
        | none => some (parent.put key (.tables [empty]))
        | some (.tables ts) => some (parent.put key (.tables (ts ++ [empty])))
        | some _ => none)
      t

end Table

mutual

def Table.toValue : Table → Value
  | .mk _ _ entries => .table (entryValues entries)

def Node.toValue : Node → Value
  | .value v => v
  | .table t => t.toValue
  | .tables ts => .array (tableValues ts)

def entryValues : List (String × Node) → List (String × Value)
  | [] => []
  | (key, node) :: rest => (key, node.toValue) :: entryValues rest

def tableValues : List Table → List Value
  | [] => []
  | t :: rest => t.toValue :: tableValues rest

end

end SessionPlayback.Toml
