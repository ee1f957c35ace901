import SessionPlayback.Console

/-!
Surfaces of which chosen calls fail. A failing call has no effect, and every call counts, failing
ones too.
-/

namespace SessionPlayback

/-- For each kind of call, the numbers of those that fail, the first call being number one. -/
abbrev FaultPlan := List (Call.Kind × List Nat)

structure Faulty (σ : Type) where
  inner : σ
  plan : FaultPlan := []
  /-- The calls so far. -/
  made : List Call.Kind := []

namespace Faulty

variable {σ : Type}

def kindName : Call.Kind → String
  | .write => "write"
  | .reset => "reset"
  | .resize => "resize"
  | .append => "append"
  | .clear => "clear"
  | .acknowledge => "ack"

def fault (kind : Call.Kind) : Error :=
  let message := "injected " ++ kindName kind ++ " failure"
  match kind with
  | .write | .reset | .resize => .renderer message
  | .append | .clear => .io (.other message)
  | .acknowledge => .transportClosed

def isDue (f : Faulty σ) (kind : Call.Kind) : Bool :=
  ((f.plan.lookup kind).getD []).contains (f.made.count kind + 1)

def perform [Console σ] (call : Call) (f : Faulty σ) : Except Error Unit × Faulty σ :=
  let kind := call.kind
  let counted := { f with made := kind :: f.made }
  if f.isDue kind then (.error (fault kind), counted)
  else
    let (result, inner) := Console.perform call f.inner
    (result, { counted with inner })

instance [Console σ] : Console (Faulty σ) where
  perform := perform
  cellMetrics f := Console.cellMetrics f.inner

end Faulty

end SessionPlayback
