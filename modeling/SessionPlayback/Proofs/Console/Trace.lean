import SessionPlayback.Console
import Mathlib.Data.List.Basic

/-!
Surfaces that keep a trace. What a playback did to the outside is read off the calls that it made:
the bytes on the terminal, the text of the keystroke log and the number of acknowledgements. The
surfaces themselves are arbitrary, so a call may fail at any time and the cell size may change.
-/

namespace SessionPlayback

namespace Console

variable {σ : Type} [Console σ]

/-- The surfaces after a call, whether it succeeded or not. -/
def next (call : Call) (s : σ) : σ := (perform call s).2

def after (calls : List Call) (s : σ) : σ := calls.foldl (fun s call => next call s) s

def Succeed : List Call → σ → Prop
  | [], _ => True
  | call :: rest, s => (perform call s).1 = .ok () ∧ Succeed rest (next call s)

instance decidableSucceed : (calls : List Call) → (s : σ) → Decidable (Succeed calls s)
  | [], _ => .isTrue trivial
  | call :: rest, s =>
    have := decidableSucceed rest (next call s)
    inferInstanceAs (Decidable (_ ∧ _))

/-- Calls of this kind never fail from now on, whatever else is called in between. -/
def Serves (kind : Call.Kind) (s : σ) : Prop :=
  ∀ calls call, call.kind = kind → (perform call (after calls s)).1 = .ok ()

@[simp] theorem after_nil (s : σ) : after [] s = s := rfl

@[simp] theorem after_cons (call : Call) (rest : List Call) (s : σ) :
    after (call :: rest) s = after rest (next call s) := rfl

theorem after_append (front back : List Call) (s : σ) :
    after (front ++ back) s = after back (after front s) := by
  simp [after, List.foldl_append]

@[simp] theorem succeed_nil (s : σ) : Succeed [] s := trivial

theorem succeed_append {front back : List Call} {s : σ} :
    Succeed (front ++ back) s ↔ Succeed front s ∧ Succeed back (after front s) := by
  induction front generalizing s with
  | nil => simp
  | cons call rest ih => simp [Succeed, ih, and_assoc]

theorem Serves.now {s : σ} {call : Call} (h : Serves call.kind s) :
    (perform call s).1 = .ok () := h [] call rfl

theorem Serves.after {kind : Call.Kind} {s : σ} (h : Serves kind s) (calls : List Call) :
    Serves kind (after calls s) := by
  intro more call hc
  rw [← after_append]
  exact h _ call hc

theorem Serves.next {kind : Call.Kind} {s : σ} (h : Serves kind s) (call : Call) :
    Serves kind (next call s) := h.after [call]

theorem succeed_of_serves {calls : List Call} {s : σ}
    (h : ∀ call ∈ calls, Serves call.kind s) : Succeed calls s := by
  induction calls generalizing s with
  | nil => trivial
  | cons call rest ih =>
    exact ⟨(h call (by simp)).now, ih fun c hc => (h c (by simp [hc])).next call⟩

end Console

namespace Call

def shownOn (bytes : List UInt8) : Call → List UInt8
  | .write more => bytes ++ more
  | .reset => []
  | _ => bytes

def loggedOn (text : String) : Call → String
  | .append more => text ++ more
  | .clear => ""
  | _ => text

@[simp] theorem foldl_shownOn_replicate (n : Nat) (bytes : List UInt8) :
    (List.replicate n .acknowledge).foldl shownOn bytes = bytes := by
  induction n with
  | zero => rfl
  | succ n ih => simpa [List.replicate_succ, shownOn] using ih

@[simp] theorem foldl_loggedOn_replicate (n : Nat) (text : String) :
    (List.replicate n .acknowledge).foldl loggedOn text = text := by
  induction n with
  | zero => rfl
  | succ n ih => simpa [List.replicate_succ, loggedOn] using ih

end Call

/-- Surfaces with the calls made to them, oldest first, and whether each succeeded. -/
structure Traced (σ : Type) where
  inner : σ
  calls : List (Call × Bool) := []

namespace Traced

variable {σ : Type}

def done (t : Traced σ) : List Call := (t.calls.filter (·.2)).map (·.1)

/-- The bytes written to the terminal since it was last reset. -/
def shown (t : Traced σ) : List UInt8 := t.done.foldl Call.shownOn []

/-- The text of the keystroke log since it was last cleared. -/
def logged (t : Traced σ) : String := t.done.foldl Call.loggedOn ""

def acknowledged (t : Traced σ) : Nat := t.done.count .acknowledge

/-- Some call has failed that was no acknowledgement. -/
def Broken (t : Traced σ) : Prop := ∃ call, call ≠ .acknowledge ∧ (call, false) ∈ t.calls

theorem shown_congr {t u : Traced σ} (h : t.calls = u.calls) : t.shown = u.shown := by
  rw [shown, done, h, shown, done]

theorem Broken.mono {t u : Traced σ} (h : t.Broken) (hc : t.calls <+: u.calls) :
    u.Broken := by
  obtain ⟨call, hne, hm⟩ := h
  exact ⟨call, hne, hc.subset hm⟩

theorem acknowledged_eq_count (t : Traced σ) :
    t.acknowledged = t.calls.count (.acknowledge, true) := by
  unfold acknowledged done
  induction t.calls with
  | nil => rfl
  | cons c calls ih =>
    obtain ⟨call, ok⟩ := c
    cases ok <;> simp [List.count_cons, ih]

variable [Console σ]

def perform (call : Call) (t : Traced σ) : Except Error Unit × Traced σ :=
  let (result, inner) := Console.perform call t.inner
  (result, ⟨inner, t.calls ++ [(call, result.isOk)]⟩)

instance : Console (Traced σ) where
  perform := perform
  cellMetrics t := Console.cellMetrics t.inner

theorem perform_fst (call : Call) (t : Traced σ) :
    (Console.perform call t).1 = (Console.perform call t.inner).1 := rfl

@[simp] theorem next_inner (call : Call) (t : Traced σ) :
    (Console.next call t).inner = Console.next call t.inner := rfl

@[simp] theorem after_inner (calls : List Call) (t : Traced σ) :
    (Console.after calls t).inner = Console.after calls t.inner := by
  induction calls generalizing t with
  | nil => rfl
  | cons call rest ih => simp [ih]

theorem serves_iff {kind : Call.Kind} {t : Traced σ} :
    Console.Serves kind t ↔ Console.Serves kind t.inner := by
  simp only [Console.Serves, perform_fst, after_inner]

theorem next_done_of_ok {call : Call} {t : Traced σ} (h : (Console.perform call t).1 = .ok ()) :
    (Console.next call t).done = t.done ++ [call] := by
  rw [perform_fst] at h
  simp [Console.next, Console.perform, perform, done, h, Except.isOk, Except.toBool]

theorem next_done_of_error {call : Call} {t : Traced σ} {e : Error}
    (h : (Console.perform call t).1 = .error e) : (Console.next call t).done = t.done := by
  rw [perform_fst] at h
  simp [Console.next, Console.perform, perform, done, h, Except.isOk, Except.toBool]

theorem after_done {calls : List Call} {t : Traced σ} (h : Console.Succeed calls t) :
    (Console.after calls t).done = t.done ++ calls := by
  induction calls generalizing t with
  | nil => simp
  | cons call rest ih => simp [ih h.2, next_done_of_ok h.1]

/-- Every call is recorded, in order. -/
theorem after_calls (calls : List Call) (t : Traced σ) : ∃ more,
    (Console.after calls t).calls = t.calls ++ more ∧ more.map (·.1) = calls := by
  induction calls generalizing t with
  | nil => exact ⟨[], by simp, rfl⟩
  | cons call rest ih =>
    obtain ⟨more, hm, hc⟩ := ih (Console.next call t)
    refine ⟨(call, (Console.perform call t.inner).1.isOk) :: more, ?_, by simp [hc]⟩
    rw [Console.after_cons, hm]
    simp [Console.next, Console.perform, perform]

theorem after_calls_of_succeed {calls : List Call} {t : Traced σ}
    (h : Console.Succeed calls t) :
    (Console.after calls t).calls = t.calls ++ calls.map (·, true) := by
  induction calls generalizing t with
  | nil => simp
  | cons call rest ih =>
    obtain ⟨hok, hrest⟩ := h
    rw [Console.after_cons, ih hrest]
    rw [perform_fst] at hok
    simp [Console.next, Console.perform, perform, hok, Except.isOk, Except.toBool]

theorem calls_prefix_after (calls : List Call) (t : Traced σ) :
    t.calls <+: (Console.after calls t).calls := by
  obtain ⟨more, hm, -⟩ := after_calls calls t
  exact hm ▸ List.prefix_append _ _

/-- Successful calls change the terminal one after the other. -/
theorem after_shown {calls : List Call} {t : Traced σ} (h : Console.Succeed calls t) :
    (Console.after calls t).shown = calls.foldl Call.shownOn t.shown := by
  simp [shown, after_done h]

theorem after_logged {calls : List Call} {t : Traced σ} (h : Console.Succeed calls t) :
    (Console.after calls t).logged = calls.foldl Call.loggedOn t.logged := by
  simp [logged, after_done h]

theorem after_acknowledged {calls : List Call} {t : Traced σ} (h : Console.Succeed calls t) :
    (Console.after calls t).acknowledged = t.acknowledged + calls.count .acknowledge := by
  simp [acknowledged, after_done h]

/-- In general some of the calls succeed and the others leave no mark. -/
theorem exists_after_done (calls : List Call) (t : Traced σ) :
    ∃ kept, kept.Sublist calls ∧ (Console.after calls t).done = t.done ++ kept := by
  induction calls generalizing t with
  | nil => exact ⟨[], List.Sublist.refl _, by simp⟩
  | cons call rest ih =>
    obtain ⟨kept, hk, hd⟩ := ih (Console.next call t)
    rw [Console.after_cons, hd]
    cases hc : (Console.perform call t).1 with
    | ok u => exact ⟨call :: kept, hk.cons_cons call, by simp [next_done_of_ok hc]⟩
    | error e => exact ⟨kept, hk.cons call, by rw [next_done_of_error hc]⟩

/-- Calls that are no acknowledgements do not count as such, failing ones included. -/
theorem after_acknowledged_of_notMem {calls : List Call} {t : Traced σ}
    (h : .acknowledge ∉ calls) : (Console.after calls t).acknowledged = t.acknowledged := by
  obtain ⟨kept, hk, hd⟩ := exists_after_done calls t
  simp [acknowledged, hd, List.count_eq_zero_of_not_mem fun hm => h (hk.subset hm)]

theorem after_replicate_acknowledged_le (n : Nat) (t : Traced σ) :
    (Console.after (.replicate n .acknowledge) t).acknowledged ≤ t.acknowledged + n := by
  obtain ⟨kept, hk, hdone⟩ := exists_after_done (.replicate n .acknowledge) t
  have hlen : kept.length ≤ n := by simpa using hk.length_le
  rw [acknowledged, hdone, List.count_append]
  exact Nat.add_le_add_left (Nat.le_trans List.count_le_length hlen) _

/-- Acknowledgements do not touch the terminal, failing ones included. -/
theorem after_replicate_shown (n : Nat) (t : Traced σ) :
    (Console.after (List.replicate n .acknowledge) t).shown = t.shown := by
  obtain ⟨kept, hk, hd⟩ := exists_after_done (List.replicate n .acknowledge) t
  obtain ⟨m, -, rfl⟩ := List.sublist_replicate_iff.mp hk
  simp [shown, hd]

theorem after_replicate_logged (n : Nat) (t : Traced σ) :
    (Console.after (List.replicate n .acknowledge) t).logged = t.logged := by
  obtain ⟨kept, hk, hd⟩ := exists_after_done (List.replicate n .acknowledge) t
  obtain ⟨m, -, rfl⟩ := List.sublist_replicate_iff.mp hk
  simp [logged, hd]

end Traced

end SessionPlayback
