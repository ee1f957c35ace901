import SessionPlayback.Playback.Output
import SessionPlayback.Proofs.Console.Trace

/-!
What flushing and acknowledging call. A flush makes the calls for what is held, in a fixed order,
and nothing else changes; it never acknowledges. Acknowledgements change neither the terminal nor
the keystroke log.
-/

namespace SessionPlayback

namespace Held

def resizeCalls (h : Held) : List Call := h.resize.toList.map .resize

def keystrokeCalls (h : Held) : List Call :=
  if h.keystrokes.isEmpty then [] else [.append h.keystrokes]

def terminalCalls (h : Held) : List Call :=
  if h.terminal.isEmpty then [] else [.write h.terminal]

def calls (h : Held) : List Call := h.resizeCalls ++ h.keystrokeCalls ++ h.terminalCalls

theorem acknowledge_notMem (h : Held) : .acknowledge ∉ h.calls := by
  simp [calls, resizeCalls, keystrokeCalls, terminalCalls]

theorem calls_shown (h : Held) (bytes : List UInt8) :
    h.calls.foldl Call.shownOn bytes = bytes ++ h.terminal := by
  have hr : h.resizeCalls.foldl Call.shownOn bytes = bytes := by
    cases hg : h.resize <;> simp [resizeCalls, hg, Call.shownOn]
  have hk : h.keystrokeCalls.foldl Call.shownOn bytes = bytes := by
    unfold keystrokeCalls
    split <;> simp [Call.shownOn]
  rw [calls, List.foldl_append, List.foldl_append, hr, hk, terminalCalls]
  split <;> simp_all [Call.shownOn]

theorem calls_logged (h : Held) (text : String) :
    h.calls.foldl Call.loggedOn text = text ++ h.keystrokes := by
  have hr : h.resizeCalls.foldl Call.loggedOn text = text := by
    cases hg : h.resize <;> simp [resizeCalls, hg, Call.loggedOn]
  have hk : h.keystrokeCalls.foldl Call.loggedOn text = text ++ h.keystrokes := by
    unfold keystrokeCalls
    split <;> simp_all [Call.loggedOn]
  rw [calls, List.foldl_append, List.foldl_append, hr, hk, terminalCalls]
  split <;> simp [Call.loggedOn]

/-- What is still held after a flush: the kinds that it did not get to because a call for one before
them failed. -/
def left {σ : Type} [Console σ] (s : σ) (h : Held) : Held where
  resize := none
  keystrokes := if Console.Succeed h.resizeCalls s then "" else h.keystrokes
  terminal := if Console.Succeed (h.resizeCalls ++ h.keystrokeCalls) s then [] else h.terminal

theorem left_of_succeed {σ : Type} [Console σ] {s : σ} {h : Held}
    (hs : Console.Succeed h.calls s) : h.left s = {} := by
  obtain ⟨hrk, -⟩ := Console.succeed_append.mp hs
  obtain ⟨hr, -⟩ := Console.succeed_append.mp hrk
  rw [left, if_pos hr, if_pos hrk]

end Held

namespace Playback

variable {σ : Type}

theorem run_bind_ok_iff {β : Type} {x : Action σ Unit} {f : Unit → Action σ β}
    {p r : Playback σ} {b : β} : (x >>= f).run p = .ok b r ↔
      ∃ q, x.run p = .ok () q ∧ (f ()).run q = .ok b r := by
  rw [EStateM.run_bind]
  cases x.run p <;> simp

theorem run_bind_error_iff {β : Type} {x : Action σ Unit} {f : Unit → Action σ β}
    {p r : Playback σ} {e : Fault} : (x >>= f).run p = .error e r ↔
      x.run p = .error e r ∨ ∃ q, x.run p = .ok () q ∧ (f ()).run q = .error e r := by
  rw [EStateM.run_bind]
  cases x.run p <;> simp

def Ends (ok error : Playback σ → Prop) (x : Action σ Unit) (p : Playback σ) : Prop :=
  match x.run p with
  | .ok _ q => ok q
  | .error _ q => error q

namespace Ends

variable {ok error : Playback σ → Prop} {x : Action σ Unit} {p q : Playback σ}

theorem of_run (hok : ∀ q, x.run p = .ok () q → ok q)
    (herror : ∀ f q, x.run p = .error f q → error q) : Ends ok error x p := by
  unfold Ends
  cases hr : x.run p with
  | ok u q => exact hok q hr
  | error f q => exact herror f q hr

theorem of_ok (h : Ends ok error x p) (hr : x.run p = .ok () q) : ok q := by
  unfold Ends at h
  rwa [hr] at h

theorem of_error {f : Fault} (h : Ends ok error x p) (hr : x.run p = .error f q) :
    error q := by
  unfold Ends at h
  rwa [hr] at h

theorem congr {y : Action σ Unit} (he : x.run p = y.run q) (h : Ends ok error y q) :
    Ends ok error x p := by
  unfold Ends at h ⊢
  rwa [he]

theorem bind {mid : Playback σ → Prop} {f : Unit → Action σ Unit} (hx : Ends mid error x p)
    (hf : ∀ q, mid q → Ends ok error (f ()) q) : Ends ok error (x >>= f) p := by
  refine of_run (fun r hr => ?_) fun f r hr => ?_
  · obtain ⟨q, hq, hr⟩ := run_bind_ok_iff.mp hr
    exact (hf q (hx.of_ok hq)).of_ok hr
  · rcases run_bind_error_iff.mp hr with hr | ⟨q, hq, hr⟩
    · exact hx.of_error hr
    · exact (hf q (hx.of_ok hq)).of_error hr

end Ends

/-- A successful run found by evaluation, with what a test says about its end. -/
theorem exists_run_ok {x : Action σ Unit} {p : Playback σ} (test : Playback σ → Bool)
    (h : (match x.run p with
      | .ok _ q => test q
      | .error _ _ => false) = true) : ∃ q, x.run p = .ok () q ∧ test q = true := by
  split at h
  · exact ⟨_, ‹_›, h⟩
  · cases h

def succeedsWith (x : Action σ Unit) (test : Playback σ → Bool) (p : Playback σ) : Bool :=
  match x.run p with
  | .ok _ q => test q
  | .error _ _ => false

theorem exists_of_succeedsWith {x : Action σ Unit} {p : Playback σ} {test : Playback σ → Bool}
    (h : succeedsWith x test p = true) : ∃ q, x.run p = .ok () q ∧ test q = true :=
  exists_run_ok test h

def onto {τ : Type} (t : τ) (p : Playback σ) : Playback τ := { p with console := t }

variable [Console σ]

def called (calls : List Call) (p : Playback σ) : Playback σ :=
  { p with console := Console.after calls p.console }

theorem called_append (front back : List Call) (p : Playback σ) :
    p.called (front ++ back) = (p.called front).called back := by
  simp [called, Console.after_append]

theorem perform_run (call : Call) (p : Playback σ) :
    (perform call).run p =
      match (Console.perform call p.console).1 with
      | .ok () => .ok () (p.called [call])
      | .error e => .error (.failed e) (p.called [call]) := by
  simp only [EStateM.run, perform, called, Console.after_cons, Console.after_nil, Console.next]
  split <;> simp_all

theorem perform_ok_iff {call : Call} {p q : Playback σ} :
    (perform call).run p = .ok () q ↔
      (Console.perform call p.console).1 = .ok () ∧ q = p.called [call] := by
  rw [perform_run]
  cases (Console.perform call p.console).1 <;> simp [eq_comm]

theorem perform_error {call : Call} {p q : Playback σ} {f : Fault}
    (h : (perform call).run p = .error f q) : q = p.called [call] := by
  rw [perform_run] at h
  split at h <;> simp_all

theorem perform_fails {call : Call} {p q : Playback σ} {f : Fault}
    (h : (perform call).run p = .error f q) :
    ¬Console.Succeed [call] p.console ∧ q = p.called [call] := by
  refine ⟨fun hs => ?_, perform_error h⟩
  rw [perform_ok_iff.mpr ⟨hs.1, rfl⟩] at h
  cases h

theorem flushResize_ok_iff {p q : Playback σ} :
    flushResize.run p = .ok () q ↔ Console.Succeed p.held.resizeCalls p.console ∧
      q = { p.called p.held.resizeCalls with held := { p.held with resize := none } } := by
  cases hg : p.held.resize with
  | none =>
    have hp : p = { p with held := { p.held with resize := none } } := by rw [← hg]
    simp [flushResize, Held.resizeCalls, hg, called, @eq_comm _ p, ← hp]
  | some g => simp [flushResize, Held.resizeCalls, hg, perform_ok_iff, called, Console.Succeed]

theorem flushKeystrokes_ok_iff {p q : Playback σ} :
    flushKeystrokes.run p = .ok () q ↔ Console.Succeed p.held.keystrokeCalls p.console ∧
      q = { p.called p.held.keystrokeCalls with held := { p.held with keystrokes := "" } } := by
  by_cases hk : p.held.keystrokes = ""
  · have hp : p = { p with held := { p.held with keystrokes := "" } } := by rw [← hk]
    simp [flushKeystrokes, Held.keystrokeCalls, hk, called, @eq_comm _ p, ← hp]
  · simp [flushKeystrokes, Held.keystrokeCalls, hk, perform_ok_iff, called, Console.Succeed]

theorem flushTerminal_ok_iff {p q : Playback σ} :
    flushTerminal.run p = .ok () q ↔ Console.Succeed p.held.terminalCalls p.console ∧
      q = { p.called p.held.terminalCalls with held := { p.held with terminal := [] } } := by
  by_cases ht : p.held.terminal = []
  · have hp : p = { p with held := { p.held with terminal := [] } } := by rw [← ht]
    simp [flushTerminal, Held.terminalCalls, ht, called, @eq_comm _ p, ← hp]
  · simp [flushTerminal, Held.terminalCalls, ht, perform_ok_iff, called, Console.Succeed]

/-- A flush succeeds if all its calls do, and then nothing is held any more. -/
theorem flush_ok_iff {p q : Playback σ} :
    flush.run p = .ok () q ↔ Console.Succeed p.held.calls p.console ∧
      q = { p.called p.held.calls with held := {} } := by
  simp only [flush, run_bind_ok_iff, flushResize_ok_iff, flushKeystrokes_ok_iff,
    flushTerminal_ok_iff, Held.calls, Console.succeed_append, Console.after_append, called]
  constructor
  · rintro ⟨_, ⟨hr, rfl⟩, _, ⟨hk, rfl⟩, ht, rfl⟩
    exact ⟨⟨⟨hr, hk⟩, ht⟩, rfl⟩
  · rintro ⟨⟨⟨hr, hk⟩, ht⟩, rfl⟩
    exact ⟨_, ⟨hr, rfl⟩, _, ⟨hk, rfl⟩, ht, rfl⟩

/-- `q` differs from `p` by some calls, none of them an acknowledgement, and by what is held. -/
def Spilled (p q : Playback σ) : Prop :=
  ∃ calls held, .acknowledge ∉ calls ∧ q = { p.called calls with held := held }

theorem flushResize_error {p q : Playback σ} {f : Fault}
    (h : flushResize.run p = .error f q) : ¬Console.Succeed p.held.resizeCalls p.console ∧
      q = { p.called p.held.resizeCalls with held := { p.held with resize := none } } := by
  cases hg : p.held.resize with
  | none => simp [flushResize, hg] at h
  | some g =>
    have hc : p.held.resizeCalls = [.resize g] := by simp [Held.resizeCalls, hg]
    simp only [flushResize, EStateM.run_bind, EStateM.run_get, hg, EStateM.run_set] at h
    rw [hc]
    exact perform_fails h

theorem flushKeystrokes_error {p q : Playback σ} {f : Fault}
    (h : flushKeystrokes.run p = .error f q) :
    ¬Console.Succeed p.held.keystrokeCalls p.console ∧
      q = { p.called p.held.keystrokeCalls with held := { p.held with keystrokes := "" } } := by
  by_cases hk : p.held.keystrokes = ""
  · simp [flushKeystrokes, hk] at h
  · have hc : p.held.keystrokeCalls = [.append p.held.keystrokes] := by
      simp [Held.keystrokeCalls, hk]
    simp only [flushKeystrokes, EStateM.run_bind, EStateM.run_get, String.isEmpty_iff, hk,
      ↓reduceIte, EStateM.run_set] at h
    rw [hc]
    exact perform_fails h

theorem flushTerminal_error {p q : Playback σ} {f : Fault}
    (h : flushTerminal.run p = .error f q) :
    ¬Console.Succeed p.held.terminalCalls p.console ∧
      q = { p.called p.held.terminalCalls with held := { p.held with terminal := [] } } := by
  by_cases ht : p.held.terminal = []
  · simp [flushTerminal, ht] at h
  · have hc : p.held.terminalCalls = [.write p.held.terminal] := by
      simp [Held.terminalCalls, ht]
    simp only [flushTerminal, EStateM.run_bind, EStateM.run_get, List.isEmpty_iff, ht,
      ↓reduceIte, EStateM.run_set] at h
    rw [hc]
    exact perform_fails h

/-- A flush that fails has made its calls up to the one that failed; what comes after that call is
still held. -/
theorem flush_fails {p q : Playback σ} {f : Fault} (h : flush.run p = .error f q) :
    ∃ made, made <+: p.held.calls ∧
      q = { p.called made with held := p.held.left p.console } := by
  simp only [flush, run_bind_error_iff, flushResize_ok_iff, flushKeystrokes_ok_iff] at h
  unfold Held.calls Held.left
  rcases h with h | ⟨_, ⟨hr, rfl⟩, h | ⟨_, ⟨hk, rfl⟩, h⟩⟩
  · obtain ⟨hr, rfl⟩ := flushResize_error h
    rw [if_neg hr, if_neg fun hs => hr (Console.succeed_append.mp hs).1, List.append_assoc]
    exact ⟨_, List.prefix_append _ _, rfl⟩
  · obtain ⟨hk, rfl⟩ := flushKeystrokes_error h
    have hrk : ¬Console.Succeed (p.held.resizeCalls ++ p.held.keystrokeCalls) p.console :=
      fun hs => hk (Console.succeed_append.mp hs).2
    rw [if_pos hr, if_neg hrk]
    refine ⟨_, List.prefix_append _ _, ?_⟩
    rw [called_append]
    rfl
  · obtain ⟨-, rfl⟩ := flushTerminal_error h
    have hrk : Console.Succeed (p.held.resizeCalls ++ p.held.keystrokeCalls) p.console :=
      Console.succeed_append.mpr ⟨hr, hk⟩
    rw [if_pos hr, if_pos hrk]
    refine ⟨_, List.prefix_refl _, ?_⟩
    rw [called_append, called_append]
    rfl

theorem flush_error {p q : Playback σ} {f : Fault} (h : flush.run p = .error f q) :
    Spilled p q := by
  obtain ⟨made, hm, rfl⟩ := flush_fails h
  exact ⟨made, _, fun hack => p.held.acknowledge_notMem (hm.subset hack), rfl⟩

/-- Acknowledgements are sent until none is due; if one fails none is due any more either. -/
theorem sendAcks_eq (p : Playback σ) : ∃ n ≤ p.pendingAcks,
    (Console.Serves .acknowledge p.console → n = p.pendingAcks) ∧
      p.sendAcks = { p.called (.replicate n .acknowledge) with pendingAcks := 0 } := by
  suffices h : ∀ m (p : Playback σ), p.pendingAcks = m → ∃ n ≤ m,
      (Console.Serves .acknowledge p.console → n = m) ∧
        sendAcksFrom m p = { p.called (.replicate n .acknowledge) with pendingAcks := 0 } from
    h _ p rfl
  intro m
  induction m with
  | zero =>
    intro p hp
    refine ⟨0, Nat.le_refl 0, fun _ => rfl, ?_⟩
    cases p
    subst hp
    rfl
  | succ m ih =>
    intro p hp
    simp only [sendAcksFrom]
    split
    · rename_i console hc
      have hn : Console.next .acknowledge p.console = console := by simp [Console.next, hc]
      obtain ⟨n, hle, hs, he⟩ := ih { p with console, pendingAcks := m } rfl
      refine ⟨n + 1, by omega, fun h => ?_, ?_⟩
      · rw [hs (hn ▸ h.next _)]
      · rw [he]
        simp [called, List.replicate_succ, hn]
    · rename_i console hc
      refine ⟨1, by omega, fun h => ?_, by simp [called, Console.next, hc]⟩
      have : (Console.perform .acknowledge p.console).1 = .ok () := h [] .acknowledge rfl
      simp_all

/-- On receipt acknowledgements are sent up to the first that fails. -/
theorem acknowledgeReceipt_eq (count : Nat) (p : Playback σ) :
    ∃ n ≤ count, acknowledgeReceipt count p = p.called (.replicate n .acknowledge) := by
  induction count generalizing p with
  | zero => exact ⟨0, Nat.le_refl 0, rfl⟩
  | succ count ih =>
    simp only [acknowledgeReceipt]
    split
    · rename_i console hc
      have hn : Console.next .acknowledge p.console = console := by simp [Console.next, hc]
      obtain ⟨n, hle, he⟩ := ih { p with console }
      exact ⟨n + 1, by omega, by rw [he]; simp [called, List.replicate_succ, hn]⟩
    · rename_i console hc
      exact ⟨1, by omega, by simp [called, Console.next, hc]⟩

/-- Held output has been flushed and `n` acknowledgements have been sent, successfully or not. -/
def delivered (n : Nat) (p : Playback σ) : Playback σ :=
  { p.called (p.held.calls ++ .replicate n .acknowledge) with held := {}, pendingAcks := 0 }

structure Delivers (p : Playback σ) (n : Nat) : Prop where
  flushes : Console.Succeed p.held.calls p.console
  le_pending : n ≤ p.pendingAcks
  eq_pending : Console.Serves .acknowledge p.console → n = p.pendingAcks

theorem sendAcks_of_flush {p r : Playback σ} (h : flush.run p = .ok () r) :
    ∃ n, p.Delivers n ∧ r.sendAcks = p.delivered n := by
  obtain ⟨hs, rfl⟩ := flush_ok_iff.mp h
  obtain ⟨n, hle, hn, he⟩ :=
    sendAcks_eq ({ p.called p.held.calls with held := {} } : Playback σ)
  refine ⟨n, ⟨hs, hle, fun ha => hn (ha.after _)⟩, ?_⟩
  rw [he, delivered, called_append]
  rfl

end Playback
end SessionPlayback
