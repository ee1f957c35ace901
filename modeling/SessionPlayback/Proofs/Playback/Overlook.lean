import SessionPlayback.Player
import SessionPlayback.Proofs.Playback.Drain

/-!
Acknowledgements do not matter to what a playback shows. Looked at in a way that does not see them,
an operation does the same whether they succeed or fail: the same calls, the same state and the same
error.
-/

namespace SessionPlayback

/-- A view of surfaces on which acknowledgements leave no mark, whether they succeed or fail. -/
structure Console.Overlooks {σ τ : Type} [Console σ] [Console τ] (view : σ → τ) : Prop where
  cellMetrics : ∀ s, Console.cellMetrics (view s) = Console.cellMetrics s
  perform : ∀ call s, call ≠ .acknowledge →
    Console.perform call (view s) = ((Console.perform call s).1, view (next call s))
  acknowledge : ∀ s, view (next .acknowledge s) = view s
  silent : ∀ s, next .acknowledge (view s) = view s

/-- How many of the acknowledgements that are due are sent: all, or those up to the first that
fails, which counts. -/
def Console.sentAcks {σ : Type} [Console σ] : Nat → σ → Nat
  | 0, _ => 0
  | due + 1, s =>
    match (Console.perform .acknowledge s).1 with
    | .ok () => sentAcks due (next .acknowledge s) + 1
    | .error _ => 1

namespace Playback

variable {σ τ : Type}

/-- Acknowledgements change the surfaces and what is due, which is nothing afterwards even if one
fails. -/
theorem sendAcks_sent [Console σ] (p : Playback σ) : p.sendAcks =
    { p.called (.replicate (Console.sentAcks p.pendingAcks p.console) .acknowledge) with
      pendingAcks := 0 } := by
  suffices h : ∀ due (p : Playback σ), p.pendingAcks = due → sendAcksFrom due p =
      { p.called (.replicate (Console.sentAcks due p.console) .acknowledge) with
        pendingAcks := 0 } from h _ p rfl
  intro due
  induction due with
  | zero =>
    intro p hp
    cases p
    subst hp
    rfl
  | succ due ih =>
    intro p hp
    cases hc : Console.perform .acknowledge p.console with
    | mk result console =>
      have hn : Console.next .acknowledge p.console = console := by simp [Console.next, hc]
      cases result with
      | ok u => simp [sendAcksFrom, Console.sentAcks, hc, hn, ih, called, List.replicate_succ]
      | error e => simp [sendAcksFrom, Console.sentAcks, hc, hn, called]

/-- On receipt acknowledgements change the surfaces only. -/
theorem acknowledgeReceipt_sent [Console σ] (count : Nat) (p : Playback σ) :
    acknowledgeReceipt count p =
      p.called (.replicate (Console.sentAcks count p.console) .acknowledge) := by
  induction count generalizing p with
  | zero => rfl
  | succ count ih =>
    cases hc : Console.perform .acknowledge p.console with
    | mk result console =>
      have hn : Console.next .acknowledge p.console = console := by simp [Console.next, hc]
      cases result with
      | ok u =>
        simp [acknowledgeReceipt, Console.sentAcks, hc, hn, ih, called, List.replicate_succ]
      | error e => simp [acknowledgeReceipt, Console.sentAcks, hc, hn, called]

def seen (view : σ → τ) (p : Playback σ) : Playback τ := p.onto (view p.console)

def Mirrored (view : σ → τ) (x : Action σ Unit) (y : Action τ Unit) (p : Playback σ) : Prop :=
  y.run (p.seen view) = match x.run p with
    | .ok u q => .ok u (q.seen view)
    | .error f q => .error f (q.seen view)

section Fields

variable (view : σ → τ) (p : Playback σ)

@[simp] theorem seen_config : (p.seen view).config = p.config := rfl

@[simp] theorem seen_events : (p.seen view).events = p.events := rfl

@[simp] theorem seen_index : (p.seen view).index = p.index := rfl

@[simp] theorem seen_paused : (p.seen view).paused = p.paused := rfl

@[simp] theorem seen_speed : (p.seen view).speed = p.speed := rfl

@[simp] theorem seen_savedDelay : (p.seen view).savedDelay = p.savedDelay := rfl

@[simp] theorem seen_held : (p.seen view).held = p.held := rfl

@[simp] theorem seen_isLive : (p.seen view).isLive = p.isLive := rfl

@[simp] theorem seen_isEnded : (p.seen view).isEnded = p.isEnded := rfl

@[simp] theorem seen_wantsStep : (p.seen view).wantsStep = p.wantsStep := rfl

theorem seen_pause (now : Nanoseconds) : (p.seen view).pause now = (p.pause now).seen view := by
  cases hp : p.paused with
  | true =>
    rw [pause_of_paused now hp, pause_of_paused now (p := p.seen view) hp]
  | false =>
    rw [pause_of_playing now hp, pause_of_playing now (p := p.seen view) hp]
    rfl

theorem seen_scheduleNext (now : Nanoseconds) :
    (p.seen view).scheduleNext now = (p.scheduleNext now).seen view := by
  unfold scheduleNext
  split_ifs <;> first | rfl | contradiction

theorem seen_rearmed (now : Nanoseconds) :
    (p.seen view).rearmed now = (p.rearmed now).seen view := by
  unfold rearmed
  split_ifs <;> first | rfl | contradiction

theorem seen_setDisconnected (now : Nanoseconds) :
    (p.seen view).setDisconnected now = (p.setDisconnected now).seen view := by
  rw [setDisconnected_eq, setDisconnected_eq]
  rfl

end Fields

namespace Mirrored

variable {view : σ → τ} {p : Playback σ} {x : Action σ Unit} {y : Action τ Unit}

theorem of_pure : Mirrored view (pure ()) (pure ()) p := rfl

theorem of_modify {f : Playback σ → Playback σ} {g : Playback τ → Playback τ}
    (h : g (p.seen view) = (f p).seen view) : Mirrored view (modify f) (modify g) p := by
  unfold Mirrored
  rw [EStateM.run_modify, EStateM.run_modify, h]

theorem of_set {q : Playback σ} {r : Playback τ} (h : r = q.seen view) :
    Mirrored view (set q) (set r) p := by
  unfold Mirrored
  rw [EStateM.run_set, EStateM.run_set, h]

theorem of_throw (f : Fault) : Mirrored view (throw f) (throw f) p := rfl

theorem of_get {f : Playback σ → Action σ Unit} {g : Playback τ → Action τ Unit}
    (h : Mirrored view (f p) (g (p.seen view)) p) :
    Mirrored view (get >>= f) (get >>= g) p := h

/-- What is mirrored depends on the two runs only. -/
theorem congr {x' : Action σ Unit} {y' : Action τ Unit} {q : Playback σ} {r : Playback τ}
    (hx : x.run p = x'.run q) (hy : y.run (p.seen view) = y'.run r) (hr : r = q.seen view)
    (h : Mirrored view x' y' q) : Mirrored view x y p := by
  unfold Mirrored at h ⊢
  rw [hx, hy, hr, h]

theorem bind {f : Unit → Action σ Unit} {g : Unit → Action τ Unit} (hx : Mirrored view x y p)
    (hf : ∀ q, Mirrored view (f ()) (g ()) q) : Mirrored view (x >>= f) (y >>= g) p := by
  unfold Mirrored at hx ⊢
  rw [EStateM.run_bind, EStateM.run_bind, hx]
  cases x.run p with
  | ok u q => exact hf q
  | error e q => rfl

end Mirrored

section Overlooked

variable [Console σ] [Console τ] {view : σ → τ} (hview : Console.Overlooks view)

include hview

theorem seen_acknowledged (n : Nat) (p : Playback σ) :
    (p.seen view).called (.replicate n .acknowledge) = p.seen view ∧
      (p.called (.replicate n .acknowledge)).seen view = p.seen view := by
  have hsilent (n : Nat) (s : σ) :
      Console.after (.replicate n .acknowledge) (view s) = view s := by
    induction n with
    | zero => rfl
    | succ n ih => rw [List.replicate_succ, Console.after_cons, hview.silent, ih]
  have hunseen (n : Nat) (s : σ) :
      view (Console.after (.replicate n .acknowledge) s) = view s := by
    induction n generalizing s with
    | zero => rfl
    | succ n ih => rw [List.replicate_succ, Console.after_cons, ih, hview.acknowledge]
  exact ⟨congrArg (fun t => p.onto t) (hsilent n p.console),
    congrArg (fun t => p.onto t) (hunseen n p.console)⟩

theorem seen_sendAcks (p : Playback σ) : (p.seen view).sendAcks = p.sendAcks.seen view := by
  obtain ⟨n, -, -, hn⟩ := sendAcks_eq p
  obtain ⟨m, -, -, hm⟩ := sendAcks_eq (p.seen view)
  rw [hn, hm, (seen_acknowledged hview m p).1]
  exact congrArg (fun q : Playback τ => { q with pendingAcks := 0 })
    (seen_acknowledged hview n p).2.symm

theorem seen_acknowledgeReceipt (count : Nat) (p : Playback σ) :
    acknowledgeReceipt count (p.seen view) = (acknowledgeReceipt count p).seen view := by
  obtain ⟨n, -, hn⟩ := acknowledgeReceipt_eq count p
  obtain ⟨m, -, hm⟩ := acknowledgeReceipt_eq count (p.seen view)
  rw [hn, hm, (seen_acknowledged hview m p).1, (seen_acknowledged hview n p).2]

theorem seen_taken (e : Event) (p : Playback σ) :
    (p.seen view).taken e = (p.taken e).seen view := by
  have hcell : Console.cellMetrics (p.seen view).console = Console.cellMetrics p.console :=
    hview.cellMetrics p.console
  unfold taken
  rw [hcell]
  rfl

theorem seen_absorbAll (live : Bool) (events : List Event) (p : Playback σ) :
    absorbAll live events (p.seen view) = (absorbAll live events p).seen view := by
  induction events generalizing p with
  | nil => rfl
  | cons e events ih =>
    have hcell : Console.cellMetrics (p.seen view).console = Console.cellMetrics p.console :=
      hview.cellMetrics p.console
    refine (congrArg (absorbAll live events) ?_).trans (ih _)
    simp only [absorb, hcell]
    rfl

namespace Mirrored

theorem perform {call : Call} (hc : call ≠ .acknowledge) (p : Playback σ) :
    Mirrored view (perform call) (perform call) p := by
  have hperform : Console.perform call (p.seen view).console =
      ((Console.perform call p.console).1, view (Console.next call p.console)) :=
    hview.perform call p.console hc
  have hcalled : (p.seen view).called [call] = (p.called [call]).seen view :=
    congrArg (fun t => p.onto t) (congrArg Prod.snd hperform)
  unfold Mirrored
  rw [perform_run, perform_run, hcalled, hperform]
  cases (Console.perform call p.console).1 <;> rfl

theorem flush (p : Playback σ) : Mirrored view flush flush p := by
  have hpass (held : Held) (p : Playback σ) (call : Call) (hc : call ≠ .acknowledge) :
      Mirrored view (do set { p with held }; Playback.perform call)
        (do set { p.seen view with held }; Playback.perform call) p :=
    .bind (.of_set rfl) (perform hview hc)
  refine .bind (.of_get ?_) fun p => .bind (.of_get ?_) fun p => .of_get ?_
  · rw [seen_held]
    split
    · exact of_pure
    · exact hpass _ p _ (by simp)
  · rw [seen_held]
    split
    · exact of_pure
    · exact hpass _ p _ (by simp)
  · rw [seen_held]
    split
    · exact of_pure
    · exact hpass _ p _ (by simp)

theorem showTaken (now : Nanoseconds) (p : Playback σ) :
    Mirrored view (showTaken now) (showTaken now) p := by
  refine .bind (flush hview p) fun q => .of_modify ?_
  dsimp only
  rw [seen_sendAcks hview]
  exact seen_scheduleNext view { q.sendAcks with index := q.sendAcks.index + 1 } now

theorem step (now : Nanoseconds) (p : Playback σ) :
    Mirrored view (step now) (step now) p := by
  cases he : p.events[p.index]? with
  | none =>
    unfold Mirrored
    rw [step_run_none he, step_run_none (p := p.seen view) he]
    rfl
  | some e =>
    have hshow := showTaken hview now (p.taken e)
    unfold Mirrored at hshow ⊢
    rw [step_run_some he, step_run_some (p := p.seen view) he, seen_taken hview, seen_paused,
      seen_isLive]
    split
    · rfl
    · split
      · rfl
      · exact hshow

theorem play (now : Nanoseconds) (p : Playback σ) :
    Mirrored view (play now) (play now) p := by
  have hresumed : (p.seen view).resumed = p.resumed.seen view := rfl
  have hshow : Mirrored view (showResumed now) (showResumed now) p.resumed := by
    refine .bind (flush hview _) fun q => .of_modify ?_
    rw [seen_sendAcks hview, seen_rearmed]
  have hflush := flush hview p
  unfold Mirrored at hshow hflush ⊢
  rw [play_run, play_run, hresumed, seen_paused, seen_isEnded]
  split
  · rfl
  · split
    · exact hflush
    · exact hshow

theorem changeSpeed (now : Nanoseconds) (requested : Binary64) (p : Playback σ) :
    Mirrored view (changeSpeed now requested) (changeSpeed now requested) p := by
  refine .of_get ?_
  simp only [seen_config, seen_paused, seen_pause, seen_speed]
  split
  · exact of_throw _
  · split
    · exact of_set rfl
    · refine .bind (.of_set rfl) fun q => ?_
      simp only [seen_savedDelay]
      split
      · exact of_throw _
      · exact .bind (.of_set rfl) (play hview now)

theorem land (target : Nat) (events : List Event) (live : Bool) (p : Playback σ) :
    Mirrored view (land target events live) (land target events live) p :=
  .bind (.of_modify (seen_absorbAll hview live events p)) fun q =>
    .bind (flush hview q) fun _ => .of_modify rfl

theorem rewind (p : Playback σ) : Mirrored view rewind rewind p :=
  .bind (perform hview (by simp) p) fun q =>
    .bind (perform hview (by simp) q) fun _ => .of_modify rfl

theorem moveTo (now : Nanoseconds) (target : Nat) (p : Playback σ) :
    Mirrored view (moveTo now target) (moveTo now target) p := by
  have hhalted : (p.seen view).halted now = (p.halted now).seen view := by
    rw [halted_eq, halted_eq, seen_pause]
    rfl
  have hback : Mirrored view
      (do Playback.rewind; Playback.land target (p.events.take (target + 1)) p.isLive)
      (do Playback.rewind; Playback.land target (p.events.take (target + 1)) p.isLive)
      (p.halted now) :=
    bind (rewind hview _) fun q => land hview target _ p.isLive q
  have hforward := land hview target ((p.events.take (target + 1)).drop p.index) p.isLive
    (p.halted now)
  unfold Mirrored at hback hforward ⊢
  rw [moveTo_run, moveTo_run, hhalted, seen_events, seen_index, seen_isLive]
  split
  · rfl
  · split
    · exact hback
    · exact hforward

theorem reset (p : Playback σ) : Mirrored view reset reset p := by
  refine .bind (.of_modify rfl) fun q => .of_get ?_
  rw [seen_config]
  split
  · exact of_throw _
  · exact .bind (.of_set rfl) fun q => .bind (perform hview (by simp) q) fun q =>
      .bind (perform hview (by simp) q) (perform hview (by simp))

theorem carryOut (now : Nanoseconds) (c : Command) (p : Playback σ) :
    Mirrored view (carryOut now c) (carryOut now c) p := by
  cases c with
  | play => exact play hview now p
  | pause => exact .of_modify (seen_pause view p now)
  | toggle =>
    refine .of_get ?_
    rw [seen_paused]
    split
    · exact play hview now p
    · exact .of_modify (seen_pause view p now)
  | next => exact .of_get (moveTo hview now p.index p)
  | previous =>
    refine .of_get ?_
    rw [seen_index]
    split
    · exact moveTo hview now _ p
    · exact of_pure
  | seek target => exact moveTo hview now target p
  | increaseSpeed => exact .of_get (changeSpeed hview now _ p)
  | decreaseSpeed => exact .of_get (changeSpeed hview now _ p)
  | setSpeed speed => exact changeSpeed hview now speed p
  | load events => exact .of_modify rfl
  | setLive => exact .of_modify rfl
  | setDisconnected => exact .of_modify (seen_setDisconnected view p now)
  | reset => exact reset hview p
  | shutdown => exact of_pure

theorem drain (now : Nanoseconds) (p : Playback σ) :
    Mirrored view (drain now) (drain now) p := by
  suffices h : ∀ bound (p : Playback σ), Mirrored view (drainFor now bound) (drainFor now bound) p
    from .of_get (h p.remaining p)
  intro bound
  induction bound with
  | zero => exact fun p => of_pure
  | succ bound ih =>
    intro p
    refine .of_get ?_
    rw [seen_wantsStep]
    split
    · exact .bind (step hview now p) ih
    · exact of_pure

theorem takeBatch (now : Nanoseconds) (batch : List Event) (p : Playback σ) :
    Mirrored view (takeBatch now batch) (takeBatch now batch) p := by
  refine .bind (.of_modify rfl) fun q => .of_get ?_
  rw [seen_isLive]
  split
  · refine .bind (drain hview now q) fun r => ?_
    split
    · exact .of_modify (seen_setDisconnected view r now)
    · exact of_pure
  · refine .bind (.of_modify (seen_acknowledgeReceipt hview _ q)) fun r => ?_
    split
    · exact play hview now r
    · exact of_pure

end Mirrored
end Overlooked
end Playback
end SessionPlayback
