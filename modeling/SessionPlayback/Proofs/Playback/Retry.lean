import SessionPlayback.Console.FaultPlan
import SessionPlayback.Console.Transcript
import SessionPlayback.Proofs.Console.Service
import SessionPlayback.Proofs.Playback.Replay
import SessionPlayback.Proofs.Playback.Unending

/-!
A step that fails can be taken again. It applies the event at the cursor, counts it and lets go of
its output before the call that may fail, and moves the cursor only behind it, so the next step
applies the same event once more. This does no harm: an event tells the same twice, an event that
has been counted is not counted again, and an event makes one call at most, so nothing has been
shown before the call that failed.
-/

namespace SessionPlayback

/-- An event tells nothing new when it happens again. -/
theorem Metadata.after_idem (m : Metadata) (e : Event) : (m.after e).after e = m.after e := by
  simp only [after_eq, ← Option.or_assoc, Option.or_self]

namespace Held

/-- Each kind of event puts out for one surface only. -/
theorem push_calls (cell : CellMetrics) (e : Event) :
    (({} : Held).push cell e).calls = (({} : Held).push cell e).terminalCalls ∨
      (({} : Held).push cell e).calls = (({} : Held).push cell e).keystrokeCalls ∨
      ∃ g, (({} : Held).push cell e).calls = [.resize g] := by
  simp only [calls, resizeCalls, keystrokeCalls, push]
  cases hk : e.kind with
  | message m =>
    obtain ⟨direction, data⟩ := m
    cases direction with
    | incoming => simp [Event.keystrokeOutput, Event.resizeOutput, hk]
    | outgoing => simp [Event.terminalOutput, Event.resizeOutput, terminalCalls, hk]
    | other => simp [Event.terminalOutput, Event.keystrokeOutput, Event.resizeOutput, hk]
  | resize r =>
    simp [Event.terminalOutput, Event.keystrokeOutput, Event.resizeOutput, terminalCalls, hk]
  | request r => simp [Event.terminalOutput, Event.resizeOutput, terminalCalls, hk]
  | _ => simp [Event.terminalOutput, Event.keystrokeOutput, Event.resizeOutput, hk]

/-- An event makes one call at most. -/
theorem push_calls_of_ne_nil {cell : CellMetrics} {e : Event}
    (h : (({} : Held).push cell e).calls ≠ []) :
    ∃ call, (({} : Held).push cell e).calls = [call] := by
  rcases push_calls cell e with hc | hc | ⟨g, hc⟩
  · rw [hc] at h ⊢
    unfold terminalCalls at h ⊢
    split at h
    · exact absurd rfl h
    · exact ⟨_, by rw [if_neg ‹_›]⟩
  · rw [hc] at h ⊢
    unfold keystrokeCalls at h ⊢
    split at h
    · exact absurd rfl h
    · exact ⟨_, by rw [if_neg ‹_›]⟩
  · exact ⟨_, hc⟩

end Held

namespace Playback

variable {σ : Type}

def HeldByPause (p : Playback σ) : Prop := p.paused = false → p.held = {}

variable [Console σ]

/-- A flush that has one call to make makes it and nothing else. -/
theorem flush_run_of_calls {p : Playback σ} {call : Call} (h : p.held.calls = [call]) :
    flush.run p = (perform call).run { p with held := {} } := by
  obtain ⟨config, console, events, index, paused, speed, session, held, timer, savedDelay, stopped,
    pendingAcks, acked⟩ := p
  obtain ⟨terminal, keystrokes, resize⟩ := held
  simp only [Held.calls, Held.resizeCalls, Held.keystrokeCalls, Held.terminalCalls] at h
  -- Of the three, one is there and the other two are not.
  cases resize <;> by_cases hk : keystrokes = "" <;> by_cases ht : terminal = [] <;>
    simp [hk, ht] at h
  · simp [flush, flushResize, flushKeystrokes, flushTerminal, hk, ht, ← h]
  · simp only [flush, flushResize, flushKeystrokes, flushTerminal, EStateM.run_bind,
      EStateM.run_get, EStateM.run_pure, EStateM.run_set, perform_run, hk, ht, ← h,
      String.isEmpty_iff, ↓reduceIte]
    cases (Console.perform (.append keystrokes) console).1 <;> simp [called]
  · simp only [flush, flushResize, flushKeystrokes, flushTerminal, EStateM.run_bind,
      EStateM.run_get, EStateM.run_set, perform_run, hk, ht, ← h, String.isEmpty_iff]
    cases (Console.perform (.resize _) console).1 <;> simp [called]

namespace HeldByPause

variable {p q : Playback σ} {now : Nanoseconds}

omit [Console σ] in
theorem of_paused (h : p.paused = true) : p.HeldByPause := by
  intro hn
  simp [h] at hn

omit [Console σ] in
theorem of_unheld (h : p.held = {}) : p.HeldByPause := fun _ => h

theorem stepped (h : p.HeldByPause) (hq : Stepped now p q) : q.HeldByPause := by
  cases hq with
  | resting hp => exact of_paused hp
  | idle =>
    intro hn
    simp only [Bool.or_eq_false_iff] at hn
    exact h hn.1
  | held e hp => exact of_paused hp
  | shown e n hp =>
    obtain ⟨timer, paused, hs⟩ :=
      scheduleNext_frame { (p.taken e).delivered n with index := p.index + 1 } now
    rw [hs]
    exact of_unheld rfl

theorem played (h : p.HeldByPause) (hq : Played now p q) : q.HeldByPause := by
  cases hq with
  | already => exact h
  | ended => exact of_unheld rfl
  | resumed n =>
    obtain ⟨timer, delay, hs⟩ := rearmed_frame now (p.resumed.delivered n)
    rw [hs]
    exact of_unheld rfl

theorem outcome {op : Operation} (h : p.HeldByPause) (hq : Outcome now p op q) :
    q.HeldByPause := by
  have hpause : (p.pause now).paused = true := by
    obtain ⟨timer, delay, hs⟩ := pause_frame now p
    rw [hs]
  cases hq with
  | unchanged => exact h
  | stepped _ _ hq => exact h.stepped hq
  | played _ _ hq => exact h.played hq
  | paused => exact of_paused hpause
  | speedChanged _ _ hq =>
    cases hq with
    | paused speed hp => exact of_paused hp
    | playing speed delay _ hp hd hq =>
      exact played (p := p.rescaled now speed delay) (of_paused hpause) hq
  | moved _ _ _ hq =>
    cases hq with
    | stayed => exact h
    | forward => exact of_unheld rfl
    | back => exact of_unheld rfl
  | loaded => exact h
  | live => exact h
  | disconnected =>
    rw [setDisconnected_eq]
    intro hn
    simp only [Bool.or_eq_false_iff] at hn
    exact h hn.1
  | cleared => exact of_paused rfl

/-- Only an event that is applied by itself leaves output held while the playback plays. -/
theorem access {a : Access} (ha : ∀ e, a ≠ .absorb e) (h : p.HeldByPause)
    (hq : (access now a).run p = .ok () q) : q.HeldByPause := by
  cases a with
  | operation op => exact h.outcome (operate_ok hq)
  | absorb e => exact absurd rfl (ha e)
  | flush =>
    obtain ⟨-, rfl⟩ := flush_ok_iff.mp hq
    exact of_unheld rfl
  | acknowledgeReceipt count =>
    obtain ⟨n, -, he⟩ := acknowledgeReceipt_eq count p
    have hq : acknowledgeReceipt count p = q := by
      cases hq
      rfl
    rw [← hq, he]
    exact h

theorem accessAll {accesses : List (Nanoseconds × Access)}
    (ha : ∀ a ∈ accesses, ∀ e, a.2 ≠ .absorb e) (h : p.HeldByPause)
    (hq : (accessAll accesses).run p = .ok () q) : q.HeldByPause := by
  induction accesses generalizing p with
  | nil =>
    cases hq
    exact h
  | cons a rest ih =>
    obtain ⟨r, hr, hq⟩ := run_bind_ok_iff.mp hq
    exact ih (fun a ha' => ha a (List.mem_cons_of_mem _ ha'))
      (h.access (ha _ List.mem_cons_self) hr) hq

end HeldByPause

/-- An event that has been taken, but whose output was let go, can be taken again as if for the
first time. -/
theorem taken_again {τ : Type} [Console τ] {p : Playback σ} (t : τ) (e : Event)
    (hh : p.held = {}) :
    ({ p.taken e with console := t, held := {} } : Playback τ).taken e = (p.onto t).taken e := by
  have hlive : (p.session.after e).live = p.session.live := Metadata.after_live p.session e
  let q : Playback τ := { p.taken e with console := t, held := {} }
  have hcounted : q.uncounted (q.index + 1) = 0 := by
    change (if (p.session.after e).live then
      p.index + 1 - (p.acked + p.uncounted (p.index + 1)) else 0) = 0
    unfold uncounted isLive
    rw [hlive]
    split <;> omega
  have hstopped : (q.stopped || (e.isStop && !q.isLive)) = q.stopped := by
    change (p.stopped || (e.isStop && !p.isLive) || (e.isStop && !(p.session.after e).live)) =
      (p.stopped || (e.isStop && !p.isLive))
    rw [hlive]
    simp [isLive]
  change q.taken e = _
  unfold taken
  rw [hcounted, hstopped]
  simp only [q, taken, onto, hh, Metadata.after_idem]
  rfl

/-- A step of a playback that plays takes the event and shows it. -/
theorem step_run_of_plays {p : Playback σ} {e : Event} (now : Nanoseconds)
    (hplays : p.paused = false) (he : p.events[p.index]? = some e) :
    (step now).run p = (showTaken now).run (p.taken e) := by
  rw [step_run_some he]
  simp [hplays]

/-- A step that fails has taken the event and made its only call, if nothing was held before. -/
theorem step_error_called {p q : Playback σ} {now : Nanoseconds} {f : Fault}
    (hheld : p.held = {}) (hf : (step now).run p = .error f q) :
    ∃ e call error, p.events[p.index]? = some e ∧ call ≠ .acknowledge ∧
      (Console.perform call p.console).1 = .error error ∧ f = .failed error ∧
      q = { (p.taken e).called [call] with held := {} } := by
  obtain ⟨e, hplays, he, -⟩ := step_error hf
  have hflush : flush.run (p.taken e) = .error f q := by
    rw [step_run_of_plays now hplays he] at hf
    simp only [showTaken, run_bind_error_iff, EStateM.run_modify] at hf
    rcases hf with hf | ⟨_, _, hf⟩
    · exact hf
    · cases hf
  have htaken : (p.taken e).held = ({} : Held).push (Console.cellMetrics p.console) e := by
    simp [taken, hheld]
  have hne : (p.taken e).held.calls ≠ [] := by
    intro hnil
    rw [flush_ok_iff.mpr ⟨by rw [hnil]; trivial, rfl⟩] at hflush
    cases hflush
  obtain ⟨call, hcall⟩ : ∃ call, (p.taken e).held.calls = [call] := by
    rw [htaken] at hne ⊢
    exact Held.push_calls_of_ne_nil hne
  have hack : call ≠ .acknowledge := by
    rintro rfl
    exact (p.taken e).held.acknowledge_notMem (by simp [hcall])
  rw [flush_run_of_calls hcall, perform_run] at hflush
  split at hflush
  · cases hflush
  · rename_i error herror
    cases hflush
    exact ⟨e, call, error, he, hack, herror, rfl, rfl⟩

/-- A step that plays an event succeeds on surfaces that serve all but acknowledgements. -/
theorem step_ok_of_serves {p : Playback σ} {e : Event} (now : Nanoseconds)
    (hplays : p.paused = false) (he : p.events[p.index]? = some e)
    (hserves : ∀ kind ≠ .acknowledge, Console.Serves kind p.console) :
    ∃ r, (step now).run p = .ok () r := by
  have hs : Console.Succeed (p.taken e).held.calls p.console := by
    refine Console.succeed_of_serves fun made hmade => hserves made.kind fun hkind => ?_
    cases made with
    | acknowledge => exact (p.taken e).held.acknowledge_notMem hmade
    | _ => cases hkind
  obtain ⟨n, -, hr⟩ := step_of_flush now hplays he hs
  exact ⟨_, hr⟩

/-- A step that fails in a playback that plays has made one call, which failed with the error that
the step returns and was no acknowledgement, and has not moved the cursor. Taken again, at any
time and on any surfaces, it comes to what it would have come to at first. -/
theorem step_retry {s : σ} {config : Config} {start p q : Playback σ}
    {accesses : List (Nanoseconds × Access)} {now : Nanoseconds} {f : Fault}
    (hc : create? s config = .ok start) (ha : ∀ a ∈ accesses, ∀ e, a.2 ≠ .absorb e)
    (hp : (accessAll accesses).run start = .ok () p) (hplays : p.paused = false)
    (hf : (step now).run p = .error f q) :
    (∃ call e, call ≠ .acknowledge ∧ (Console.perform call p.console).1 = .error e ∧
      f = .failed e ∧ q.console = Console.next call p.console) ∧
      q.index = p.index ∧
      ∀ {τ : Type} [Console τ] (t : τ) (later : Nanoseconds),
        (step later).run (q.onto t) = (step later).run (p.onto t) ∧
          ((∀ kind ≠ .acknowledge, Console.Serves kind t) →
            ∃ r, (step later).run (q.onto t) = .ok () r) := by
  have hheld : p.held = {} := by
    obtain ⟨speed, -, rfl⟩ := create_eq hc
    exact HeldByPause.accessAll ha (.of_unheld rfl) hp hplays
  obtain ⟨e, call, error, he, hack, herror, rfl, rfl⟩ := step_error_called hheld hf
  refine ⟨⟨call, error, hack, herror, rfl, rfl⟩, rfl, fun {τ} _ t later => ?_⟩
  have hagain : (step later).run (onto t { (p.taken e).called [call] with held := {} }) =
      (step later).run (p.onto t) := by
    rw [step_run_of_plays (p := p.onto t) later hplays he]
    refine (step_run_of_plays (e := e) later ?_ ?_).trans (congrArg (showTaken later).run ?_)
    · exact hplays
    · exact he
    · exact taken_again t e hheld
  refine ⟨hagain, fun hserves => ?_⟩
  obtain ⟨r, hr⟩ := step_ok_of_serves (p := p.onto t) later hplays he hserves
  exact ⟨r, hagain.trans hr⟩

def beforeBatch : List (Nanoseconds × Access) := [
  (0, .operation (.command .setLive)), (1, .operation (.command .play)),
  (2, .operation (.command (.load [.incoming 0 [97], .incoming 5 [98]])))]

/-- The first write fails. The step is taken again, later and on a terminal that works. -/
theorem step_retry_after_failedWrite :
    ∃ (start p q : Playback (Faulty Transcript)) (f : Fault) (r : Playback Transcript),
      create? { inner := { cell := ⟨8, 16⟩ }, plan := [(.write, [1])] } {} = .ok start ∧
        (∀ a ∈ beforeBatch, ∀ e, a.2 ≠ .absorb e) ∧
        (accessAll beforeBatch).run start = .ok () p ∧ p.paused = false ∧
        (step 3).run p = .error f q ∧
        (∃ call e, call ≠ .acknowledge ∧ (Console.perform call p.console).1 = .error e ∧
          f = .failed e ∧ q.console = Console.next call p.console) ∧
        q.index = p.index ∧
        (step 4).run (q.onto p.console.inner) = (step 4).run (p.onto p.console.inner) ∧
        (step 4).run (q.onto p.console.inner) = .ok () r := by
  let s : Faulty Transcript := { inner := { cell := ⟨8, 16⟩ }, plan := [(.write, [1])] }
  let start : Playback (Faulty Transcript) :=
    { config := {}, console := s, speed := Binary64.ofInt 1 }
  have hc : create? s {} = .ok start := create_default s
  have ha : ∀ a ∈ beforeBatch, ∀ e, a.2 ≠ .absorb e := by
    simp [beforeBatch]
  obtain ⟨p, hp, hstep⟩ := exists_run_ok (x := accessAll beforeBatch) (p := start)
    (fun p => !p.paused && match (step 3).run p with
      | .ok _ _ => false
      | .error _ _ => true) (by decide +kernel)
  simp only [Bool.and_eq_true, Bool.not_eq_true'] at hstep
  obtain ⟨hplays, hfails⟩ := hstep
  split at hfails
  · cases hfails
  · rename_i f q hf
    obtain ⟨hcall, hindex, hretry⟩ := step_retry hc ha hp hplays hf
    obtain ⟨hagain, hworks⟩ := hretry p.console.inner 4
    obtain ⟨r, hr⟩ := hworks fun kind hkind => Transcript.serves hkind _
    exact ⟨start, p, q, f, r, hc, ha, hp, hplays, hf, hcall, hindex, hagain, hr⟩

end Playback
end SessionPlayback
