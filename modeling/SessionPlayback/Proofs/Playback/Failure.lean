import SessionPlayback.Proofs.Playback.Operation

/-!
Where the failure of an operation shows. An operation that fails has made a call that failed and was
no acknowledgement, or else has made no call at all; and no operation that fails has acknowledged
anything.
-/

namespace SessionPlayback.Playback

variable {σ : Type}

/-- If the operation fails, a call has failed that was no acknowledgement. -/
def Breaks (x : Action (Traced σ) Unit) : Prop :=
  ∀ p f q, x.run p = .error f q → q.console.Broken

namespace Breaks

variable {x : Action (Traced σ) Unit}

theorem of_modify (f : Playback (Traced σ) → Playback (Traced σ)) : Breaks (modify f) := by
  intro p e q h
  cases h

theorem of_pure : Breaks (σ := σ) (pure ()) := by
  intro p e q h
  cases h

theorem of_get {f : Playback (Traced σ) → Action (Traced σ) Unit} (h : ∀ p, Breaks (f p)) :
    Breaks (get >>= f) :=
  fun p e q hq => h p p e q hq

theorem bind {f : Unit → Action (Traced σ) Unit} (hx : Breaks x) (hf : Breaks (f ())) :
    Breaks (x >>= f) := by
  intro p e q h
  rcases run_bind_error_iff.mp h with h | ⟨r, -, h⟩
  · exact hx p e q h
  · exact hf r e q h

variable [Console σ]

theorem of_perform {call : Call} (hc : call ≠ .acknowledge) :
    Breaks (σ := σ) (Playback.perform call) := by
  intro p f q h
  rw [perform_run] at h
  split at h
  · cases h
  · rename_i e he
    cases h
    refine ⟨call, hc, ?_⟩
    rw [Traced.perform_fst] at he
    simp [called, Console.next, Console.perform, Traced.perform, he, Except.isOk, Except.toBool]

theorem flush : Breaks (σ := σ) Playback.flush := by
  refine bind (.of_get fun p => ?_) (bind (.of_get fun p => ?_) (.of_get fun p => ?_))
  · split
    · exact of_pure
    · exact bind (of_modify _) (of_perform (by simp))
  · split
    · exact of_pure
    · exact bind (of_modify _) (of_perform (by simp))
  · split
    · exact of_pure
    · exact bind (of_modify _) (of_perform (by simp))

theorem step (now : Nanoseconds) : Breaks (σ := σ) (Playback.step now) := by
  intro p f q h
  cases he : p.events[p.index]? with
  | none =>
    rw [step_run_none he] at h
    cases h
  | some e =>
    rw [step_run_some he] at h
    split at h
    · cases h
    · split at h
      · cases h
      · have hb : Breaks (σ := σ) (showTaken now) := bind flush (of_modify _)
        exact hb _ f q h

theorem play (now : Nanoseconds) : Breaks (σ := σ) (Playback.play now) := by
  intro p f q h
  rw [play_run] at h
  split at h
  · cases h
  · split at h
    · exact flush p f q h
    · have hb : Breaks (σ := σ) (showResumed now) := bind flush (of_modify _)
      exact hb _ f q h

theorem rewind : Breaks (σ := σ) Playback.rewind :=
  bind (of_perform (by simp)) (bind (of_perform (by simp)) (of_modify _))

theorem land (target : Nat) (events : List Event) (live : Bool) :
    Breaks (σ := σ) (Playback.land target events live) :=
  bind (of_modify _) (bind flush (of_modify _))

theorem moveTo (now : Nanoseconds) (target : Nat) :
    Breaks (σ := σ) (Playback.moveTo now target) := by
  intro p f q h
  rw [moveTo_run] at h
  split at h
  · cases h
  · split at h
    · exact bind rewind (land _ _ _) _ f q h
    · exact land _ _ _ _ f q h

end Breaks

variable [Console σ]

theorem changeSpeed_error_broken {now : Nanoseconds} {requested : Binary64}
    {p q : Playback (Traced σ)} {f : Fault}
    (h : (changeSpeed now requested).run p = .error f q) :
    q.console.Broken ∨ q = p ∨ ∃ speed delay, q = p.rescaled now speed delay := by
  rcases changeSpeed_error h with rfl | ⟨speed, delay, -, rfl | hq⟩
  · exact .inr (.inl rfl)
  · exact .inr (.inr ⟨speed, delay, rfl⟩)
  · exact .inl (Breaks.play now _ f q hq)

/-- Without a failed call an operation gives up on account of the speed only, and before it plays
again. -/
theorem operate_error_broken {now : Nanoseconds} {op : Operation} {p q : Playback (Traced σ)}
    {f : Fault} (hk : op.keepsMode = true) (h : (operate now op).run p = .error f q) :
    q.console.Broken ∨ q = p ∨ ∃ speed delay, q = p.rescaled now speed delay := by
  cases op with
  | step => exact .inl (Breaks.step now p f q h)
  | command c =>
    simp only [operate] at h
    cases c with
    | play => exact .inl (Breaks.play now p f q h)
    | pause => cases h
    | toggle =>
      rw [carryOut, toggle_run] at h
      split at h
      · exact .inl (Breaks.play now p f q h)
      · cases h
    | next => exact .inl (Breaks.moveTo now p.index p f q h)
    | previous =>
      rw [carryOut, previous_run] at h
      split at h
      · exact .inl (Breaks.moveTo now _ p f q h)
      · cases h
    | seek target => exact .inl (Breaks.moveTo now target p f q h)
    | increaseSpeed => exact changeSpeed_error_broken h
    | decreaseSpeed => exact changeSpeed_error_broken h
    | setSpeed speed => exact changeSpeed_error_broken h
    | load events => cases h
    | setLive => cases hk
    | setDisconnected => cases hk
    | reset => cases hk
    | shutdown => cases h

/-- An operation that fails has acknowledged nothing. -/
theorem calls_of_failed {now : Nanoseconds} {p q : Playback σ} (h : Failed now p q) :
    ∃ calls, .acknowledge ∉ calls ∧ q.console = Console.after calls p.console := by
  have hspilled {t : Playback σ} (hc : t.console = p.console) (h : Spilled t q) :
      ∃ calls, .acknowledge ∉ calls ∧ q.console = Console.after calls p.console := by
    obtain ⟨calls, held, ha, rfl⟩ := h
    exact ⟨calls, ha, congrArg (Console.after calls) hc⟩
  have hrescaled (speed : Binary64) (delay : Nanoseconds) :
      (p.rescaled now speed delay).console = p.console := by
    obtain ⟨timer, saved, hs⟩ := pause_frame now p
    rw [rescaled, hs]
  cases h with
  | stepped e _ _ _ h => exact hspilled (t := p.taken e) rfl h
  | played _ h => exact h.elim (hspilled rfl) (hspilled (t := p.resumed) rfl)
  | unchanged => exact ⟨[], by simp, rfl⟩
  | rescaled speed delay => exact ⟨[], by simp, hrescaled speed delay⟩
  | replayed speed delay _ h =>
    exact h.elim (hspilled (hrescaled speed delay)) (hspilled (hrescaled speed delay))
  | moved _ h =>
    obtain ⟨calls, _, _, _, ha, -, rfl⟩ := h
    refine ⟨calls, ha, ?_⟩
    rw [halted_eq]
    rfl

end SessionPlayback.Playback
