import SessionPlayback.Console.Transcript
import SessionPlayback.Playback.Run
import SessionPlayback.Proofs.Playback.Advance
import SessionPlayback.Proofs.Playback.Replay

/-!
What a live session takes by itself. Draining ends when nothing can be taken any more. While the
session is paused only events that have not been counted are taken, so a seek back stays where it
went exactly if the event in front of it had been counted; counting goes no further than events that
were stepped or played over, and a seek over others leaves them to be taken again.
-/

namespace SessionPlayback.Playback

variable {σ : Type}

theorem wantsStep_iff {p : Playback σ} : p.wantsStep = true ↔
    p.isLive = true ∧ p.timer = none ∧ p.index < p.events.length ∧
      (p.paused = true → p.acked ≤ p.index) := by
  cases hp : p.paused <;> simp [wantsStep, hp, and_assoc]

variable [Console σ]

/-- A step that a live session wants takes the event at the cursor. -/
theorem step_of_wantsStep {now : Nanoseconds} {p q : Playback σ} (hw : p.wantsStep = true)
    (hq : Stepped now p q) : q.index = p.index + 1 ∧ q.events = p.events := by
  obtain ⟨hl, -, hi, -⟩ := wantsStep_iff.mp hw
  cases hq with
  | resting _ hn => simp [hl] at hn
  | idle he =>
    have := List.getElem?_eq_none_iff.mp he
    omega
  | held => exact ⟨rfl, rfl⟩
  | shown e n =>
    obtain ⟨timer, paused, hs⟩ :=
      scheduleNext_frame { (p.taken e).delivered n with index := p.index + 1 } now
    rw [hs]
    exact ⟨rfl, rfl⟩

theorem drainFor_run (now : Nanoseconds) (bound : Nat) (p : Playback σ) :
    (drainFor now (bound + 1)).run p =
      if p.wantsStep then (do step now; drainFor now bound : Action σ Unit).run p
      else .ok () p := by
  simp only [drainFor, EStateM.run_bind, EStateM.run_get]
  split <;> rfl

/-- What every step keeps, draining keeps; and draining ends when no step is wanted. -/
theorem drainFor_ok {I : Playback σ → Prop} {now : Nanoseconds} {bound : Nat}
    {p q : Playback σ} (hstep : ∀ p q, Stepped now p q → I p → I q) (hb : p.remaining ≤ bound)
    (h : (drainFor now bound).run p = .ok () q) (hp : I p) : I q ∧ q.wantsStep = false := by
  induction bound generalizing p with
  | zero =>
    cases h
    refine ⟨hp, eq_false_of_ne_true fun hw => ?_⟩
    have hi := (wantsStep_iff.mp hw).2.2.1
    simp only [remaining] at hb
    omega
  | succ bound ih =>
    rw [drainFor_run] at h
    split at h
    · rename_i hw
      obtain ⟨r, hr, hq⟩ := run_bind_ok_iff.mp h
      obtain ⟨hi, he⟩ := step_of_wantsStep hw (step_ok hr)
      refine ih ?_ hq (hstep _ _ (step_ok hr) hp)
      simp only [remaining] at hb ⊢
      rw [hi, he]
      omega
    · rename_i hw
      cases h
      exact ⟨hp, eq_false_of_ne_true hw⟩

theorem drain_ok {I : Playback σ → Prop} {now : Nanoseconds} {p q : Playback σ}
    (hstep : ∀ p q, Stepped now p q → I p → I q) (h : (drain now).run p = .ok () q)
    (hp : I p) : I q ∧ q.wantsStep = false := by
  simp only [drain, EStateM.run_bind, EStateM.run_get] at h
  exact drainFor_ok hstep (Nat.le_refl _) h hp

theorem drain_of_not_wantsStep {now : Nanoseconds} {p : Playback σ}
    (hw : p.wantsStep = false) : (drain now).run p = .ok () p := by
  simp only [drain, EStateM.run_bind, EStateM.run_get]
  cases p.remaining with
  | zero => rfl
  | succ bound => rw [drainFor_run, hw]; rfl

/-- A paused live session that may take the event at its cursor takes all that follow it. -/
theorem drain_of_paused (now : Nanoseconds) {p : Playback σ} (hl : p.isLive = true)
    (hp : p.paused = true) (ht : p.timer = none) (ha : p.acked ≤ p.index)
    (hi : p.index ≤ p.events.length) :
    ∃ q, (drain now).run p = .ok () q ∧ q.index = p.events.length := by
  suffices h : ∀ bound, p.remaining = bound →
      ∃ q, (drainFor now bound).run p = .ok () q ∧ q.index = p.events.length by
    simpa only [drain, EStateM.run_bind, EStateM.run_get] using h _ rfl
  intro bound hb
  -- The bound is the number of events in front of the cursor; counting never gets ahead of it.
  induction bound generalizing p with
  | zero =>
    simp only [remaining] at hb
    exact ⟨p, rfl, by omega⟩
  | succ bound ih =>
    simp only [remaining] at hb
    have hlt : p.index < p.events.length := by omega
    have hw : p.wantsStep = true := wantsStep_iff.mpr ⟨hl, ht, hlt, fun _ => ha⟩
    have he : p.events[p.index]? = some p.events[p.index] := List.getElem?_eq_getElem hlt
    let r : Playback σ := { p.taken p.events[p.index] with index := p.index + 1 }
    have hs : (step now).run p = .ok () r := by
      rw [step_run_some he, hp, hl]
      rfl
    have hacked : r.acked ≤ r.index := by
      change p.acked + p.uncounted (p.index + 1) ≤ p.index + 1
      simp only [uncounted, hl, ↓reduceIte]
      omega
    have hrem : r.remaining = bound := by
      change p.events.length - (p.index + 1) = bound
      omega
    have hrl : r.isLive = true := (Metadata.after_live p.session _).trans hl
    obtain ⟨q, hq, hqi⟩ := ih hrl hp rfl hacked hlt hrem
    refine ⟨q, ?_, hqi⟩
    rw [drainFor_run, hw]
    exact run_bind_ok_iff.mpr ⟨r, hs, hq⟩

/-- A session that is live from the beginning and paused takes an event only if none further on has
been counted. If the cursor has been further on, a seek had put it there, over events that were not
counted. After a seek back the session stays there exactly if the event in front of it had been
counted; otherwise it takes all events once more. -/
theorem cursor_of_paused_live {s : σ} {config : Config} {p q : Playback σ}
    {ops : List (Nanoseconds × Operation)} (hc : create? s config = .ok p)
    (hops : ∀ o ∈ ops, o.2.keepsMode = true) (hq : q = attemptAll ops p.setLive) :
    (q.paused = true → q.wantsStep = true → ∀ front, front <+: ops →
      (attemptAll front p.setLive).index ≤ q.index ∨
        (attemptAll front p.setLive).acked < (attemptAll front p.setLive).index) ∧
      (∀ now now' target r, target + 1 < q.index → (moveTo now target).run q = .ok () r →
        ∃ t, (drain now').run r = .ok () t ∧
          t.index = if target + 1 < q.acked then target + 1 else q.events.length) := by
  have hstart : p.setLive.isLive = true ∧ p.setLive.index ≤ p.setLive.events.length := by
    obtain ⟨speed, -, rfl⟩ := create_eq hc
    exact ⟨rfl, Nat.le_refl 0⟩
  have hrun : p.setLive.Advances q := hq ▸ attemptAll_advances hops p.setLive
  have hlive : q.isLive = true := hrun.isLive_eq.trans hstart.1
  constructor
  · rintro hp hw front ⟨back, rfl⟩
    have hadv : (attemptAll front p.setLive).Advances q := by
      rw [hq, attemptAll_append]
      exact attemptAll_advances (fun o ho => hops o (List.mem_append_right front ho)) _
    have hacked := hadv.acked_le
    have hcounted := (wantsStep_iff.mp hw).2.2.2 hp
    omega
  · intro now now' target r hback hr
    have hi : q.index ≤ q.events.length := hrun.index_le hstart.2
    have hland : r.index = target + 1 := by
      cases moveTo_ok hr with
      | stayed hs => omega
      | forward => rfl
      | back => rfl
    rcases (moveTo_ok hr).disturbed with rfl | ⟨ht, s, delay, hd, rfl⟩
    · omega
    · obtain ⟨calls, session, _, _, -, hl, rfl⟩ := hd
      rw [halted_eq]
      have hl : session.live = true := by
        rw [hl, halted_eq]
        exact hlive
      split
      · rename_i hlt
        refine ⟨_, drain_of_not_wantsStep (eq_false_of_ne_true fun hw => ?_), rfl⟩
        have ha : q.acked ≤ target + 1 := (wantsStep_iff.mp hw).2.2.2 rfl
        omega
      · rename_i hge
        exact drain_of_paused now' hl rfl rfl (Nat.le_of_not_lt hge) ht

def batch : Nanoseconds × Operation :=
  (0, .command (.load [.incoming 0 [97], .incoming 1 [98], .incoming 2 [99], .incoming 3 [100]]))

/-- Three of four events have been taken when the session seeks back to the first. -/
theorem cursor_after_counted_events : ∃ p q r t : Playback Transcript,
    create? { cell := ⟨8, 16⟩ } {} = .ok p ∧
      (∀ o ∈ [batch, (1, .step), (2, .step), (3, .step)], o.2.keepsMode = true) ∧
      q = attemptAll [batch, (1, .step), (2, .step), (3, .step)] p.setLive ∧
      q.paused = true ∧ q.wantsStep = true ∧
      (∀ front, front <+: [batch, (1, .step), (2, .step), (3, .step)] →
        (attemptAll front p.setLive).index ≤ q.index ∨
          (attemptAll front p.setLive).acked < (attemptAll front p.setLive).index) ∧
      0 + 1 < q.index ∧ (moveTo 4 0).run q = .ok () r ∧ (drain 5).run r = .ok () t ∧
      t.index = 0 + 1 := by
  let p : Playback Transcript :=
    { config := {}, console := { cell := ⟨8, 16⟩ }, speed := Binary64.ofInt 1 }
  let q := attemptAll [batch, (1, .step), (2, .step), (3, .step)] p.setLive
  have hc : create? { cell := ⟨8, 16⟩ } {} = .ok p := create_default _
  have hops : ∀ o ∈ [batch, (1, .step), (2, .step), (3, .step)], o.2.keepsMode = true := by
    decide
  obtain ⟨hfurther, hback⟩ := cursor_of_paused_live hc hops (rfl : q = _)
  have hp : q.paused = true := by decide +kernel
  have hw : q.wantsStep = true := by decide +kernel
  have hi : 0 + 1 < q.index := by decide +kernel
  have ha : 0 + 1 < q.acked := by decide +kernel
  obtain ⟨r, hr, -⟩ := exists_run_ok (x := moveTo 4 0) (p := q) (fun _ => true)
    (by decide +kernel)
  obtain ⟨t, ht, hti⟩ := hback 4 5 0 r hi hr
  rw [if_pos ha] at hti
  exact ⟨p, q, r, t, hc, hops, rfl, hp, hw, hfurther hp hw, hi, hr, ht, hti⟩

/-- A seek goes over four events without counting them. After a seek back to the second the paused
session takes the last two once more. -/
theorem taken_again_after_seek_back : ∃ p q r t : Playback Transcript,
    create? { cell := ⟨8, 16⟩ } {} = .ok p ∧
      (operateAll [batch, (1, .command (.seek 3))]).run p.setLive = .ok () q ∧ q.index = 4 ∧
      (operateAll [(2, .command (.seek 1))]).run q = .ok () r ∧
      r.paused = true ∧ r.wantsStep = true ∧ r.index = 2 ∧
      (drain 3).run r = .ok () t ∧ t.index = 4 := by
  let p : Playback Transcript :=
    { config := {}, console := { cell := ⟨8, 16⟩ }, speed := Binary64.ofInt 1 }
  have h : succeedsWith (operateAll [batch, (1, .command (.seek 3))]) (fun q =>
      decide (q.index = 4) && succeedsWith (operateAll [(2, .command (.seek 1))]) (fun r =>
        r.paused && r.wantsStep && decide (r.index = 2) &&
          succeedsWith (drain 3) (fun t => decide (t.index = 4)) r) q) p.setLive = true := by
    decide +kernel
  obtain ⟨q, hq, h⟩ := exists_of_succeedsWith h
  obtain ⟨hqi, h⟩ := Bool.and_eq_true_iff.mp h
  obtain ⟨r, hr, h⟩ := exists_of_succeedsWith h
  simp only [Bool.and_eq_true, decide_eq_true_eq] at hqi h
  obtain ⟨⟨⟨hp, hw⟩, hri⟩, h⟩ := h
  obtain ⟨t, ht, hti⟩ := exists_of_succeedsWith h
  exact ⟨p, q, r, t, create_default _, hq, hqi, hr, hp, hw, hri, ht, of_decide_eq_true hti⟩

end SessionPlayback.Playback
