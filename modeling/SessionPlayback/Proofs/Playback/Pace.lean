import Mathlib.Data.List.Induction
import SessionPlayback.Proofs.Playback.Advance

/-!
What an operation does to the pace of a playback, whether it succeeds or fails: where the cursor
goes, whether the playback plays, how its timer is armed and which delay is saved. What is shown,
known, held or counted has no part in it.
-/

namespace SessionPlayback

def Operation.changesSpeed : Operation → Bool
  | .command .increaseSpeed => true
  | .command .decreaseSpeed => true
  | .command (.setSpeed _) => true
  | _ => false

namespace Playback

variable {σ : Type}

/-- The delay that belongs to the event at the cursor. The first event has none. -/
def wait (p : Playback σ) : Nanoseconds := if p.index = 0 then 0 else p.gap (p.index - 1) p.index

theorem gap_of_length_le {p : Playback σ} {first second : Nat} (h : p.events.length ≤ second) :
    p.gap first second = 0 := by
  unfold gap
  rw [List.getElem?_eq_none h]
  split
  · contradiction
  · rfl

theorem wait_of_length_le {p : Playback σ} (h : p.events.length ≤ p.index) : p.wait = 0 := by
  unfold wait
  rw [gap_of_length_le h]
  exact ite_self 0

/-- The same pace; the two may differ in what is shown, known, held or counted. -/
structure SamePace (p q : Playback σ) : Prop where
  config : q.config = p.config
  events : q.events = p.events
  index : q.index = p.index
  paused : q.paused = p.paused
  speed : q.speed = p.speed
  timer : q.timer = p.timer
  savedDelay : q.savedDelay = p.savedDelay

namespace SamePace

variable {p q : Playback σ}

theorem refl (p : Playback σ) : SamePace p p := ⟨rfl, rfl, rfl, rfl, rfl, rfl, rfl⟩

theorem trans {r : Playback σ} (hq : SamePace p q) (hr : SamePace q r) : SamePace p r :=
  ⟨hr.config.trans hq.config, hr.events.trans hq.events, hr.index.trans hq.index,
    hr.paused.trans hq.paused, hr.speed.trans hq.speed, hr.timer.trans hq.timer,
    hr.savedDelay.trans hq.savedDelay⟩

theorem gap (h : SamePace p q) (first second : Nat) : q.gap first second = p.gap first second := by
  simp only [Playback.gap, h.config, h.events, h.speed]

theorem wait (h : SamePace p q) : q.wait = p.wait := by
  unfold Playback.wait
  rw [h.index, h.gap]

theorem of_disturbed [Console σ] (h : Disturbed p q) : SamePace p q := by
  obtain ⟨calls, session, held, stopped, -, -, rfl⟩ := h
  exact ⟨rfl, rfl, rfl, rfl, rfl, rfl, rfl⟩

end SamePace

variable [Console σ]

inductive Resumes (fails : Prop) (now : Nanoseconds) (p : Playback σ) : Playback σ → Prop where
  | kept (q : Playback σ) (h : SamePace p q) : Resumes fails now p q
  /-- No event waits for the timer, or it was not reached. -/
  | unarmed (q : Playback σ) (hp : p.paused = true) (hi : p.index < p.events.length → fails)
      (h : SamePace { p with paused := false } q) : Resumes fails now p q
  | armed (s : Playback σ) (hp : p.paused = true) (hi : p.index < p.events.length)
      (h : SamePace { p with paused := false } s) :
      Resumes fails now p { s.arm now s.savedDelay with savedDelay := 0 }

inductive Paced (fails : Prop) (now : Nanoseconds) (p : Playback σ) :
    Operation → Playback σ → Prop where
  | kept (op : Operation) (q : Playback σ) (h : SamePace p q) : Paced fails now p op q
  /-- A step that takes no event, or fails. -/
  | dropped (q : Playback σ) (hp : p.paused = true → q.paused = true)
      (h : SamePace { p with timer := none, paused := q.paused } q) : Paced fails now p .step q
  /-- A paused live session takes an event. -/
  | taken (q : Playback σ) (hp : p.paused = true) (hi : p.index < p.events.length)
      (h : SamePace { p with timer := none, index := p.index + 1 } q) : Paced fails now p .step q
  | shown (s : Playback σ) (hp : p.paused = false) (hi : p.index < p.events.length)
      (h : SamePace { p with timer := none, index := p.index + 1 } s) :
      Paced fails now p .step (s.scheduleNext now)
  | resumed (op : Operation) (q : Playback σ) (h : Resumes fails now p q) : Paced fails now p op q
  | paused (op : Operation) : Paced fails now p op (p.pause now)
  /-- A seek that fails. -/
  | halted (op : Operation) (q : Playback σ) (h : SamePace (p.halted now) q) :
      Paced fails now p op q
  | landed (op : Operation) (target : Nat) (s : Playback σ) (h : SamePace (p.halted now) s) :
      Paced fails now p op (s.landed target)
  | loaded (op : Operation) (events : List Event) : Paced fails now p op (p.load events)
  | disconnected (op : Operation) : Paced fails now p op (p.setDisconnected now)
  | cleared (op : Operation) (q : Playback σ)
      (h : SamePace { p with
        events := [], index := 0, paused := true, speed := q.speed, timer := none,
        savedDelay := 0 } q) : Paced fails now p op q
  | respeeded (op : Operation) (q : Playback σ) (hop : op.changesSpeed = true)
      (hp : p.paused = true) (h : SamePace { p with speed := q.speed } q) : Paced fails now p op q
  /-- The delay cannot be scaled. -/
  | stuck (op : Operation) (speed : Binary64) (hop : op.changesSpeed = true)
      (hp : p.paused = false) : Paced fails now p op { p.pause now with speed }
  | rescaled (op : Operation) (speed : Binary64) (delay : Nanoseconds) (q : Playback σ)
      (hop : op.changesSpeed = true) (hp : p.paused = false)
      (hd : Delay.scale? (p.pause now).savedDelay (p.speed / speed) = some delay)
      (h : Resumes fails now (p.rescaled now speed delay) q) : Paced fails now p op q

variable {fails : Prop} {p q : Playback σ} {now : Nanoseconds}

theorem Resumes.of_ok (h : (play now).run p = .ok () q) : Resumes fails now p q := by
  cases play_ok h with
  | already => exact .kept _ (.refl p)
  | ended => exact .kept _ ⟨rfl, rfl, rfl, rfl, rfl, rfl, rfl⟩
  | resumed n hp =>
    have hs : SamePace { p with paused := false } (p.resumed.delivered n) :=
      ⟨rfl, rfl, rfl, rfl, rfl, rfl, rfl⟩
    unfold rearmed
    split
    · rename_i hi
      exact .armed _ hp hi hs
    · rename_i hi
      exact .unarmed _ hp (fun hlt => absurd hlt hi) hs

theorem Resumes.of_error {f : Fault} (h : (play now).run p = .error f q) :
    Resumes True now p q := by
  rcases play_error h with hq | hq
  · exact .kept _ (.of_disturbed hq.disturbed)
  · obtain ⟨calls, held, -, rfl⟩ := hq
    cases hp : p.paused with
    | true => exact .unarmed _ hp (fun _ => trivial) ⟨rfl, rfl, rfl, rfl, rfl, rfl, rfl⟩
    | false => exact .kept _ ⟨rfl, rfl, rfl, hp.symm, rfl, rfl, rfl⟩

omit [Console σ] in
theorem Resumes.speed_eq (h : Resumes fails now p q) : q.speed = p.speed := by
  cases h with
  | kept _ h => exact h.speed
  | unarmed _ _ _ h => exact h.speed
  | armed s _ _ h => exact h.speed

namespace Paced

theorem of_step_ok (h : (step now).run p = .ok () q) : Paced fails now p .step q := by
  cases step_ok h with
  | resting hp => exact .dropped _ (fun _ => hp) ⟨rfl, rfl, rfl, rfl, rfl, rfl, rfl⟩
  | idle =>
    refine .dropped _ (fun hp => ?_) ⟨rfl, rfl, rfl, rfl, rfl, rfl, rfl⟩
    simp [hp]
  | held e hp _ he =>
    exact .taken _ hp (List.getElem?_eq_some_iff.mp he).1 ⟨rfl, rfl, rfl, rfl, rfl, rfl, rfl⟩
  | shown e n hp he =>
    exact .shown _ hp (List.getElem?_eq_some_iff.mp he).1 ⟨rfl, rfl, rfl, rfl, rfl, rfl, rfl⟩

theorem of_step_error {f : Fault} (h : (step now).run p = .error f q) :
    Paced fails now p .step q := by
  obtain ⟨e, hp, -, calls, held, -, rfl⟩ := step_error h
  refine .dropped _ (fun hn => ?_) ⟨rfl, rfl, rfl, rfl, rfl, rfl, rfl⟩
  simp [hp] at hn

theorem of_moveTo (op : Operation) (target : Nat) :
    Ends (Paced False now p op) (Paced True now p op) (moveTo now target) p := by
  apply Ends.of_run
  · intro q h
    cases moveTo_ok h with
    | stayed => exact .kept op _ (.refl p)
    | forward s _ _ hs =>
      refine .landed op target s ?_
      rw [hs]
      exact .of_disturbed (absorbed_disturbed _ _)
    | back s _ _ _ hs =>
      refine .landed op target s ?_
      rw [hs]
      exact .of_disturbed ((rewound_disturbed _).trans (absorbed_disturbed _ _))
  · intro f q h
    exact .halted op q (.of_disturbed (moveTo_error h))

theorem of_play (op : Operation) :
    Ends (Paced False now p op) (Paced True now p op) (play now) p := by
  apply Ends.of_run
  · intro q h
    exact .resumed op q (.of_ok h)
  · intro f q h
    exact .resumed op q (.of_error h)

theorem of_changeSpeed {op : Operation} (hop : op.changesSpeed = true) (requested : Binary64) :
    Ends (Paced False now p op) (Paced True now p op) (changeSpeed now requested) p := by
  unfold Ends
  simp only [changeSpeed, EStateM.run_bind, EStateM.run_get]
  cases p.config.clampSpeed? requested with
  | none => exact .kept op _ (.refl p)
  | some speed =>
    cases hp : p.paused with
    | true => exact .respeeded op _ hop hp ⟨rfl, rfl, rfl, hp.symm, rfl, rfl, rfl⟩
    | false =>
      simp only [Bool.false_eq_true, ↓reduceIte, EStateM.run_bind, EStateM.run_set]
      cases hd : Delay.scale? (p.pause now).savedDelay (p.speed / speed) with
      | none => exact .stuck op speed hop hp
      | some delay =>
        have hplay : Ends (Resumes False now (p.rescaled now speed delay))
            (Resumes True now (p.rescaled now speed delay)) (play now)
            (p.rescaled now speed delay) :=
          .of_run (fun _ h => .of_ok h) fun _ _ h => .of_error h
        have hpaced : Ends (Paced False now p op) (Paced True now p op) (play now)
            (p.rescaled now speed delay) :=
          .of_run (fun _ h => .rescaled op speed delay _ hop hp hd (hplay.of_ok h))
            fun _ _ h => .rescaled op speed delay _ hop hp hd (hplay.of_error h)
        exact hpaced

theorem of_reset (op : Operation) :
    Ends (Paced False now p op) (Paced True now p op) reset p := by
  have hperform {start q : Playback σ} (call : Call) (hq : SamePace start q) :
      Ends (SamePace start) (SamePace start) (perform call) q := by
    unfold Ends
    rw [perform_run]
    cases (Console.perform call q.console).1 <;> exact hq.trans ⟨rfl, rfl, rfl, rfl, rfl, rfl, rfl⟩
  unfold Ends
  simp only [reset, EStateM.run_bind, EStateM.run_modify, EStateM.run_get]
  cases p.config.clampSpeed? p.config.speed with
  | none => exact .cleared op _ ⟨rfl, rfl, rfl, rfl, rfl, rfl, rfl⟩
  | some speed =>
    simp only [EStateM.run_bind, EStateM.run_set]
    let start : Playback σ := { p with
      events := [], index := 0, paused := true, speed, session := {}, held := {}, timer := none,
      savedDelay := 0, stopped := false, pendingAcks := 0, acked := 0 }
    have hcalls : Ends (SamePace start) (SamePace start) (do
        perform .reset
        perform .clear
        perform (.resize p.config.initialGeometry)) start :=
      .bind (hperform _ (.refl start)) fun _ hr => .bind (hperform _ hr) fun _ hc => hperform _ hc
    have hcleared {fails : Prop} (q : Playback σ) (hq : SamePace start q) :
        Paced fails now p op q := by
      refine .cleared op q ?_
      rw [hq.speed]
      exact ⟨hq.config, hq.events, hq.index, hq.paused, hq.speed, hq.timer, hq.savedDelay⟩
    exact Ends.of_run (fun q h => hcleared q (hcalls.of_ok h))
      fun _ q h => hcleared q (hcalls.of_error h)

/-- An operation has one of these outcomes, and one of those of a failure only if it fails. -/
theorem of_operate (op : Operation) :
    Ends (Paced False now p op) (Paced True now p op) (operate now op) p := by
  have hmodify (f : Playback σ → Playback σ) {op : Operation} (h : Paced False now p op (f p)) :
      Ends (Paced False now p op) (Paced True now p op) (modify f) p := h
  cases op with
  | step => exact .of_run (fun _ h => of_step_ok h) fun _ _ h => of_step_error h
  | command c =>
    cases c with
    | play => exact of_play _
    | pause => exact hmodify _ (.paused _)
    | toggle =>
      cases hp : p.paused with
      | true => exact .congr (by rw [operate, carryOut, toggle_run, hp]; rfl) (of_play _)
      | false =>
        exact .congr (by rw [operate, carryOut, toggle_run, hp]; rfl) (hmodify _ (.paused _))
    | next => exact of_moveTo _ p.index
    | previous =>
      by_cases hi : 2 ≤ p.index
      · exact .congr (by rw [operate, carryOut, previous_run, if_pos hi]) (of_moveTo _ _)
      · exact .congr (by rw [operate, carryOut, previous_run, if_neg hi]; rfl)
          (hmodify id (.kept _ _ (.refl p)))
    | seek target => exact of_moveTo _ target
    | increaseSpeed => exact of_changeSpeed rfl _
    | decreaseSpeed => exact of_changeSpeed rfl _
    | setSpeed speed => exact of_changeSpeed rfl speed
    | load events => exact hmodify _ (.loaded _ events)
    | setLive => exact hmodify _ (.kept _ _ ⟨rfl, rfl, rfl, rfl, rfl, rfl, rfl⟩)
    | setDisconnected => exact hmodify _ (.disconnected _)
    | reset => exact of_reset _
    | shutdown => exact hmodify id (.kept _ _ (.refl p))

theorem of_attempt (now : Nanoseconds) (op : Operation) (p : Playback σ) :
    Paced (∃ f q, (operate now op).run p = .error f q) now p op (p.attempt now op) := by
  have hends : Ends (Paced False now p op) (Paced True now p op) (operate now op) p :=
    of_operate op
  unfold attempt
  cases hr : (operate now op).run p with
  | ok u q =>
    have hn : ¬∃ f r, (EStateM.Result.ok u q : EStateM.Result Fault (Playback σ) Unit) =
        .error f r := by
      rintro ⟨f, r, h⟩
      cases h
    rw [eq_false hn]
    exact hends.of_ok hr
  | error f q =>
    have hf : ∃ g r, (EStateM.Result.error f q : EStateM.Result Fault (Playback σ) Unit) =
        .error g r := ⟨f, q, rfl⟩
    rw [eq_true hf]
    exact hends.of_error hr

end Paced

/-- What holds at the start of a run and is passed on by each operation holds at its end. Unlike
with `attemptAll_keeps` it may depend on the operations so far. -/
theorem attemptAll_reaches {I : List (Nanoseconds × Operation) → Playback σ → Prop}
    {start : Playback σ} (hstart : I [] start)
    (hstep : ∀ ops now op, I ops (attemptAll ops start) →
      I (ops ++ [(now, op)]) ((attemptAll ops start).attempt now op))
    (ops : List (Nanoseconds × Operation)) : I ops (attemptAll ops start) := by
  induction ops using List.reverseRecOn with
  | nil => exact hstart
  | append_singleton ops o ih =>
    rw [attemptAll_append]
    exact hstep ops o.1 o.2 ih

end Playback
end SessionPlayback
