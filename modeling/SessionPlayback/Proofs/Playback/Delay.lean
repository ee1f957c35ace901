import SessionPlayback.Console.Transcript
import SessionPlayback.Proofs.Playback.Pace
import SessionPlayback.Proofs.Playback.Replay

/-!
How long a playback waits. The gaps between events are cut at the longest pause that the settings
allow, and a delay that was saved belongs to the event in front of which it was saved. Each rule has
one exception: a change of speed scales what is left of a delay without cutting it again, and a step
of a paused live session goes on to the next event with the delay that was saved.
-/

namespace SessionPlayback.Playback

variable {σ : Type}

theorem gap_le_maxIdle {p : Playback σ} {cap : Nanoseconds} (h : p.config.maxIdle = some cap)
    (first second : Nat) : p.gap first second ≤ cap := by
  unfold gap
  split
  · simp only [h]
    exact Nat.min_le_right _ _
  · exact Nat.zero_le cap

theorem wait_load_le (p : Playback σ) (events : List Event) : p.wait ≤ (p.load events).wait := by
  by_cases hi : p.index < p.events.length
  · have hget (i : Nat) (hlt : i < p.events.length) : (p.events ++ events)[i]? = p.events[i]? :=
      List.getElem?_append_left hlt
    apply Nat.le_of_eq
    change p.wait = if p.index = 0 then 0 else (p.load events).gap (p.index - 1) p.index
    unfold wait gap
    simp only [load, hget p.index hi, hget (p.index - 1) (by omega)]
  · rw [wait_of_length_le (Nat.le_of_not_lt hi)]
    exact Nat.zero_le _

/-- The timer of a playback after its next event has been scheduled, if it was off before. -/
theorem scheduleNext_timer {p : Playback σ} {now : Nanoseconds} {timer : Timer}
    (ht : p.timer = none) (h : (p.scheduleNext now).timer = some timer) :
    timer.delay = p.gap (p.index - 1) p.index := by
  unfold scheduleNext at h
  split at h
  · simp [ht] at h
  · split at h
    · cases h
      rfl
    · split at h <;> simp [ht] at h

structure DelaysWithin (ok : Nanoseconds → Prop) (p : Playback σ) : Prop where
  timer : ∀ timer, p.timer = some timer → ok timer.delay
  saved : ok p.savedDelay

namespace DelaysWithin

variable {ok : Nanoseconds → Prop} {p q : Playback σ} {now : Nanoseconds}

theorem of_eq (h : p.DelaysWithin ok) (ht : q.timer = p.timer)
    (hs : q.savedDelay = p.savedDelay) : q.DelaysWithin ok := by
  obtain ⟨htimer, hsaved⟩ := h
  rw [← ht] at htimer
  rw [← hs] at hsaved
  exact ⟨htimer, hsaved⟩

theorem of_unarmed (ht : p.timer = none) (hs : ok p.savedDelay) : p.DelaysWithin ok :=
  ⟨fun timer h => by simp [ht] at h, hs⟩

theorem mono {weaker : Nanoseconds → Prop} (h : p.DelaysWithin ok)
    (hw : ∀ delay, ok delay → weaker delay) : p.DelaysWithin weaker :=
  ⟨fun timer ht => hw _ (h.timer timer ht), hw _ h.saved⟩

/-- What is left of a delay is no more than the delay. -/
theorem pause (hdown : ∀ a b, a ≤ b → ok b → ok a) (h : p.DelaysWithin ok)
    (now : Nanoseconds) : (p.pause now).DelaysWithin ok := by
  cases hp : p.paused with
  | true =>
    rw [pause_of_paused now hp]
    exact h
  | false =>
    rw [pause_of_playing now hp]
    refine of_unarmed rfl ?_
    cases ht : p.timer with
    | none => exact h.saved
    | some timer => exact hdown _ _ (Nat.sub_le _ _) (h.timer timer ht)

variable {fails : Prop}

theorem resumes (hdown : ∀ a b, a ≤ b → ok b → ok a) (h : p.DelaysWithin ok)
    (hq : Resumes fails now p q) : q.DelaysWithin ok := by
  cases hq with
  | kept _ hs => exact h.of_eq hs.timer hs.savedDelay
  | unarmed _ _ _ hs => exact h.of_eq hs.timer hs.savedDelay
  | armed s _ _ hs =>
    refine ⟨fun timer ht => ?_, hdown _ _ (Nat.zero_le _) h.saved⟩
    cases ht
    exact hs.savedDelay ▸ h.saved

variable [Console σ]

/-- Every operation keeps a bound that the gaps satisfy, and the delay to which a change of speed
scales what was left. -/
theorem paced {op : Operation} (hdown : ∀ a b, a ≤ b → ok b → ok a)
    (hgap : ∀ s : Playback σ, s.config = p.config → ∀ first second, ok (s.gap first second))
    (hscale : ∀ delay, op.changesSpeed = true → p.paused = false →
      Delay.scale? (p.pause now).savedDelay (p.speed / q.speed) = some delay → ok delay)
    (h : p.DelaysWithin ok) (hq : Paced fails now p op q) : q.DelaysWithin ok := by
  have hzero : ok 0 := hdown _ _ (Nat.zero_le _) h.saved
  have hconfig : (p.halted now).config = p.config := by rw [halted_eq]
  have hpause := h.pause hdown now
  cases hq with
  | kept _ _ hs => exact h.of_eq hs.timer hs.savedDelay
  | dropped _ _ hs => exact of_unarmed hs.timer (hs.savedDelay ▸ h.saved)
  | taken _ _ _ hs => exact of_unarmed hs.timer (hs.savedDelay ▸ h.saved)
  | shown s _ _ hs =>
    obtain ⟨timer, paused, hnext⟩ := scheduleNext_frame s now
    constructor
    · intro timer ht
      rw [scheduleNext_timer hs.timer ht]
      exact hgap s hs.config _ _
    · rw [hnext]
      exact hs.savedDelay ▸ h.saved
  | resumed _ _ hr => exact h.resumes hdown hr
  | paused => exact hpause
  | halted _ _ hs => exact of_unarmed hs.timer (hs.savedDelay ▸ hpause.saved)
  | landed _ target s hs => exact of_unarmed hs.timer (hgap s (hs.config.trans hconfig) _ _)
  | loaded => exact h.of_eq rfl rfl
  | disconnected =>
    rw [setDisconnected_eq]
    refine ⟨fun timer ht => ?_, h.saved⟩
    dsimp only at ht
    split at ht
    · exact h.timer timer ht
    · cases ht
      exact hzero
  | cleared _ _ hs => exact of_unarmed hs.timer (hs.savedDelay ▸ hzero)
  | respeeded _ _ _ _ hs => exact h.of_eq hs.timer hs.savedDelay
  | stuck _ speed => exact hpause.of_eq rfl rfl
  | rescaled _ speed delay _ hop hp hd hr =>
    have hspeed : q.speed = speed := hr.speed_eq
    have hrescaled : (p.rescaled now speed delay).DelaysWithin ok :=
      ⟨hpause.timer, hscale delay hop hp (hspeed ▸ hd)⟩
    exact hrescaled.resumes hdown hr

end DelaysWithin

theorem create_cutting (s : σ) (cap : Nanoseconds) : create? s { maxIdle := some cap } =
    .ok { config := { maxIdle := some cap }, console := s, speed := Binary64.ofInt 1 } := by
  have hs : ({} : Config).clampSpeed? ({} : Config).speed = some (Binary64.ofInt 1) := by
    decide +kernel
  have hcut : ({ maxIdle := some cap } : Config).clampSpeed? ({} : Config).speed =
      ({} : Config).clampSpeed? ({} : Config).speed := rfl
  unfold create?
  rw [hcut, hs]

section MaxIdle

variable [Console σ]

theorem Paced.config_eq {fails : Prop} {now : Nanoseconds} {op : Operation} {p q : Playback σ}
    (h : Paced fails now p op q) : q.config = p.config := by
  have hpause : (p.pause now).config = p.config := by
    obtain ⟨timer, delay, hs⟩ := pause_frame now p
    rw [hs]
  have hresumes {p q : Playback σ} (h : Resumes fails now p q) : q.config = p.config := by
    cases h with
    | kept _ hs => exact hs.config
    | unarmed _ _ _ hs => exact hs.config
    | armed s _ _ hs => exact hs.config
  cases h with
  | kept _ _ hs => exact hs.config
  | dropped _ _ hs => exact hs.config
  | taken _ _ _ hs => exact hs.config
  | shown s _ _ hs =>
    obtain ⟨timer, paused, hnext⟩ := scheduleNext_frame s now
    rw [hnext]
    exact hs.config
  | resumed _ _ hr => exact hresumes hr
  | paused => exact hpause
  | halted _ _ hs => exact hs.config.trans hpause
  | landed _ _ s hs => exact hs.config.trans hpause
  | loaded => rfl
  | disconnected => rw [setDisconnected_eq]
  | cleared _ _ hs => exact hs.config
  | respeeded _ _ _ _ hs => exact hs.config
  | stuck => exact hpause
  | rescaled _ _ _ _ _ _ _ hr => exact (hresumes hr).trans hpause

/-- No operation changes the settings. -/
theorem attemptAll_config (ops : List (Nanoseconds × Operation)) (p : Playback σ) :
    (attemptAll ops p).config = p.config :=
  attemptAll_keeps (I := fun q => q.config = p.config)
    (fun now op q _ h => (Paced.of_attempt now op q).config_eq.trans h) rfl

/-- Some operation of the run changed the speed of a playback that played, and scaled what was left
of its delay to `delay` or more. -/
def Stretched (start : Playback σ) (ops : List (Nanoseconds × Operation)) (delay : Nanoseconds) :
    Prop :=
  ∃ front now op back p scaled, ops = front ++ (now, op) :: back ∧ p = attemptAll front start ∧
    op.changesSpeed = true ∧ p.paused = false ∧
    Delay.scale? (p.pause now).savedDelay (p.speed / (p.attempt now op).speed) = some scaled ∧
    delay ≤ scaled

theorem Stretched.mono {start : Playback σ} {ops more : List (Nanoseconds × Operation)}
    {shorter delay : Nanoseconds} (h : Stretched start ops delay) (hle : shorter ≤ delay) :
    Stretched start (ops ++ more) shorter := by
  obtain ⟨front, now, op, back, p, scaled, rfl, hp, hop, hplays, hd, hscaled⟩ := h
  exact ⟨front, now, op, back ++ more, p, scaled, by simp, hp, hop, hplays, hd,
    Nat.le_trans hle hscaled⟩

/-- In every run, whichever operations fail, no delay is longer than the longest pause allowed
unless a change of speed has stretched what was left of one. -/
theorem delays_le_maxIdle {s : σ} {config : Config} {cap : Nanoseconds} {p q : Playback σ}
    {ops : List (Nanoseconds × Operation)} (hc : create? s config = .ok p)
    (hcap : config.maxIdle = some cap) (hq : q = attemptAll ops p) :
    (∀ timer, q.timer = some timer → timer.delay ≤ cap ∨ Stretched p ops timer.delay) ∧
      (q.savedDelay ≤ cap ∨ Stretched p ops q.savedDelay) := by
  let ok (ops : List (Nanoseconds × Operation)) (delay : Nanoseconds) : Prop :=
    delay ≤ cap ∨ Stretched p ops delay
  have hdown (ops : List (Nanoseconds × Operation)) (a b : Nanoseconds) (hle : a ≤ b)
      (hb : ok ops b) : ok ops a := by
    rcases hb with hb | hb
    · exact .inl (Nat.le_trans hle hb)
    · exact .inr (List.append_nil ops ▸ hb.mono hle)
  have hreached : (attemptAll ops p).config.maxIdle = some cap ∧
      (attemptAll ops p).DelaysWithin (ok ops) := by
    refine attemptAll_reaches
      (I := fun ops q => q.config.maxIdle = some cap ∧ q.DelaysWithin (ok ops)) ?_ ?_ ops
    · obtain ⟨speed, -, rfl⟩ := create_eq hc
      exact ⟨hcap, .of_unarmed rfl (.inl (Nat.zero_le cap))⟩
    · rintro ops now op ⟨hmax, hd⟩
      have hpaced := Paced.of_attempt now op (attemptAll ops p)
      refine ⟨hpaced.config_eq ▸ hmax, ?_⟩
      have hbefore : (attemptAll ops p).DelaysWithin (ok (ops ++ [(now, op)])) :=
        hd.mono fun delay hok => hok.imp_right fun hs => hs.mono (Nat.le_refl delay)
      refine hbefore.paced (hdown _) (fun s hs i j => ?_) (fun delay hop hp hscale => ?_) hpaced
      · exact .inl (gap_le_maxIdle (hs ▸ hmax) i j)
      · exact .inr ⟨ops, now, op, [], _, delay, rfl, rfl, hop, hp, hscale, Nat.le_refl delay⟩
  rw [hq]
  exact ⟨hreached.2.timer, hreached.2.saved⟩

/-- While a long gap runs that is cut to a second, the playback becomes half as fast. -/
def slowedRun : List (Nanoseconds × Operation) := [
  (0, .command (.load [.incoming 0 [97], .incoming 10000 [98], .incoming 20000 [99]])),
  (0, .command .play), (0, .step), (0, .command (.setSpeed (.ofRatio false 1 2)))]

/-- The next gap is cut again. -/
theorem delays_after_slowedRun : ∃ p q : Playback Transcript,
    create? { cell := ⟨8, 16⟩ } { maxIdle := some 1000000000 } = .ok p ∧
      p.config.maxIdle = some 1000000000 ∧
      q = attemptAll (slowedRun ++ [(2000000000, .step)]) p ∧
      q.timer = some ⟨2000000000, 1000000000⟩ ∧
      (∀ timer, q.timer = some timer → timer.delay ≤ 1000000000 ∨
        Stretched p (slowedRun ++ [(2000000000, .step)]) timer.delay) ∧
      (q.savedDelay ≤ 1000000000 ∨
        Stretched p (slowedRun ++ [(2000000000, .step)]) q.savedDelay) := by
  let s : Transcript := { cell := ⟨8, 16⟩ }
  let p : Playback Transcript :=
    { config := { maxIdle := some 1000000000 }, console := s, speed := Binary64.ofInt 1 }
  have hc : create? s { maxIdle := some 1000000000 } = .ok p := create_cutting s 1000000000
  have ht : (attemptAll (slowedRun ++ [(2000000000, .step)]) p).timer =
      some ⟨2000000000, 1000000000⟩ := by
    decide +kernel
  exact ⟨p, _, hc, rfl, rfl, ht, delays_le_maxIdle hc rfl rfl⟩

/-- The change of speed makes the timer wait two seconds although pauses are cut to one. -/
theorem delay_over_maxIdle : ∃ p q : Playback Transcript,
    create? { cell := ⟨8, 16⟩ } { maxIdle := some 1000000000 } = .ok p ∧
      p.config.maxIdle = some 1000000000 ∧ (operateAll slowedRun).run p = .ok () q ∧
      ∃ timer, q.timer = some timer ∧ ¬timer.delay ≤ 1000000000 := by
  let s : Transcript := { cell := ⟨8, 16⟩ }
  let p : Playback Transcript :=
    { config := { maxIdle := some 1000000000 }, console := s, speed := Binary64.ofInt 1 }
  have hrun : succeedsWith (operateAll slowedRun)
      (fun q => decide (q.timer = some ⟨0, 2000000000⟩)) p = true := by
    decide +kernel
  obtain ⟨q, hq, ht⟩ := exists_of_succeedsWith hrun
  exact ⟨p, q, create_cutting s 1000000000, rfl, hq, _, of_decide_eq_true ht, by decide⟩

end MaxIdle

/-- No delay is longer than the one that belongs to the event at the cursor, unless it was carried
over from another event. What is saved while a playback plays has no use, unless playing has
failed. -/
structure Timely (carried : Nanoseconds → Prop) (failed : Prop) (p : Playback σ) : Prop
    extends p.DelaysWithin fun delay => delay ≤ p.wait ∨ carried delay where
  saved_of_playing : p.paused = false → p.savedDelay = 0 ∨ carried p.savedDelay ∨ failed

namespace Timely

variable {carried carried' : Nanoseconds → Prop} {failed failed' : Prop} {p q : Playback σ}
  {now : Nanoseconds}

theorem of_paused (h : q.DelaysWithin fun delay => delay ≤ q.wait ∨ carried delay)
    (hp : q.paused = true) : q.Timely carried failed :=
  ⟨h, fun hn => by simp [hp] at hn⟩

theorem mono (hcarried : ∀ delay, carried delay → carried' delay) (hfailed : failed → failed')
    (h : p.Timely carried failed) : p.Timely carried' failed' := by
  refine ⟨h.toDelaysWithin.mono fun delay hd => hd.imp_right (hcarried delay), fun hp => ?_⟩
  exact (h.saved_of_playing hp).imp_right (Or.imp (hcarried _) hfailed)

theorem of_samePace (h : p.Timely carried failed) (hs : SamePace p q) :
    q.Timely carried failed := by
  obtain ⟨⟨htimer, hsaved⟩, hplaying⟩ := h
  rw [← hs.timer] at htimer
  rw [← hs.savedDelay] at hsaved hplaying
  rw [← hs.paused] at hplaying
  exact ⟨⟨hs.wait.symm ▸ htimer, hs.wait.symm ▸ hsaved⟩, hplaying⟩

theorem pause (hdown : ∀ a b, a ≤ b → carried b → carried a) (h : p.Timely carried failed)
    (now : Nanoseconds) : (p.pause now).Timely carried failed := by
  obtain ⟨timer, delay, hs⟩ := pause_frame now p
  have hwait : (p.pause now).wait = p.wait := by
    rw [hs]
    rfl
  have hok (a b : Nanoseconds) (hle : a ≤ b) (hb : b ≤ p.wait ∨ carried b) :
      a ≤ p.wait ∨ carried a :=
    hb.imp (Nat.le_trans hle) (hdown a b hle)
  have hd := h.toDelaysWithin.pause hok now
  rw [← hwait] at hd
  exact of_paused hd (by rw [hs])

theorem resumes {fails : Prop} (h : p.Timely carried failed) (hq : Resumes fails now p q) :
    q.Timely carried (failed ∨ fails) := by
  have hwider : p.Timely carried (failed ∨ fails) := h.mono (fun _ => id) .inl
  cases hq with
  | kept _ hs => exact hwider.of_samePace hs
  | unarmed _ hp hi hs =>
    refine of_samePace (p := { p with paused := false }) ⟨⟨h.timer, h.saved⟩, fun _ => ?_⟩ hs
    -- Behind the last event there is no delay.
    by_cases hlt : p.index < p.events.length
    · exact .inr (.inr (.inr (hi hlt)))
    · have hsaved := h.saved
      rw [wait_of_length_le (Nat.le_of_not_lt hlt), Nat.le_zero] at hsaved
      exact hsaved.imp_right .inl
  | armed s hp hi hs =>
    have hsaved : s.savedDelay ≤ s.wait ∨ carried s.savedDelay := by
      rw [hs.wait, hs.savedDelay]
      exact h.saved
    refine ⟨⟨fun timer ht => ?_, .inl (Nat.zero_le _)⟩, fun _ => .inl rfl⟩
    cases ht
    exact hsaved

/-- The timer of an event that has been shown is that of the next one. What was saved has been used
up, unless it was carried over from another event before or is now. -/
theorem shown {s : Playback σ} (h : p.Timely carried failed) (hp : p.paused = false)
    (hcarry : failed → carried p.savedDelay)
    (hs : SamePace { p with timer := none, index := p.index + 1 } s) :
    (s.scheduleNext now).Timely carried failed := by
  obtain ⟨timer, paused, hnext⟩ := scheduleNext_frame s now
  have hkept : p.savedDelay = 0 ∨ carried p.savedDelay := by
    rcases h.saved_of_playing hp with hzero | hcarried | hfailed
    · exact .inl hzero
    · exact .inr hcarried
    · exact .inr (hcarry hfailed)
  have hsaved : (s.scheduleNext now).savedDelay = p.savedDelay := by
    rw [hnext]
    exact hs.savedDelay
  have hwait : (s.scheduleNext now).wait = s.gap (s.index - 1) s.index := by
    have hi : s.index ≠ 0 := hs.index ▸ Nat.succ_ne_zero p.index
    rw [hnext]
    exact if_neg hi
  refine ⟨⟨fun timer ht => .inl ?_, ?_⟩, fun _ => ?_⟩
  · exact Nat.le_of_eq ((scheduleNext_timer hs.timer ht).trans hwait.symm)
  · rw [hsaved]
    exact hkept.imp_left fun hzero => by simp [hzero]
  · rw [hsaved]
    exact hkept.imp_right .inl

variable [Console σ]

/-- An operation keeps this if what a step carries over counts as carried. -/
theorem paced {op : Operation} {fails : Prop} (hop : op.changesSpeed = false)
    (hdown : ∀ a b, a ≤ b → carried b → carried a)
    (hcarry : op = .step → p.index < q.index → p.paused = true ∨ failed → carried p.savedDelay)
    (h : p.Timely carried failed) (hq : Paced fails now p op q) :
    q.Timely carried (failed ∨ fails) := by
  have hwider : p.Timely carried (failed ∨ fails) := h.mono (fun _ => id) .inl
  have hpause := hwider.pause hdown now
  have hhalted : (p.halted now).Timely carried (failed ∨ fails) :=
    of_paused (.of_unarmed rfl hpause.saved) (by rw [halted_eq])
  cases hq with
  | kept _ _ hs => exact hwider.of_samePace hs
  | dropped _ hp hs =>
    refine of_samePace (p := { p with timer := none, paused := q.paused }) ⟨?_, fun hn => ?_⟩ hs
    · exact .of_unarmed rfl h.saved
    · have hplays : p.paused = false :=
        eq_false_of_ne_true fun hn' => ne_true_of_eq_false hn (hp hn')
      exact hwider.saved_of_playing hplays
  | taken _ hp hi hs =>
    have hsaved := hcarry rfl (hs.index ▸ Nat.lt_succ_self _) (.inl hp)
    refine of_samePace (p := { p with timer := none, index := p.index + 1 }) ?_ hs
    exact of_paused (.of_unarmed rfl (.inr hsaved)) hp
  | shown s hp hi hs =>
    have hindex : (s.scheduleNext now).index = p.index + 1 := by
      obtain ⟨timer, paused, hnext⟩ := scheduleNext_frame s now
      rw [hnext]
      exact hs.index
    have hcarried (hf : failed) := hcarry rfl (hindex ▸ Nat.lt_succ_self _) (.inr hf)
    exact (h.shown hp hcarried hs).mono (fun _ => id) .inl
  | resumed _ _ hr => exact h.resumes hr
  | paused => exact hpause
  | halted _ _ hs => exact hhalted.of_samePace hs
  | landed _ target s hs =>
    have hp : (p.halted now).paused = true := by rw [halted_eq]
    have hsaved : (s.landed target).savedDelay = (s.landed target).wait :=
      (if_neg (Nat.succ_ne_zero target)).symm
    exact of_paused (.of_unarmed hs.timer (.inl (Nat.le_of_eq hsaved))) (hs.paused.trans hp)
  | loaded _ events =>
    have hle := wait_load_le p events
    refine ⟨⟨fun timer ht => ?_, ?_⟩, hwider.saved_of_playing⟩
    · exact (h.timer timer ht).imp_left (Nat.le_trans · hle)
    · exact h.saved.imp_left (Nat.le_trans · hle)
  | disconnected =>
    rw [setDisconnected_eq]
    refine ⟨⟨fun timer ht => ?_, h.saved⟩, fun hn => hwider.saved_of_playing ?_⟩
    · dsimp only at ht
      split at ht
      · exact h.timer timer ht
      · cases ht
        exact .inl (Nat.zero_le _)
    · simp only [Bool.or_eq_false_iff] at hn
      exact hn.1
  | cleared _ _ hs =>
    have hsaved : q.savedDelay = 0 := hs.savedDelay
    exact of_paused (.of_unarmed hs.timer (.inl (hsaved ▸ Nat.zero_le _))) hs.paused
  | respeeded _ _ hspeed => simp [hop] at hspeed
  | stuck _ _ hspeed => simp [hop] at hspeed
  | rescaled _ _ _ _ hspeed => simp [hop] at hspeed

end Timely

variable [Console σ]

def Interrupted (start : Playback σ) (ops : List (Nanoseconds × Operation)) : Prop :=
  ∃ front now op back f q, ops = front ++ (now, op) :: back ∧
    (operate now op).run (attemptAll front start) = .error f q

/-- Some step of the run went on to another event with a saved delay of `delay` or more, because the
playback was paused, and so live, or because playing had failed before. -/
def CarriedOver (start : Playback σ) (ops : List (Nanoseconds × Operation))
    (delay : Nanoseconds) : Prop :=
  ∃ front now back p, ops = front ++ (now, .step) :: back ∧ p = attemptAll front start ∧
    p.index < (p.attempt now .step).index ∧ delay ≤ p.savedDelay ∧
    (p.paused = true ∨ Interrupted start front)

theorem Interrupted.append {start : Playback σ} {ops : List (Nanoseconds × Operation)}
    (h : Interrupted start ops) (more : List (Nanoseconds × Operation)) :
    Interrupted start (ops ++ more) := by
  obtain ⟨front, now, op, back, f, q, rfl, hf⟩ := h
  exact ⟨front, now, op, back ++ more, f, q, by simp, hf⟩

theorem CarriedOver.mono {start : Playback σ} {ops more : List (Nanoseconds × Operation)}
    {shorter delay : Nanoseconds} (h : CarriedOver start ops delay) (hle : shorter ≤ delay) :
    CarriedOver start (ops ++ more) shorter := by
  obtain ⟨front, now, back, p, rfl, hp, hi, hd, hwhy⟩ := h
  exact ⟨front, now, back ++ more, p, by simp, hp, hi, Nat.le_trans hle hd, hwhy⟩

/-- In every run in which the speed is not changed, whichever operations fail, the timer waits for
no longer than belongs to the event at the cursor, unless what was saved in front of another event
has been carried over. -/
theorem armed_delay_le_wait {s : σ} {config : Config} {p q : Playback σ}
    {ops : List (Nanoseconds × Operation)} {timer : Timer} (hc : create? s config = .ok p)
    (hops : ∀ o ∈ ops, o.2.changesSpeed = false) (hq : q = attemptAll ops p)
    (ht : q.timer = some timer) :
    timer.delay ≤ q.wait ∨ CarriedOver p ops timer.delay := by
  have hdown (ops : List (Nanoseconds × Operation)) (a b : Nanoseconds) (hle : a ≤ b)
      (hb : CarriedOver p ops b) : CarriedOver p ops a :=
    List.append_nil ops ▸ hb.mono hle
  have hreached : (∀ o ∈ ops, o.2.changesSpeed = false) →
      (attemptAll ops p).Timely (CarriedOver p ops) (Interrupted p ops) := by
    refine attemptAll_reaches
      (I := fun ops q => (∀ o ∈ ops, o.2.changesSpeed = false) →
        q.Timely (CarriedOver p ops) (Interrupted p ops)) ?_ ?_ ops
    · obtain ⟨speed, -, rfl⟩ := create_eq hc
      exact fun _ => .of_paused (.of_unarmed rfl (.inl (Nat.zero_le _))) rfl
    · intro ops now op hd hall
      have hbefore : (attemptAll ops p).Timely (CarriedOver p (ops ++ [(now, op)]))
          (Interrupted p ops) :=
        (hd fun o ho => hall o (by simp [ho])).mono (fun delay hc => hc.mono (Nat.le_refl delay)) id
      have hcarry : op = .step →
          (attemptAll ops p).index < ((attemptAll ops p).attempt now op).index →
          (attemptAll ops p).paused = true ∨ Interrupted p ops →
          CarriedOver p (ops ++ [(now, op)]) (attemptAll ops p).savedDelay := by
        rintro rfl hi hwhy
        exact ⟨ops, now, [], _, rfl, rfl, hi, Nat.le_refl _, hwhy⟩
      have hafter := hbefore.paced (hall (now, op) (by simp)) (hdown _) hcarry
        (Paced.of_attempt now op (attemptAll ops p))
      refine hafter.mono (fun _ => id) fun hfailed => ?_
      rcases hfailed with hfailed | ⟨f, r, hf⟩
      · exact hfailed.append _
      · exact ⟨ops, now, op, [], f, r, rfl, hf⟩
  rw [hq] at ht ⊢
  exact (hreached hops).timer timer ht

def pausedTwice : List (Nanoseconds × Operation) := [
  (0, .command (.load [.incoming 0 [97], .incoming 1000 [98]])), (0, .command .play), (0, .step),
  (400000000, .command .pause), (500000000, .command .play), (700000000, .command .toggle),
  (800000000, .command .toggle)]

theorem armed_after_pausedTwice : ∃ p q : Playback Transcript,
    create? { cell := ⟨8, 16⟩ } {} = .ok p ∧ (∀ o ∈ pausedTwice, o.2.changesSpeed = false) ∧
      q = attemptAll pausedTwice p ∧ q.timer = some ⟨800000000, 400000000⟩ ∧
      (400000000 ≤ q.wait ∨ CarriedOver p pausedTwice 400000000) := by
  let s : Transcript := { cell := ⟨8, 16⟩ }
  let p : Playback Transcript := { config := {}, console := s, speed := Binary64.ofInt 1 }
  have hc : create? s {} = .ok p := create_default s
  have hops : ∀ o ∈ pausedTwice, o.2.changesSpeed = false := by decide
  have ht : (attemptAll pausedTwice p).timer = some ⟨800000000, 400000000⟩ := by decide +kernel
  exact ⟨p, _, hc, hops, rfl, ht, armed_delay_le_wait hc hops rfl ht⟩

/-- A live session is paused a second before its second event, which it takes while it is paused.
Then it is lost, and one more event is found. -/
def carriedRun : List (Nanoseconds × Operation) := [
  (0, .command .setLive), (0, .command (.load [.incoming 0 [97], .incoming 1000 [98]])),
  (0, .command .play), (0, .step), (0, .command .pause), (0, .step),
  (0, .command .setDisconnected), (0, .command (.load [.incoming 1001 [99]])),
  (0, .command .play)]

/-- The third event is due a millisecond after the second and waits for a second. -/
theorem armed_with_carried : ∃ p q : Playback Transcript,
    create? { cell := ⟨8, 16⟩ } {} = .ok p ∧ (∀ o ∈ carriedRun, o.2.changesSpeed = false) ∧
      (operateAll carriedRun).run p = .ok () q ∧
      ∃ timer, q.timer = some timer ∧ ¬timer.delay ≤ q.wait := by
  let s : Transcript := { cell := ⟨8, 16⟩ }
  let p : Playback Transcript := { config := {}, console := s, speed := Binary64.ofInt 1 }
  have hrun : succeedsWith (operateAll carriedRun)
      (fun q => decide (q.timer = some ⟨0, 1000000000⟩) && decide (q.wait = 1000000)) p = true := by
    decide +kernel
  obtain ⟨q, hq, htest⟩ := exists_of_succeedsWith hrun
  simp only [Bool.and_eq_true, decide_eq_true_eq] at htest
  obtain ⟨ht, hw⟩ := htest
  have hover : ¬1000000000 ≤ q.wait := by
    rw [hw]
    decide
  exact ⟨p, q, create_default s, by decide, hq, _, ht, hover⟩

end SessionPlayback.Playback
