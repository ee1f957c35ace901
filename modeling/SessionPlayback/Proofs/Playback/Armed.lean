import SessionPlayback.Console.Transcript
import SessionPlayback.Proofs.Playback.Advance
import SessionPlayback.Proofs.Playback.Follow

/-!
When the timer is armed. A timer belongs to an event that waits in front of the cursor of a
playback that plays, and a replay that plays always has one, so it neither stalls nor runs past its
end. This holds through every change between a live session and a replay.
-/

namespace SessionPlayback.Playback

variable {σ : Type}

structure WellTimed (p : Playback σ) : Prop where
  index_le : p.index ≤ p.events.length
  plays_of_armed : p.timer.isSome = true → p.paused = false ∧ p.index < p.events.length
  armed_of_plays : p.isLive = false → p.paused = false → p.timer.isSome = true

namespace WellTimed

variable {p q : Playback σ} {now : Nanoseconds}

theorem of_paused (hi : p.index ≤ p.events.length) (hp : p.paused = true)
    (ht : p.timer = none) : p.WellTimed where
  index_le := hi
  plays_of_armed h := by simp [ht] at h
  armed_of_plays _ h := by simp [hp] at h

/-- A live session may play with no timer armed. -/
theorem of_live (hl : p.isLive = true) (hi : p.index ≤ p.events.length)
    (ht : p.timer.isSome = true → p.paused = false ∧ p.index < p.events.length) :
    p.WellTimed :=
  ⟨hi, ht, fun hn => by simp [hl] at hn⟩

theorem timer_of_paused (h : p.WellTimed) (hp : p.paused = true) : p.timer = none := by
  by_contra hn
  have hplays := h.plays_of_armed (Option.isSome_iff_ne_none.mpr hn)
  simp [hp] at hplays

theorem pause (h : p.WellTimed) (now : Nanoseconds) : (p.pause now).WellTimed := by
  cases hp : p.paused with
  | true =>
    rw [pause_of_paused now hp]
    exact h
  | false =>
    rw [pause_of_playing now hp]
    exact of_paused h.index_le rfl rfl

theorem rescaled (h : p.WellTimed) (now : Nanoseconds) (speed : Binary64)
    (delay : Nanoseconds) : (p.rescaled now speed delay).WellTimed := by
  have hr := h.pause now
  exact ⟨hr.index_le, hr.plays_of_armed, hr.armed_of_plays⟩

theorem load (h : p.WellTimed) (events : List Event) : (p.load events).WellTimed := by
  have hlen : p.events.length ≤ (p.load events).events.length := by simp [Playback.load]
  refine ⟨Nat.le_trans h.index_le hlen, fun ht => ?_, h.armed_of_plays⟩
  obtain ⟨hp, hi⟩ := h.plays_of_armed ht
  exact ⟨hp, Nat.lt_of_lt_of_le hi hlen⟩

theorem setLive (h : p.WellTimed) : p.setLive.WellTimed :=
  ⟨h.index_le, h.plays_of_armed, fun hl => by cases hl⟩

theorem setDisconnected (h : p.WellTimed) (now : Nanoseconds) :
    (p.setDisconnected now).WellTimed := by
  rw [setDisconnected_eq]
  cases hp : p.paused with
  | true => exact of_paused h.index_le (by simp) (by simp [h.timer_of_paused hp])
  | false =>
    cases ht : p.timer with
    | some timer =>
      have hi := (h.plays_of_armed (by simp [ht])).2
      exact ⟨h.index_le, fun _ => ⟨by simp, hi⟩, fun _ _ => by simp⟩
    | none =>
      by_cases hi : p.index < p.events.length
      · exact ⟨h.index_le, fun _ => ⟨by simp [hi], hi⟩, fun _ _ => by simp [hi]⟩
      · exact of_paused h.index_le (by simp; omega) (by simp; omega)

theorem resumed (hl : p.isLive = true) (h : p.WellTimed) : p.resumed.WellTimed :=
  of_live hl h.index_le fun ht => ⟨rfl, (h.plays_of_armed ht).2⟩

theorem rearmed (hi : p.index ≤ p.events.length) (hp : p.paused = false) (ht : p.timer = none)
    (he : p.isEnded = false) : (p.rearmed now).WellTimed := by
  unfold Playback.rearmed
  split
  · rename_i hlt
    exact ⟨hi, fun _ => ⟨hp, hlt⟩, fun _ _ => rfl⟩
  · rename_i hge
    refine ⟨hi, fun h => by simp [ht] at h, fun hl => ?_⟩
    rw [isEnded_of_replay hl, Bool.or_eq_false_iff, decide_eq_false_iff_not] at he
    omega

theorem scheduleNext (hi : p.index ≤ p.events.length) (hp : p.paused = false)
    (ht : p.timer = none) : (p.scheduleNext now).WellTimed := by
  unfold Playback.scheduleNext
  split
  · exact of_paused hi rfl ht
  · split
    · rename_i hlt
      exact ⟨hi, fun _ => ⟨hp, hlt⟩, fun _ _ => rfl⟩
    · split
      · rename_i hl
        exact ⟨hi, fun h => by simp [ht] at h, fun h => by simp [hl] at h⟩
      · exact of_paused hi rfl ht

variable [Console σ]

theorem stepped (h : p.WellTimed) (hq : Stepped now p q) : q.WellTimed := by
  cases hq with
  | resting hp => exact of_paused h.index_le hp rfl
  | idle =>
    refine ⟨h.index_le, fun ht => by simp at ht, fun hl hp => ?_⟩
    change p.isLive = false at hl
    simp [hl] at hp
  | held e hp hl he => exact of_paused (List.getElem?_eq_some_iff.mp he).1 hp rfl
  | shown e n hp he => exact scheduleNext (List.getElem?_eq_some_iff.mp he).1 hp rfl

theorem played (h : p.WellTimed) (hq : Played now p q) : q.WellTimed := by
  cases hq with
  | already => exact h
  | ended hp => exact of_paused h.index_le hp (h.timer_of_paused hp)
  | resumed n hp he => exact rearmed h.index_le rfl (h.timer_of_paused hp) he

theorem speedChanged (h : p.WellTimed) (hq : SpeedChanged now p q) : q.WellTimed := by
  cases hq with
  | paused speed => exact ⟨h.index_le, h.plays_of_armed, h.armed_of_plays⟩
  | playing speed delay _ _ _ hq => exact (h.rescaled now speed delay).played hq

theorem moved {target : Nat} (h : p.WellTimed) (hq : Moved now target p q) : q.WellTimed := by
  rcases hq.disturbed with rfl | ⟨ht, s, delay, ⟨calls, _, _, _, -, -, rfl⟩, rfl⟩
  · exact h
  · rw [halted_eq]
    exact of_paused ht rfl rfl

theorem outcome {op : Operation} (h : p.WellTimed) (hq : Outcome now p op q) :
    q.WellTimed := by
  cases hq with
  | unchanged => exact h
  | stepped _ _ hq => exact h.stepped hq
  | played _ _ hq => exact h.played hq
  | paused => exact h.pause now
  | speedChanged _ _ hq => exact h.speedChanged hq
  | moved _ _ _ hq => exact h.moved hq
  | loaded _ events => exact h.load events
  | live => exact h.setLive
  | disconnected => exact h.setDisconnected now
  | cleared => exact of_paused (Nat.zero_le _) rfl rfl

theorem disturbed (h : p.WellTimed) (hq : Disturbed p q) : q.WellTimed := by
  obtain ⟨calls, session, held, stopped, -, hl, rfl⟩ := hq
  exact ⟨h.index_le, h.plays_of_armed, fun hn => h.armed_of_plays (hl.symm.trans hn)⟩

/-- A live session keeps its timer in order even if an operation fails. -/
theorem failed (hl : p.isLive = true) (h : p.WellTimed) (hq : Failed now p q) :
    q.WellTimed := by
  cases hq with
  | stepped e _ _ _ hq =>
    have ht : (p.taken e).isLive = true := (Metadata.after_live p.session e).trans hl
    have htaken : (p.taken e).WellTimed := of_live ht h.index_le nofun
    exact htaken.disturbed hq.disturbed
  | played _ hq =>
    rcases hq with hq | hq
    · exact h.disturbed hq.disturbed
    · exact (h.resumed hl).disturbed hq.disturbed
  | unchanged => exact h
  | rescaled speed delay => exact h.rescaled now speed delay
  | replayed speed delay _ hq =>
    have hr := h.rescaled now speed delay
    have hrl := (Advances.rescaled now speed delay p).isLive_eq.trans hl
    rcases hq with hq | hq
    · exact hr.disturbed hq.disturbed
    · exact (hr.resumed hrl).disturbed hq.disturbed
  | moved _ hq =>
    have hh : (p.halted now).WellTimed := by
      rw [halted_eq]
      exact of_paused h.index_le rfl rfl
    exact hh.disturbed hq

theorem attemptAll {ops : List (Nanoseconds × Operation)}
    (hk : ∀ o ∈ ops, o.2.keepsMode = true) (hl : p.isLive = true) (h : p.WellTimed) :
    (attemptAll ops p).WellTimed := by
  have hkept : (Playback.attemptAll ops p).isLive = true ∧
      (Playback.attemptAll ops p).WellTimed := by
    refine attemptAll_keeps (I := fun q => q.isLive = true ∧ q.WellTimed)
      (fun now op q hm hq => ?_) ⟨hl, h⟩
    have ho : op.keepsMode = true := hk _ hm
    refine ⟨(attempt_advances ho q).isLive_eq.trans hq.1, ?_⟩
    exact attempt_keeps ho (fun _ hr => hq.2.outcome hr) fun _ hr => hq.2.failed hq.1 hr
  exact hkept.2

end WellTimed

structure RunsOn (p : Playback σ) : Prop extends p.Replays where
  unended : p.paused = false → p.isEnded = false

namespace RunsOn

variable {p q : Playback σ} {now : Nanoseconds} [Console σ]

theorem played_unended (h : p.paused = false → p.isEnded = false) (hq : Played now p q) :
    q.paused = false → q.isEnded = false := by
  cases hq with
  | already => exact h
  | ended hp =>
    intro hn
    change p.paused = false at hn
    simp [hp] at hn
  | resumed n hp he =>
    obtain ⟨timer, delay, hs⟩ := rearmed_frame now (p.resumed.delivered n)
    rw [hs]
    exact fun _ => he

theorem stepped_unended (h : p.RunsOn) (hq : Stepped now p q) :
    q.paused = false → q.isEnded = false := by
  cases hq with
  | resting => exact h.unended
  | idle =>
    intro hn
    have hl : p.isLive = false := h.notLive
    simp [hl] at hn
  | held e hp hl => simp [h.notLive] at hl
  | shown e n hp he =>
    have hl : (p.taken e).isLive = false :=
      (Metadata.after_live p.session e).trans h.notLive
    rw [scheduleNext_of_replay
      (p := { (p.taken e).delivered n with index := p.index + 1 }) hl now]
    split
    · intro hn
      cases hn
    · rename_i hn
      exact fun _ => eq_false_of_ne_true hn

theorem outcome {op : Operation} (hop : op ≠ .command .setLive) (h : p.RunsOn)
    (hq : Outcome now p op q) : q.RunsOn := by
  refine ⟨h.toReplays.outcome hop hq, ?_⟩
  cases hq with
  | unchanged => exact h.unended
  | stepped _ _ hq => exact h.stepped_unended hq
  | played _ _ hq => exact played_unended h.unended hq
  | paused =>
    obtain ⟨timer, delay, hs⟩ := pause_frame now p
    rw [hs]
    intro hn
    cases hn
  | speedChanged _ _ hq =>
    cases hq with
    | paused speed => exact h.unended
    | playing speed delay _ hp _ hq =>
      refine played_unended (p := p.rescaled now speed delay) (fun hn => ?_) hq
      rw [rescaled, pause_of_playing now hp] at hn
      cases hn
  | moved _ _ _ hq =>
    rcases hq.disturbed with rfl | ⟨-, s, delay, ⟨calls, _, _, _, -, -, rfl⟩, rfl⟩
    · exact h.unended
    · rw [halted_eq]
      intro hn
      cases hn
  | loaded _ events =>
    intro hn
    have he := h.unended hn
    rw [isEnded_of_replay h.notLive, Bool.or_eq_false_iff, decide_eq_false_iff_not] at he
    rw [isEnded_of_replay (h.toReplays.load events).notLive, Bool.or_eq_false_iff,
      decide_eq_false_iff_not]
    refine ⟨?_, he.2⟩
    simp only [load, List.length_append]
    omega
  | live => exact absurd rfl hop
  | disconnected =>
    rw [setDisconnected_eq]
    intro hn
    simp only [Bool.or_eq_false_iff] at hn
    have he := h.unended hn.1
    rw [isEnded_of_replay h.notLive] at he
    rw [isEnded_of_replay rfl]
    exact he
  | cleared =>
    intro hn
    cases hn

end RunsOn

theorem create_wellTimed {s : σ} {config : Config} {p : Playback σ}
    (h : create? s config = .ok p) : p.WellTimed := by
  obtain ⟨speed, -, rfl⟩ := create_eq h
  exact .of_paused (Nat.le_refl 0) rfl rfl

theorem create_runsOn {s : σ} {config : Config} {p : Playback σ}
    (h : create? s config = .ok p) : p.RunsOn := by
  refine ⟨create_replays h, fun hp => ?_⟩
  obtain ⟨speed, -, rfl⟩ := create_eq h
  cases hp

/-- After every run a timer is armed only for an event that waits while the playback plays, and a
replay that plays has its timer armed. If the playback was never made live, it is paused once it has
ended, and it has stopped exactly if the end of the session lies before its cursor. -/
theorem timer_of_operateAll [Console σ] {s : σ} {config : Config} {p q : Playback σ}
    {ops : List (Nanoseconds × Operation)} (hc : create? s config = .ok p)
    (h : (operateAll ops).run p = .ok () q) :
    q.index ≤ q.events.length ∧
      (∀ timer, q.timer = some timer → q.paused = false ∧ q.index < q.events.length) ∧
      (q.isLive = false → q.paused = false →
        q.index < q.events.length ∧ ∃ timer, q.timer = some timer) ∧
      ((∀ now, (now, .command .setLive) ∉ ops) →
        (q.state = .ended → q.paused = true) ∧
          (q.stopped = true ↔ ∃ e ∈ q.events.take q.index, e.isStop = true)) := by
  have hw : q.WellTimed :=
    operateAll_keeps (fun _ _ _ _ _ hq hp => hp.outcome hq) h (create_wellTimed hc)
  refine ⟨hw.index_le, fun timer ht => hw.plays_of_armed (by simp [ht]), fun hl hp => ?_, ?_⟩
  · have ha := hw.armed_of_plays hl hp
    exact ⟨(hw.plays_of_armed ha).2, Option.isSome_iff_exists.mp ha⟩
  · intro hops
    have hr : q.RunsOn := by
      refine operateAll_keeps (fun now op _ _ hm hq hp => hp.outcome ?_ hq) h (create_runsOn hc)
      rintro rfl
      exact hops now hm
    refine ⟨fun hs => ?_, by rw [hr.stopped, List.any_eq_true]⟩
    by_contra hp
    have he := hr.unended (eq_false_of_ne_true hp)
    simp [state, he, hp] at hs

/-- A replay that has met the end of its session becomes live, plays on until it is idle, and is
lost while another event waits. -/
def switchedRun : List (Nanoseconds × Operation) := [
  (0, .command (.load [.incoming 0 [97], .stop 5, .incoming 9 [98]])), (0, .command .play),
  (0, .step), (5000000, .step), (6000000, .command .setLive), (6000000, .command .play),
  (6000000, .step), (7000000, .command .play), (8000000, .command (.load [.incoming 20 [99]])),
  (9000000, .command .setDisconnected)]

theorem timer_after_switchedRun : ∃ p q : Playback Transcript,
    create? { cell := ⟨8, 16⟩ } {} = .ok p ∧ (operateAll switchedRun).run p = .ok () q ∧
      q.index ≤ q.events.length ∧
      (∀ timer, q.timer = some timer → q.paused = false ∧ q.index < q.events.length) ∧
      (q.isLive = false → q.paused = false →
        q.index < q.events.length ∧ ∃ timer, q.timer = some timer) ∧
      ((∀ now, (now, .command .setLive) ∉ switchedRun) →
        (q.state = .ended → q.paused = true) ∧
          (q.stopped = true ↔ ∃ e ∈ q.events.take q.index, e.isStop = true)) := by
  let s : Transcript := { cell := ⟨8, 16⟩ }
  obtain ⟨q, hq, -⟩ := exists_run_ok (x := operateAll switchedRun)
    (p := { config := {}, console := s, speed := Binary64.ofInt 1 }) (fun _ => true)
    (by decide +kernel)
  have hc := create_default s
  exact ⟨_, q, hc, hq, timer_of_operateAll hc hq⟩

end SessionPlayback.Playback
