import SessionPlayback.Proofs.Config
import SessionPlayback.Proofs.Playback.Operation

/-!
Replays. As long as a playback does not become live it holds no output between operations, and
whether it has stopped depends on nothing but the events before its cursor.
-/

namespace SessionPlayback

namespace Playback

variable {σ : Type}

theorem take_succ_events {events : List Event} {i : Nat} {e : Event} (he : events[i]? = some e) :
    events.take (i + 1) = events.take i ++ [e] := by
  rw [List.take_add_one, he]
  rfl

/-- Nothing is held, and a replay has stopped exactly if the end of the session lies before its
cursor. -/
structure Replays (p : Playback σ) : Prop where
  notLive : p.isLive = false
  old : p.session.feed = .old
  unheld : p.held = {}
  index_le : p.index ≤ p.events.length
  stopped : p.stopped = (p.events.take p.index).any Event.isStop

namespace Replays

variable {p q : Playback σ} {now : Nanoseconds}

theorem load (h : p.Replays) (events : List Event) : (p.load events).Replays := by
  have ht : (p.events ++ events).take p.index = p.events.take p.index :=
    List.take_append_of_le_length h.index_le
  refine ⟨h.notLive, h.old, h.unheld, Nat.le_trans h.index_le (by simp [Playback.load]), ?_⟩
  change p.stopped = ((p.events ++ events).take p.index).any Event.isStop
  rw [ht, h.stopped]

variable [Console σ]

theorem stepped (h : p.Replays) (hq : Stepped now p q) : q.Replays := by
  cases hq with
  | resting => exact ⟨h.notLive, h.old, h.unheld, h.index_le, h.stopped⟩
  | idle => exact ⟨h.notLive, h.old, h.unheld, h.index_le, h.stopped⟩
  | held e hp hl => simp [h.notLive] at hl
  | shown e n hp he =>
    obtain ⟨timer, paused, hs⟩ :=
      scheduleNext_frame { (p.taken e).delivered n with index := p.index + 1 } now
    rw [hs]
    refine ⟨?_, ?_, rfl, (List.getElem?_eq_some_iff.mp he).1, ?_⟩
    · exact (Metadata.after_live p.session e).trans h.notLive
    · exact (Metadata.after_feed p.session e).trans h.old
    · change (p.stopped || (e.isStop && !p.isLive)) = (p.events.take (p.index + 1)).any Event.isStop
      rw [take_succ_events he, List.any_append, h.stopped, h.notLive]
      simp

theorem played (h : p.Replays) (hq : Played now p q) : q.Replays := by
  cases hq with
  | already => exact h
  | ended => exact ⟨h.notLive, h.old, rfl, h.index_le, h.stopped⟩
  | resumed n =>
    obtain ⟨timer, delay, hs⟩ := rearmed_frame now (p.resumed.delivered n)
    rw [hs]
    exact ⟨h.notLive, h.old, rfl, h.index_le, h.stopped⟩

theorem speedChanged (h : p.Replays) (hq : SpeedChanged now p q) : q.Replays := by
  cases hq with
  | paused => exact ⟨h.notLive, h.old, h.unheld, h.index_le, h.stopped⟩
  | playing speed delay _ _ _ hq =>
    refine played (p := p.rescaled now speed delay) ?_ hq
    obtain ⟨timer, saved, hs⟩ := pause_frame now p
    rw [rescaled, hs]
    exact ⟨h.notLive, h.old, h.unheld, h.index_le, h.stopped⟩

/-- Landing behind the target on a state that has stopped exactly if it had to. -/
theorem landed {s : Playback σ} {target : Nat} (ht : target < s.events.length)
    (hl : s.isLive = false) (hf : s.session.feed = .old)
    (hs : s.stopped = (s.events.take (target + 1)).any Event.isStop) :
    (s.landed target).Replays := ⟨hl, hf, rfl, ht, hs⟩

theorem moved {target : Nat} (h : p.Replays) (hq : Moved now target p q) : q.Replays := by
  have hlive {s : Playback σ} {events : List Event} (hs : s.isLive = false) :
      (s.absorbed events).isLive = false :=
    (Metadata.foldl_after_live events s.session).trans hs
  have hfeed {s : Playback σ} {events : List Event} (hs : s.session.feed = .old) :
      (s.absorbed events).session.feed = .old :=
    (Metadata.foldl_after_feed events s.session).trans hs
  have hl : (p.halted now).isLive = false := by rw [halted_isLive, h.notLive]
  have hf : (p.halted now).session.feed = .old := by rw [halted_eq, h.old]
  cases hq with
  | stayed => exact h
  | forward s ht hi hs =>
    have hsplit := List.take_append_drop p.index (p.events.take (target + 1))
    rw [List.take_take, Nat.min_eq_left (by omega)] at hsplit
    subst hs
    refine landed (by rwa [halted_eq]) (hlive hl) (hfeed hf) ?_
    simp only [absorbed, hl]
    rw [halted_eq]
    simp only [Bool.not_false, Bool.and_true]
    rw [h.stopped, ← List.any_append, hsplit]
  | back s ht hi _ hs =>
    subst hs
    refine landed (by rwa [halted_eq]) (hlive hl) (hfeed hf) ?_
    rw [halted_eq]
    change (false || (_ && !p.isLive)) = _
    rw [h.notLive]
    simp [absorbed, rewound, called]

theorem outcome {op : Operation} (hop : op ≠ .command .setLive) (h : p.Replays)
    (hq : Outcome now p op q) : q.Replays := by
  cases hq with
  | unchanged => exact h
  | stepped _ _ hq => exact h.stepped hq
  | played _ _ hq => exact h.played hq
  | paused =>
    obtain ⟨timer, delay, hs⟩ := pause_frame now p
    rw [hs]
    exact ⟨h.notLive, h.old, h.unheld, h.index_le, h.stopped⟩
  | speedChanged _ _ hq => exact h.speedChanged hq
  | moved _ _ _ hq => exact h.moved hq
  | loaded _ events => exact h.load events
  | live => exact absurd rfl hop
  | disconnected =>
    rw [setDisconnected_eq]
    exact ⟨rfl, rfl, h.unheld, h.index_le, h.stopped⟩
  | cleared => exact ⟨rfl, rfl, rfl, Nat.zero_le _, rfl⟩

end Replays

theorem create_eq {s : σ} {config : Config} {p : Playback σ}
    (h : create? s config = .ok p) : ∃ speed, config.clampSpeed? config.speed = some speed ∧
      p = { config, console := s, speed } := by
  unfold create? at h
  split at h
  · rename_i speed hs
    cases h
    exact ⟨speed, hs, rfl⟩
  · cases h

/-- There is a playback for every configuration whose lowest speed is a number. -/
theorem create_ok (s : σ) {config : Config} (hc : config.minSpeed.isNaN = false) :
    ∃ p, create? s config = .ok p := by
  obtain ⟨speed, hs⟩ := Option.isSome_iff_exists.mp (Config.clampSpeed?_isSome hc config.speed)
  unfold create?
  rw [hs]
  exact ⟨_, rfl⟩

theorem create_default (s : σ) :
    create? s {} = .ok { config := {}, console := s, speed := Binary64.ofInt 1 } := by
  have hs : ({} : Config).clampSpeed? ({} : Config).speed = some (Binary64.ofInt 1) := by
    decide +kernel
  unfold create?
  rw [hs]

theorem create_replays {s : σ} {config : Config} {p : Playback σ}
    (h : create? s config = .ok p) : p.Replays := by
  obtain ⟨speed, -, rfl⟩ := create_eq h
  exact ⟨rfl, rfl, rfl, Nat.le_refl 0, rfl⟩

/-- A run that never makes a playback live leaves a replay. -/
theorem operateAll_replays [Console σ] {ops : List (Nanoseconds × Operation)} {p q : Playback σ}
    (hops : ∀ o ∈ ops, o.2 ≠ .command .setLive) (h : (operateAll ops).run p = .ok () q)
    (hp : p.Replays) : q.Replays :=
  operateAll_keeps (fun _ _ _ _ hm hq hp => hp.outcome (hops _ hm) hq) h hp

end Playback
end SessionPlayback
