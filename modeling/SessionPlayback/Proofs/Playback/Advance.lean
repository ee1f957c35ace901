import SessionPlayback.Proofs.Playback.Operation

/-!
What every operation of a playback keeps as long as the mode does not change, whether it succeeds or
fails: events are only appended, none is counted less, and the surfaces change by calls only.
-/

namespace SessionPlayback.Playback

variable {σ : Type} [Console σ]

structure Advances (p q : Playback σ) : Prop where
  isLive_eq : q.isLive = p.isLive
  acked_le : p.acked ≤ q.acked
  events_prefix : p.events <+: q.events
  index_le : p.index ≤ p.events.length → q.index ≤ q.events.length
  console_eq : ∃ calls, q.console = Console.after calls p.console

namespace Advances

variable {p q r : Playback σ} {now : Nanoseconds}

theorem refl (p : Playback σ) : p.Advances p :=
  ⟨rfl, Nat.le_refl _, List.prefix_refl _, id, [], rfl⟩

theorem trans (hq : p.Advances q) (hr : q.Advances r) : p.Advances r := by
  obtain ⟨front, hf⟩ := hq.console_eq
  obtain ⟨back, hb⟩ := hr.console_eq
  refine ⟨hr.isLive_eq.trans hq.isLive_eq, Nat.le_trans hq.acked_le hr.acked_le,
    hq.events_prefix.trans hr.events_prefix, fun h => hr.index_le (hq.index_le h),
    front ++ back, ?_⟩
  rw [hb, hf, Console.after_append]

theorem pause (now : Nanoseconds) (p : Playback σ) : p.Advances (p.pause now) := by
  obtain ⟨timer, delay, hs⟩ := pause_frame now p
  rw [hs]
  exact ⟨rfl, Nat.le_refl _, List.prefix_refl _, id, [], rfl⟩

theorem load (events : List Event) (p : Playback σ) : p.Advances (p.load events) := by
  refine ⟨rfl, Nat.le_refl _, List.prefix_append _ _, fun hi => ?_, [], rfl⟩
  exact Nat.le_trans hi (by simp [Playback.load])

theorem halted (now : Nanoseconds) (p : Playback σ) : p.Advances (p.halted now) := by
  rw [halted_eq]
  exact ⟨rfl, Nat.le_refl _, List.prefix_refl _, id, [], rfl⟩

theorem rescaled (now : Nanoseconds) (speed : Binary64) (delay : Nanoseconds)
    (p : Playback σ) : p.Advances (p.rescaled now speed delay) := by
  have h := pause now p
  exact ⟨h.isLive_eq, h.acked_le, h.events_prefix, h.index_le, h.console_eq⟩

theorem resumed (p : Playback σ) : p.Advances p.resumed :=
  ⟨rfl, Nat.le_add_right _ _, List.prefix_refl _, id, [], rfl⟩

theorem taken (e : Event) (p : Playback σ) : p.Advances (p.taken e) :=
  ⟨Metadata.after_live p.session e, Nat.le_add_right _ _, List.prefix_refl _, id, [], rfl⟩

theorem delivered (n : Nat) (p : Playback σ) : p.Advances (p.delivered n) :=
  ⟨rfl, Nat.le_refl _, List.prefix_refl _, id, _, rfl⟩

theorem disturbed (h : Disturbed p q) : p.Advances q := by
  obtain ⟨calls, session, held, stopped, -, hl, rfl⟩ := h
  exact ⟨hl, Nat.le_refl _, List.prefix_refl _, id, calls, rfl⟩

theorem stepped (hq : Stepped now p q) : p.Advances q := by
  cases hq with
  | resting => exact ⟨rfl, Nat.le_refl _, List.prefix_refl _, id, [], rfl⟩
  | idle => exact ⟨rfl, Nat.le_refl _, List.prefix_refl _, id, [], rfl⟩
  | held e hp hl he =>
    have ht := taken e p
    exact ⟨ht.isLive_eq, ht.acked_le, ht.events_prefix,
      fun _ => (List.getElem?_eq_some_iff.mp he).1, ht.console_eq⟩
  | shown e n hp he =>
    obtain ⟨timer, paused, hs⟩ :=
      scheduleNext_frame { (p.taken e).delivered n with index := p.index + 1 } now
    have ht := (taken e p).trans (delivered n _)
    rw [hs]
    exact ⟨ht.isLive_eq, ht.acked_le, ht.events_prefix,
      fun _ => (List.getElem?_eq_some_iff.mp he).1, ht.console_eq⟩

theorem played (hq : Played now p q) : p.Advances q := by
  cases hq with
  | already => exact refl p
  | ended => exact ⟨rfl, Nat.le_refl _, List.prefix_refl _, id, _, rfl⟩
  | resumed n =>
    obtain ⟨timer, delay, hs⟩ := rearmed_frame now (p.resumed.delivered n)
    have hr := (resumed p).trans (delivered n _)
    rw [hs]
    exact ⟨hr.isLive_eq, hr.acked_le, hr.events_prefix, hr.index_le, hr.console_eq⟩

theorem speedChanged (hq : SpeedChanged now p q) : p.Advances q := by
  cases hq with
  | paused => exact ⟨rfl, Nat.le_refl _, List.prefix_refl _, id, [], rfl⟩
  | playing speed delay _ _ _ hq => exact (rescaled now speed delay p).trans (played hq)

theorem moved {target : Nat} (hq : Moved now target p q) : p.Advances q := by
  rcases hq.disturbed with rfl | ⟨ht, s, delay, hd, rfl⟩
  · exact refl q
  · have hs := (halted now p).trans (disturbed hd)
    have hlen : target < s.events.length := Nat.lt_of_lt_of_le ht hs.events_prefix.length_le
    exact ⟨hs.isLive_eq, hs.acked_le, hs.events_prefix, fun _ => hlen, hs.console_eq⟩

theorem outcome {op : Operation} (hk : op.keepsMode = true) (hq : Outcome now p op q) :
    p.Advances q := by
  cases hq with
  | unchanged => exact refl p
  | stepped _ _ hq => exact stepped hq
  | played _ _ hq => exact played hq
  | paused => exact pause now p
  | speedChanged _ _ hq => exact speedChanged hq
  | moved _ _ _ hq => exact moved hq
  | loaded _ events => exact load events p
  | live => cases hk
  | disconnected => cases hk
  | cleared => cases hk

theorem failed (hq : Failed now p q) : p.Advances q := by
  cases hq with
  | stepped e _ _ _ hq => exact (taken e p).trans (disturbed hq.disturbed)
  | played _ hq =>
    rcases hq with hq | hq
    · exact disturbed hq.disturbed
    · exact (resumed p).trans (disturbed hq.disturbed)
  | unchanged => exact refl p
  | rescaled speed delay => exact rescaled now speed delay p
  | replayed speed delay _ hq =>
    have hr := rescaled now speed delay p
    rcases hq with hq | hq
    · exact hr.trans (disturbed hq.disturbed)
    · exact hr.trans ((resumed _).trans (disturbed hq.disturbed))
  | moved _ hq => exact (halted now p).trans (disturbed hq)

theorem calls_prefix {p q : Playback (Traced σ)} (h : p.Advances q) :
    p.console.calls <+: q.console.calls := by
  obtain ⟨calls, hc⟩ := h.console_eq
  exact hc ▸ Traced.calls_prefix_after calls p.console

end Advances

theorem attempt_advances {now : Nanoseconds} {op : Operation} (hk : op.keepsMode = true)
    (p : Playback σ) : p.Advances (p.attempt now op) :=
  attempt_keeps hk (fun _ hq => .outcome hk hq) fun _ hq => .failed hq

theorem attemptAll_advances {ops : List (Nanoseconds × Operation)}
    (hk : ∀ o ∈ ops, o.2.keepsMode = true) (p : Playback σ) : p.Advances (attemptAll ops p) :=
  attemptAll_keeps (I := p.Advances)
    (fun _ _ q hm h => h.trans (attempt_advances (hk _ hm) q)) (.refl p)

theorem attemptAll_append (front back : List (Nanoseconds × Operation)) (p : Playback σ) :
    attemptAll (front ++ back) p = attemptAll back (attemptAll front p) :=
  List.foldl_append

end SessionPlayback.Playback
