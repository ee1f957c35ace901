import SessionPlayback.Proofs.Console.Service
import SessionPlayback.Proofs.Playback.Replay

/-!
Acknowledgements of a live session. Events are counted once, in order; those counted are the ones
that have been acknowledged and the ones that still are to be, whichever calls failed and however
often a seek went over them.
-/

namespace SessionPlayback

def Operation.isSilent : Operation → Bool
  | .command (.load _) => true
  | .command .pause => true
  | .command (.seek _) => true
  | .command .next => true
  | .command .previous => true
  | _ => false

namespace Playback

variable {σ : Type} [Console σ]

/-- The events counted are those acknowledged and those pending, and no others than the events
there are. -/
structure Accounts (p : Playback (Traced σ)) : Prop where
  live : p.isLive = true
  serves : Console.Serves .acknowledge p.console
  sum : p.console.acknowledged + p.pendingAcks = p.acked
  acked_le : p.acked ≤ p.events.length
  index_le : p.index ≤ p.events.length

namespace Accounts

variable {p q : Playback (Traced σ)} {now : Nanoseconds}

/-- Counting up to a bound that is not beyond the events. -/
theorem uncounted_le (h : p.Accounts) {bound : Nat} (hb : bound ≤ p.events.length) :
    p.acked + p.uncounted bound ≤ p.events.length ∧ bound ≤ p.acked + p.uncounted bound := by
  have := h.acked_le
  simp only [uncounted, h.live, ↓reduceIte]
  omega

theorem taken (h : p.Accounts) {e : Event} (he : p.events[p.index]? = some e) :
    (p.taken e).Accounts ∧ p.index + 1 ≤ (p.taken e).acked := by
  have hi : p.index + 1 ≤ p.events.length := (List.getElem?_eq_some_iff.mp he).1
  have hu := h.uncounted_le hi
  refine ⟨⟨?_, h.serves, ?_, hu.1, h.index_le⟩, hu.2⟩
  · exact (Metadata.after_live p.session e).trans h.live
  · change p.console.acknowledged + (p.pendingAcks + _) = p.acked + _
    rw [← h.sum, Nat.add_assoc]

theorem resumed (h : p.Accounts) : p.resumed.Accounts ∧ p.index ≤ p.resumed.acked := by
  have hu := h.uncounted_le h.index_le
  refine ⟨⟨h.live, h.serves, ?_, hu.1, h.index_le⟩, hu.2⟩
  change p.console.acknowledged + (p.pendingAcks + _) = p.acked + _
  rw [← h.sum, Nat.add_assoc]

/-- Once everything is delivered, everything counted has been acknowledged. -/
theorem delivered {n : Nat} (h : p.Accounts) (hd : p.Delivers n) :
    (p.delivered n).Accounts ∧ (p.delivered n).console.acknowledged = p.acked := by
  have hs : Console.Succeed (p.held.calls ++ .replicate n .acknowledge) p.console := by
    rw [Console.succeed_append]
    refine ⟨hd.flushes, Console.succeed_of_serves fun call hc => ?_⟩
    rw [List.eq_of_mem_replicate hc]
    exact h.serves.after _
  have ha : (p.delivered n).console.acknowledged = p.acked := by
    change (Console.after _ p.console).acknowledged = p.acked
    rw [Traced.after_acknowledged hs, List.count_append,
      List.count_eq_zero_of_not_mem (Held.acknowledge_notMem _), List.count_replicate_self,
      hd.eq_pending h.serves, ← h.sum, Nat.zero_add]
  exact ⟨⟨h.live, h.serves.after _, ha, h.acked_le, h.index_le⟩, ha⟩

theorem disturbed (h : p.Accounts) (hq : Disturbed p q) : q.Accounts := by
  obtain ⟨calls, session, held, stopped, hc, hl, rfl⟩ := hq
  refine ⟨hl.trans h.live, h.serves.after _, ?_, h.acked_le, h.index_le⟩
  change (Console.after calls p.console).acknowledged + p.pendingAcks = p.acked
  rw [Traced.after_acknowledged_of_notMem hc, h.sum]

theorem spilled (h : p.Accounts) (hq : Spilled p q) : q.Accounts := h.disturbed hq.disturbed

theorem pause (h : p.Accounts) (now : Nanoseconds) : (p.pause now).Accounts := by
  obtain ⟨timer, delay, hs⟩ := pause_frame now p
  rw [hs]
  exact ⟨h.live, h.serves, h.sum, h.acked_le, h.index_le⟩

theorem halted (h : p.Accounts) (now : Nanoseconds) : (p.halted now).Accounts :=
  ⟨(h.pause now).live, (h.pause now).serves, (h.pause now).sum, (h.pause now).acked_le,
    (h.pause now).index_le⟩

theorem rescaled (h : p.Accounts) (now : Nanoseconds) (speed : Binary64) (delay : Nanoseconds) :
    (p.rescaled now speed delay).Accounts :=
  ⟨(h.pause now).live, (h.pause now).serves, (h.pause now).sum, (h.pause now).acked_le,
    (h.pause now).index_le⟩

end Accounts

/-- While the session is played nothing is pending, and everything before the cursor has been
acknowledged. -/
def Settled (p : Playback (Traced σ)) : Prop :=
  p.paused = false → p.pendingAcks = 0 ∧ p.index ≤ p.console.acknowledged

omit [Console σ] in
theorem settled_of_paused {p : Playback (Traced σ)} (hp : p.paused = true) : p.Settled :=
  fun h => by simp [hp] at h

namespace Accounts

variable {p q : Playback (Traced σ)} {now : Nanoseconds}

theorem stepped (h : p.Accounts) (hq : Stepped now p q) :
    q.Accounts ∧ (p.Settled → q.Settled) := by
  cases hq with
  | resting hp hl => simp [h.live] at hl
  | idle he =>
    refine ⟨⟨h.live, h.serves, h.sum, h.acked_le, h.index_le⟩, fun hs hp => hs ?_⟩
    simpa [h.live] using hp
  | held e hp hl he =>
    obtain ⟨ht, -⟩ := h.taken he
    refine ⟨⟨ht.live, ht.serves, ht.sum, ht.acked_le, ?_⟩, fun _ => settled_of_paused hp⟩
    exact (List.getElem?_eq_some_iff.mp he).1
  | shown e n hp he hd =>
    obtain ⟨ht, hi⟩ := h.taken he
    obtain ⟨hr, hack⟩ := ht.delivered hd
    obtain ⟨timer, paused, hs⟩ :=
      scheduleNext_frame { (p.taken e).delivered n with index := p.index + 1 } now
    rw [hs]
    refine ⟨⟨hr.live, hr.serves, hr.sum, hr.acked_le, ?_⟩, fun _ _ => ⟨rfl, hack ▸ hi⟩⟩
    exact (List.getElem?_eq_some_iff.mp he).1

theorem played (h : p.Accounts) (hq : Played now p q) :
    q.Accounts ∧ (p.Settled → q.Settled) := by
  cases hq with
  | already hp => exact ⟨h, id⟩
  | ended hp he hf => simp [isEnded, h.live] at he
  | resumed n hp he hd =>
    obtain ⟨ht, hi⟩ := h.resumed
    obtain ⟨hr, hack⟩ := ht.delivered hd
    obtain ⟨timer, delay, hs⟩ := rearmed_frame now (p.resumed.delivered n)
    rw [hs]
    exact ⟨⟨hr.live, hr.serves, hr.sum, hr.acked_le, hr.index_le⟩,
      fun _ _ => ⟨rfl, hack ▸ hi⟩⟩

theorem speedChanged (h : p.Accounts) (hq : SpeedChanged now p q) :
    q.Accounts ∧ (p.Settled → q.Settled) := by
  cases hq with
  | paused speed hp =>
    exact ⟨⟨h.live, h.serves, h.sum, h.acked_le, h.index_le⟩, fun _ => settled_of_paused hp⟩
  | playing speed delay _ hp hd hq =>
    obtain ⟨ha, hs⟩ := (h.rescaled now speed delay).played hq
    refine ⟨ha, fun _ => hs (settled_of_paused ?_)⟩
    rw [Playback.rescaled, pause_of_playing now hp]

theorem moved {target : Nat} (h : p.Accounts) (hq : Moved now target p q) :
    q.Accounts ∧ (p.Settled → q.Settled) := by
  rcases hq.disturbed with rfl | ⟨ht, s, delay, hd, rfl⟩
  · exact ⟨h, id⟩
  · have hs := (h.halted now).disturbed hd
    obtain ⟨calls, session, held, stopped, -, -, rfl⟩ := hd
    rw [halted_eq] at hs ⊢
    exact ⟨⟨hs.live, hs.serves, hs.sum, hs.acked_le, ht⟩, fun _ => settled_of_paused rfl⟩

/-- Every operation keeps the accounts, and once they are settled they stay so. -/
theorem outcome {op : Operation} (hk : op.keepsMode = true) (h : p.Accounts)
    (hq : Outcome now p op q) : q.Accounts ∧ (p.Settled → q.Settled) := by
  cases hq with
  | unchanged => exact ⟨h, id⟩
  | stepped _ _ hq => exact h.stepped hq
  | played _ _ hq => exact h.played hq
  | paused =>
    refine ⟨h.pause now, fun _ => settled_of_paused ?_⟩
    obtain ⟨timer, delay, hs⟩ := pause_frame now p
    rw [hs]
  | speedChanged _ _ hq => exact h.speedChanged hq
  | moved _ _ _ hq => exact h.moved hq
  | loaded _ events =>
    refine ⟨⟨h.live, h.serves, h.sum, ?_, ?_⟩, id⟩
    · exact Nat.le_trans h.acked_le (by simp [load])
    · exact Nat.le_trans h.index_le (by simp [load])
  | live => cases hk
  | disconnected => cases hk
  | cleared => cases hk

/-- An operation that fails keeps the accounts too. -/
theorem failed (h : p.Accounts) (hq : Failed now p q) : q.Accounts := by
  cases hq with
  | stepped e _ hp he hq => exact (h.taken he).1.spilled hq
  | played _ hq =>
    rcases hq with hq | hq
    · exact h.spilled hq
    · exact h.resumed.1.spilled hq
  | unchanged => exact h
  | rescaled speed delay => exact h.rescaled now speed delay
  | replayed speed delay _ hq =>
    rcases hq with hq | hq
    · exact (h.rescaled now speed delay).spilled hq
    · exact (h.rescaled now speed delay).resumed.1.spilled hq
  | moved _ hq => exact (h.halted now).disturbed hq

theorem attempt {op : Operation} (hk : op.keepsMode = true) (h : p.Accounts) :
    (p.attempt now op).Accounts :=
  attempt_keeps hk (fun _ hq => (h.outcome hk hq).1) fun _ hq => h.failed hq

theorem attemptAll {ops : List (Nanoseconds × Operation)}
    (hk : ∀ o ∈ ops, o.2.keepsMode = true) (h : p.Accounts) : (attemptAll ops p).Accounts :=
  attemptAll_keeps (fun _ _ _ hm h => h.attempt (hk _ hm)) h

end Accounts

theorem create_setLive_accounts {s : σ} {config : Config} {p : Playback (Traced σ)}
    (hs : Console.Serves .acknowledge s) (hc : create? ⟨s, []⟩ config = .ok p) :
    p.setLive.Accounts := by
  obtain ⟨speed, -, rfl⟩ := create_eq hc
  exact ⟨rfl, Traced.serves_iff.mpr hs, rfl, Nat.le_refl 0, Nat.le_refl 0⟩

def SameAcks (p q : Playback (Traced σ)) : Prop :=
  q.console.acknowledged = p.console.acknowledged ∧ q.pendingAcks = p.pendingAcks

theorem Disturbed.sameAcks {p q : Playback (Traced σ)} (h : Disturbed p q) : p.SameAcks q := by
  obtain ⟨calls, session, held, stopped, hc, -, rfl⟩ := h
  exact ⟨Traced.after_acknowledged_of_notMem hc, rfl⟩

theorem attempt_seek_sameAcks (now : Nanoseconds) (target : Nat) (p : Playback (Traced σ)) :
    p.SameAcks (p.attempt now (.command (.seek target))) := by
  have hh : p.SameAcks (p.halted now) := by
    rw [halted_eq]
    exact ⟨rfl, rfl⟩
  unfold attempt
  split
  · rename_i q hq
    rcases (moveTo_ok hq).disturbed with rfl | ⟨-, s, delay, hd, rfl⟩
    · exact ⟨rfl, rfl⟩
    · exact ⟨hd.sameAcks.1.trans hh.1, hd.sameAcks.2.trans hh.2⟩
  · rename_i f q hq
    have hd := moveTo_error hq
    exact ⟨hd.sameAcks.1.trans hh.1, hd.sameAcks.2.trans hh.2⟩

/-- Loading, pausing and seeking neither acknowledge nor count, even if they fail. -/
theorem attempt_silent (now : Nanoseconds) {op : Operation} (h : op.isSilent = true)
    (p : Playback (Traced σ)) : p.SameAcks (p.attempt now op) := by
  cases op with
  | step => cases h
  | command c =>
    cases c with
    | pause =>
      obtain ⟨timer, delay, hs⟩ := pause_frame now p
      change p.SameAcks (p.pause now)
      rw [hs]
      exact ⟨rfl, rfl⟩
    | next => exact attempt_seek_sameAcks now p.index p
    | previous =>
      by_cases hi : 2 ≤ p.index
      · have hp : p.attempt now (.command .previous) =
            p.attempt now (.command (.seek (p.index - 2))) := by
          simp only [attempt, operate, carryOut, previous_run, if_pos hi]
        rw [hp]
        exact attempt_seek_sameAcks now _ p
      · simp only [attempt, operate, carryOut, previous_run, if_neg hi]
        exact ⟨rfl, rfl⟩
    | seek target => exact attempt_seek_sameAcks now target p
    | load events => exact ⟨rfl, rfl⟩
    | _ => cases h

/-- Acknowledgements of a session that is live from the beginning, as long as it stays live. In
every state, whichever operations failed, the events counted are those acknowledged and those
pending; and if no operation has failed since the playback was last paused, then while it plays
nothing is pending and everything before the cursor has been acknowledged. -/
theorem acknowledgements_of_attemptAll {s : σ} {config : Config} {p q : Playback (Traced σ)}
    {ops : List (Nanoseconds × Operation)} (hs : Console.Serves .acknowledge s)
    (hc : create? ⟨s, []⟩ config = .ok p) (hops : ∀ o ∈ ops, o.2.keepsMode = true)
    (hq : q = attemptAll ops p.setLive) :
    q.console.acknowledged + q.pendingAcks = q.acked ∧ q.acked ≤ q.events.length ∧
      (∀ now op, op.isSilent = true →
        (q.attempt now op).console.acknowledged = q.console.acknowledged ∧
          (q.attempt now op).pendingAcks = q.pendingAcks) ∧
      (q.paused = true → ∀ more r, (∀ o ∈ more, o.2.keepsMode = true) →
        (operateAll more).run q = .ok () r → r.state = .playing →
          r.pendingAcks = 0 ∧ r.index ≤ r.console.acknowledged) := by
  subst hq
  have ha := (create_setLive_accounts hs hc).attemptAll hops
  refine ⟨ha.sum, ha.acked_le, fun now op hop => attempt_silent now hop _, ?_⟩
  intro hp more r hmore hr hstate
  have hkept : r.Accounts ∧ r.Settled := by
    refine operateAll_keeps (I := fun r => r.Accounts ∧ r.Settled)
      (fun now op p q hm ho hpq => ?_) hr ⟨ha, settled_of_paused hp⟩
    obtain ⟨hq, hsettled⟩ := hpq.1.outcome (hmore _ hm) ho
    exact ⟨hq, hsettled hpq.2⟩
  refine hkept.2 ?_
  by_contra hpaused
  simp [state, isEnded, hkept.1.live, hpaused] at hstate

def failingWrite : Faulty Transcript :=
  { inner := { cell := ⟨8, 16⟩, acks := .counting 0 }, plan := [(.write, [1])] }

theorem failingWrite_serves : Console.Serves .acknowledge failingWrite :=
  Faulty.serves rfl (Transcript.serves_acknowledge rfl)

def heldThenPlayed : List (Nanoseconds × Operation) :=
  [(0, .command (.load [.incoming 0 [97]])), (0, .step), (0, .command .play)]

/-- If the flush of an event that was held fails, the session plays on while the event before the
cursor has not been acknowledged. -/
theorem pending_after_failed_flush : ∃ p q : Playback (Traced (Faulty Transcript)),
    create? ⟨failingWrite, []⟩ {} = .ok p ∧ Console.Serves .acknowledge failingWrite ∧
      (∀ o ∈ heldThenPlayed, o.2.keepsMode = true) ∧
      q = attemptAll heldThenPlayed p.setLive ∧ q.state = .playing ∧ q.pendingAcks = 1 ∧
      q.index = 1 ∧ q.console.acknowledged = 0 := by
  refine ⟨_, _, create_default _, failingWrite_serves, by decide, rfl, ?_⟩
  decide +kernel

/-- After a pause the same session can be played, and the event is acknowledged. -/
theorem acknowledgements_after_pause : ∃ p q r : Playback (Traced (Faulty Transcript)),
    create? ⟨failingWrite, []⟩ {} = .ok p ∧
      q = attemptAll (heldThenPlayed ++ [(1, .command .pause)]) p.setLive ∧
      q.console.acknowledged + q.pendingAcks = q.acked ∧ q.acked ≤ q.events.length ∧
      q.paused = true ∧ (operateAll [(2, .command .play)]).run q = .ok () r ∧
      r.state = .playing ∧ r.pendingAcks = 0 ∧ r.index ≤ r.console.acknowledged := by
  let p : Playback (Traced (Faulty Transcript)) :=
    { config := {}, console := ⟨failingWrite, []⟩, speed := Binary64.ofInt 1 }
  let q := attemptAll (heldThenPlayed ++ [(1, .command .pause)]) p.setLive
  have hc : create? ⟨failingWrite, []⟩ {} = .ok p := create_default _
  have hops : ∀ o ∈ heldThenPlayed ++ [(1, .command .pause)], o.2.keepsMode = true := by
    decide
  have hpaused : q.paused = true := by decide +kernel
  obtain ⟨r, hr, hstate⟩ := exists_run_ok (x := operateAll [(2, .command .play)]) (p := q)
    (fun r => decide (r.state = .playing)) (by decide +kernel)
  obtain ⟨hsum, hle, -, hplay⟩ :=
    acknowledgements_of_attemptAll failingWrite_serves hc hops (rfl : q = _)
  have hstate : r.state = .playing := of_decide_eq_true hstate
  obtain ⟨hpending, hsent⟩ := hplay hpaused _ r (by decide) hr hstate
  exact ⟨p, q, r, hc, rfl, hsum, hle, hpaused, hr, hstate, hpending, hsent⟩

end Playback
end SessionPlayback
