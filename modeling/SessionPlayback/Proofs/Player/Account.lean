import SessionPlayback.Proofs.Playback.Visibility
import SessionPlayback.Proofs.Player.Delivery

/-!
The account of a feed. Each event that was delivered is due for acknowledgement once: on receipt, as
in a download, or when a live session plays it. Making a session live reopens the events that had
been acknowledged on receipt. Every action of a playback keeps this account, and one that fails has
not acknowledged more than was due.
-/

namespace SessionPlayback

structure Ledger where
  /-- Events that the feed has delivered. -/
  delivered : Nat := 0
  /-- Events of the session that were acknowledged on receipt since it was last made live. -/
  onReceipt : Nat := 0
  /-- Events that had been acknowledged on receipt when the session was made live. -/
  reopened : Nat := 0
  deriving DecidableEq, Repr

namespace Ledger

def credit (l : Ledger) : Nat := l.delivered + l.reopened

/-- A batch has been delivered; only a live session leaves its acknowledgement to playing. -/
def received (live : Bool) (count : Nat) (l : Ledger) : Ledger :=
  { l with
    delivered := l.delivered + count
    onReceipt := if live then l.onReceipt else l.onReceipt + count }

def obeyed (c : Command) (l : Ledger) : Ledger :=
  match c with
  | .setLive => { l with reopened := l.reopened + l.onReceipt, onReceipt := 0 }
  | .reset => { l with onReceipt := 0 }
  | _ => l

end Ledger

namespace Playback

variable {σ : Type} [Console σ]

/-- Each event of the session was delivered, and it is due for acknowledgement once: when it
arrives or when it is counted. Only what was reopened is due twice. -/
structure Credited (l : Ledger) (p : Playback (Traced σ)) : Prop where
  due : p.console.acknowledged + p.pendingAcks + p.events.length ≤
    l.credit + p.acked + l.onReceipt
  counted_le : p.acked + l.onReceipt ≤ p.events.length
  index_le : p.index ≤ p.events.length
  live : p.isLive = true → l.onReceipt = 0

namespace Credited

variable {l : Ledger} {p q : Playback (Traced σ)} {now : Nanoseconds}

omit [Console σ] in
theorem acknowledged_le (h : p.Credited l) : p.console.acknowledged ≤ l.credit := by
  have hdue := h.due
  have hcounted := h.counted_le
  omega

omit [Console σ] in
theorem counts {bound : Nat} (h : p.Credited l) (hc : Counts bound p q)
    (hl : q.isLive = p.isLive) (hi : q.index = p.index) (hb : bound ≤ p.events.length) :
    q.Credited l := by
  obtain ⟨hdue, hcounted, hindex, hlive⟩ := h
  refine ⟨?_, ?_, ?_, fun hq => hlive (hl ▸ hq)⟩
  · rw [hc.console, hc.pending, hc.events, hc.acked]
    omega
  · rw [hc.acked, hc.events]
    cases hp : p.isLive with
    | true =>
      have hnone := hlive hp
      simp only [uncounted, hp, ↓reduceIte]
      omega
    | false =>
      simp only [uncounted, hp, Bool.false_eq_true, ↓reduceIte]
      omega
  · rw [hi, hc.events]
    exact hindex

theorem taken (h : p.Credited l) {e : Event} (he : p.events[p.index]? = some e) :
    (p.taken e).Credited l :=
  h.counts (taken_counts p e) (Metadata.after_live p.session e) rfl
    (List.getElem?_eq_some_iff.mp he).1

omit [Console σ] in
theorem resumed (h : p.Credited l) : p.resumed.Credited l :=
  h.counts (resumed_counts p) rfl rfl h.index_le

/-- Delivering sends no more than what is pending. -/
theorem delivered {n : Nat} (h : p.Credited l) (hd : p.Delivers n) :
    (p.delivered n).Credited l := by
  refine ⟨?_, h.counted_le, h.index_le, h.live⟩
  have hdue := h.due
  have hn := hd.le_pending
  have hsent : (p.delivered n).console.acknowledged ≤ p.console.acknowledged + n := by
    change (Console.after (p.held.calls ++ .replicate n .acknowledge) p.console).acknowledged ≤ _
    rw [Console.after_append,
      ← Traced.after_acknowledged_of_notMem (t := p.console) p.held.acknowledge_notMem]
    exact Traced.after_replicate_acknowledged_le n _
  change (p.delivered n).console.acknowledged + 0 + p.events.length ≤ _
  change _ ≤ l.credit + p.acked + l.onReceipt
  omega

theorem disturbed (h : p.Credited l) (hq : Disturbed p q) : q.Credited l := by
  obtain ⟨calls, session, held, stopped, hc, hl, rfl⟩ := hq
  refine ⟨?_, h.counted_le, h.index_le, fun hq => h.live (hl.symm.trans hq)⟩
  change (Console.after calls p.console).acknowledged + p.pendingAcks + p.events.length ≤ _
  rw [Traced.after_acknowledged_of_notMem hc]
  exact h.due

omit [Console σ] in
theorem pause (h : p.Credited l) (now : Nanoseconds) : (p.pause now).Credited l := by
  obtain ⟨timer, delay, hs⟩ := pause_frame now p
  rw [hs]
  exact ⟨h.due, h.counted_le, h.index_le, h.live⟩

omit [Console σ] in
theorem rescaled (h : p.Credited l) (now : Nanoseconds) (speed : Binary64)
    (delay : Nanoseconds) : (p.rescaled now speed delay).Credited l := by
  have hp := h.pause now
  exact ⟨hp.due, hp.counted_le, hp.index_le, hp.live⟩

omit [Console σ] in
theorem halted (h : p.Credited l) (now : Nanoseconds) : (p.halted now).Credited l := by
  have hp := h.pause now
  exact ⟨hp.due, hp.counted_le, hp.index_le, hp.live⟩

theorem stepped (h : p.Credited l) (hq : Stepped now p q) : q.Credited l := by
  cases hq with
  | resting => exact ⟨h.due, h.counted_le, h.index_le, h.live⟩
  | idle => exact ⟨h.due, h.counted_le, h.index_le, h.live⟩
  | held e hp hl he =>
    have ht := h.taken he
    exact ⟨ht.due, ht.counted_le, (List.getElem?_eq_some_iff.mp he).1, ht.live⟩
  | shown e n hp he hd =>
    have ht := (h.taken he).delivered hd
    obtain ⟨timer, paused, hs⟩ :=
      scheduleNext_frame { (p.taken e).delivered n with index := p.index + 1 } now
    rw [hs]
    exact ⟨ht.due, ht.counted_le, (List.getElem?_eq_some_iff.mp he).1, ht.live⟩

theorem played (h : p.Credited l) (hq : Played now p q) : q.Credited l := by
  cases hq with
  | already => exact h
  | ended =>
    refine h.disturbed ⟨p.held.calls, p.session, {}, p.stopped, ?_, rfl, rfl⟩
    exact p.held.acknowledge_notMem
  | resumed n hp he hd =>
    have hr := h.resumed.delivered hd
    obtain ⟨timer, delay, hs⟩ := rearmed_frame now (p.resumed.delivered n)
    rw [hs]
    exact ⟨hr.due, hr.counted_le, hr.index_le, hr.live⟩

theorem speedChanged (h : p.Credited l) (hq : SpeedChanged now p q) : q.Credited l := by
  cases hq with
  | paused => exact ⟨h.due, h.counted_le, h.index_le, h.live⟩
  | playing speed delay _ _ _ hq => exact (h.rescaled now speed delay).played hq

theorem moved {target : Nat} (h : p.Credited l) (hq : Moved now target p q) :
    q.Credited l := by
  rcases hq.disturbed with rfl | ⟨ht, s, delay, hd, rfl⟩
  · exact h
  · have hs := (h.halted now).disturbed hd
    have he := (Advances.halted now p).trans (Advances.disturbed hd)
    exact ⟨hs.due, hs.counted_le, Nat.lt_of_lt_of_le ht he.events_prefix.length_le, hs.live⟩

/-- An operation that leaves the events and the mode as they are keeps the account. -/
theorem outcome {op : Operation} (hk : op.keepsMode = true) (he : q.events = p.events)
    (h : p.Credited l) (hq : Outcome now p op q) : q.Credited l := by
  cases hq with
  | unchanged => exact h
  | stepped _ _ hq => exact h.stepped hq
  | played _ _ hq => exact h.played hq
  | paused => exact h.pause now
  | speedChanged _ _ hq => exact h.speedChanged hq
  | moved _ _ _ hq => exact h.moved hq
  | loaded _ events =>
    have hsame : p.load events = p := by
      change { p with events := (p.load events).events } = p
      rw [he]
    rw [hsame]
    exact h
  | live => cases hk
  | disconnected => cases hk
  | cleared => cases hk

/-- An operation that fails has not acknowledged anything. -/
theorem failed (h : p.Credited l) (hq : Failed now p q) :
    q.console.acknowledged ≤ l.credit := by
  obtain ⟨calls, hc, he⟩ := calls_of_failed hq
  rw [he, Traced.after_acknowledged_of_notMem hc]
  exact h.acknowledged_le

omit [Console σ] in
theorem setDisconnected (h : p.Credited l) (now : Nanoseconds) :
    (p.setDisconnected now).Credited l := by
  have hdue := h.due
  rw [setDisconnected_eq]
  refine ⟨?_, h.counted_le, h.index_le, nofun⟩
  change p.console.acknowledged + 0 + p.events.length ≤ l.credit + p.acked + l.onReceipt
  omega

omit [Console σ] in
/-- Made live, the session leaves none of its events out when it counts. -/
theorem setLive (h : p.Credited l) : p.setLive.Credited (l.obeyed .setLive) := by
  have hdue := h.due
  have hcounted := h.counted_le
  refine ⟨?_, ?_, h.index_le, fun _ => rfl⟩
  · change p.console.acknowledged + p.pendingAcks + p.events.length ≤
      l.delivered + (l.reopened + l.onReceipt) + p.acked + 0
    simp only [Ledger.credit] at hdue
    omega
  · change p.acked + 0 ≤ p.events.length
    omega

theorem cleared (h : p.Credited l) (speed : Binary64) :
    (p.cleared speed).Credited (l.obeyed .reset) := by
  refine ⟨?_, Nat.le_refl 0, Nat.le_refl 0, fun _ => rfl⟩
  change (Console.after [.reset, .clear, .resize p.config.initialGeometry]
    p.console).acknowledged ≤ l.credit
  rw [Traced.after_acknowledged_of_notMem (by simp)]
  exact h.acknowledged_le

end Credited

/-- The account is in order afterwards; and if the action fails, no more has been acknowledged than
was in order. -/
def Bills (l : Ledger) : Action (Traced σ) Unit → Playback (Traced σ) → Prop :=
  Ends (Credited l) fun q => q.console.acknowledged ≤ l.credit

namespace Bills

variable {l : Ledger} {p : Playback (Traced σ)}

theorem operate (op : Operation) (hk : op.keepsMode = true) (now : Nanoseconds)
    (he : ∀ q, (Playback.operate now op).run p = .ok () q → q.events = p.events)
    (h : p.Credited l) : Bills l (Playback.operate now op) p :=
  .of_run (fun q hq => h.outcome hk (he q hq) (operate_ok hq))
    fun _ _ hq => h.failed (operate_error hk hq)

theorem step (now : Nanoseconds) (h : p.Credited l) : Bills l (Playback.step now) p :=
  operate .step rfl now (fun _ hq => (SameSource.stepped (step_ok hq)).events) h

theorem drain (now : Nanoseconds) (h : p.Credited l) : Bills l (Playback.drain now) p := by
  suffices hbound : ∀ bound, Bills l (drainFor now bound) p from hbound p.remaining
  intro bound
  induction bound generalizing p with
  | zero => exact h
  | succ bound ih =>
    have hrun := drainFor_run now bound p
    split_ifs at hrun
    · exact .congr hrun (Ends.bind (step now h) fun q hq => ih hq)
    · exact .congr (y := pure ()) hrun h

theorem play (now : Nanoseconds) (h : p.Credited l) : Bills l (Playback.play now) p :=
  operate (.command .play) rfl now (fun _ hq => (SameSource.played (play_ok hq)).events) h

theorem reset (h : p.Credited l) : Bills (l.obeyed .reset) Playback.reset p := by
  refine .of_run (fun q hq => ?_) fun f q hq => ?_
  · obtain ⟨speed, -, rfl⟩ := reset_ok hq
    exact h.cleared speed
  · obtain ⟨calls, hc, he⟩ := reset_error hq
    change q.console.acknowledged ≤ l.credit
    rw [he, Traced.after_acknowledged_of_notMem hc]
    exact h.acknowledged_le

theorem carryOut {c : Command} (hc : ∀ events, c ≠ .load events) (now : Nanoseconds)
    (h : p.Credited l) : Bills (l.obeyed c) (Playback.carryOut now c) p := by
  have hsteers (hs : c.steers = true) : Bills l (Playback.carryOut now c) p := by
    have hk : (Operation.command c).keepsMode = true := by
      cases c <;> first | rfl | cases hs
    exact operate (.command c) hk now (fun q hq => (SameSource.steered hs hq).events) h
  cases c with
  | load events => exact absurd rfl (hc events)
  | setLive => exact h.setLive
  | setDisconnected => exact h.setDisconnected now
  | reset => exact reset h
  | shutdown => exact h
  | _ => exact hsteers rfl

end Bills

/-- What a batch comes to, once it has been loaded. -/
theorem takeBatch_run (now : Nanoseconds) (batch : List Event) (p : Playback σ) :
    (takeBatch now batch).run p =
      if p.isLive then
        (do drain now
            if batch.any (·.isStop) then modify (·.setDisconnected now) : Action σ Unit).run
          (p.load batch)
      else (if batch.any (·.isStop) then play now else pure () : Action σ Unit).run
        (acknowledgeReceipt batch.length (p.load batch)) := by
  simp only [takeBatch, EStateM.run_bind, EStateM.run_modify, EStateM.run_get]
  change (if p.isLive then _ else _ : Action σ Unit).run _ = _
  split <;> rfl

namespace Bills

variable {l : Ledger} {p : Playback (Traced σ)}

theorem takeBatch (now : Nanoseconds) (batch : List Event) (h : p.Credited l) :
    Bills (l.received p.isLive batch.length) (Playback.takeBatch now batch) p := by
  have hdue := h.due
  have hcounted := h.counted_le
  have hindex := h.index_le
  have hlen : (p.load batch).events.length = p.events.length + batch.length :=
    List.length_append
  simp only [Ledger.credit] at hdue
  have hrun := takeBatch_run now batch p
  cases hl : p.isLive with
  | true =>
    have hload : (p.load batch).Credited (l.received true batch.length) := by
      refine ⟨?_, ?_, ?_, fun _ => h.live hl⟩
      · change p.console.acknowledged + p.pendingAcks + (p.load batch).events.length ≤
          l.delivered + batch.length + l.reopened + p.acked + l.onReceipt
        omega
      · change p.acked + l.onReceipt ≤ (p.load batch).events.length
        omega
      · change p.index ≤ (p.load batch).events.length
        omega
    rw [hl, if_pos rfl] at hrun
    refine .congr hrun (Ends.bind (drain now hload) fun q hq => ?_)
    split
    · exact hq.setDisconnected now
    · exact hq
  | false =>
    obtain ⟨n, hn, he⟩ := acknowledgeReceipt_eq batch.length (p.load batch)
    have hload : ((p.load batch).called (.replicate n .acknowledge)).Credited
        (l.received false batch.length) := by
      have hsent := Traced.after_replicate_acknowledged_le n p.console
      refine ⟨?_, ?_, ?_, fun hlive => ?_⟩
      · change (Console.after (.replicate n .acknowledge) p.console).acknowledged +
          p.pendingAcks + (p.load batch).events.length ≤
            l.delivered + batch.length + l.reopened + p.acked + (l.onReceipt + batch.length)
        omega
      · change p.acked + (l.onReceipt + batch.length) ≤ (p.load batch).events.length
        omega
      · change p.index ≤ (p.load batch).events.length
        omega
      · change p.isLive = true at hlive
        simp [hl] at hlive
    rw [hl, if_neg Bool.false_ne_true, he] at hrun
    refine .congr hrun ?_
    split
    · exact play now hload
    · exact hload

end Bills
end Playback

end SessionPlayback
