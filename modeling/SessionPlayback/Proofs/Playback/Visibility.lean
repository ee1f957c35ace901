import Mathlib.Data.List.Induction
import Mathlib.Data.List.Infix
import SessionPlayback.Proofs.Playback.Display
import SessionPlayback.Proofs.Playback.Drain
import SessionPlayback.Proofs.Playback.Failure

/-!
What an acknowledgement says about the display of a live session. When one is sent, as many events
as have been acknowledged have been shown at some time before, unless output was lost on the way:
because a call failed, or because a seek went back while output was held. Such a seek drops what is
held but not the acknowledgements that are pending for it.
-/

namespace SessionPlayback

namespace Traced

variable {σ : Type} {t u : Traced σ}

/-- At some time the surfaces had exactly the output of the first events, `count` or more of
them. -/
def HasShown (t : Traced σ) (events : List Event) (count : Nat) : Prop :=
  ∃ (earlier : Traced σ) (n : Nat), earlier.calls <+: t.calls ∧ count ≤ n ∧ n ≤ events.length ∧
    earlier.shown = (events.take n).flatMap Event.terminalOutput ∧
    earlier.logged = String.join ((events.take n).map Event.keystrokeOutput)

theorem HasShown.mono {events later : List Event} {count fewer : Nat}
    (h : t.HasShown events count) (hc : t.calls <+: u.calls) (he : events <+: later)
    (hf : fewer ≤ count) : u.HasShown later fewer := by
  obtain ⟨earlier, n, hcalls, hle, hn, hshown, hlogged⟩ := h
  obtain ⟨more, rfl⟩ := he
  refine ⟨earlier, n, hcalls.trans hc, Nat.le_trans hf hle,
    Nat.le_trans hn (by simp), ?_, ?_⟩
  · rw [List.take_append_of_le_length hn, hshown]
  · rw [List.take_append_of_le_length hn, hlogged]

end Traced

namespace Playback

variable {σ : Type} [Console σ]

/-- Before these calls some operation of the run moved the cursor back while acknowledgements were
pending and `count` events or more had been counted. -/
def DroppedHeld (start : Playback (Traced σ)) (ops : List (Nanoseconds × Operation))
    (t : Traced σ) (count : Nat) : Prop :=
  ∃ front now op back, ops = front ++ (now, op) :: back ∧
    ((attemptAll front start).attempt now op).index < (attemptAll front start).index ∧
    0 < (attemptAll front start).pendingAcks ∧ count ≤ (attemptAll front start).acked ∧
    (attemptAll front start).console.calls <+: t.calls

/-- It is in order to have acknowledged `count` events. -/
def Warranted (start : Playback (Traced σ)) (ops : List (Nanoseconds × Operation))
    (events : List Event) (t : Traced σ) (count : Nat) : Prop :=
  t.HasShown events count ∨ t.Broken ∨ DroppedHeld start ops t count

def AcksWarranted (start : Playback (Traced σ)) (ops : List (Nanoseconds × Operation))
    (events : List Event) (t : Traced σ) : Prop :=
  ∀ (before : Traced σ) rest, t.calls = before.calls ++ (.acknowledge, true) :: rest →
    Warranted start ops events before (before.acknowledged + 1)

variable {start : Playback (Traced σ)} {ops ops' : List (Nanoseconds × Operation)}
  {events later : List Event} {t u : Traced σ}

theorem Warranted.mono {count fewer : Nat} (h : Warranted start ops events t count)
    (ho : ops <+: ops') (he : events <+: later) (hc : t.calls <+: u.calls)
    (hf : fewer ≤ count) : Warranted start ops' later u fewer := by
  rcases h with h | h | ⟨front, now, op, back, rfl, hi, hp, ha, hcalls⟩
  · exact .inl (h.mono hc he hf)
  · exact .inr (.inl (h.mono hc))
  · obtain ⟨more, rfl⟩ := ho
    refine .inr (.inr ⟨front, now, op, back ++ more, ?_, hi, hp, ?_, hcalls.trans hc⟩)
    · simp
    · exact Nat.le_trans hf ha

theorem Warranted.of_prefix {count fewer : Nat} (h : Warranted start ops events t count)
    (hc : t.calls <+: u.calls) (hf : fewer ≤ count) : Warranted start ops events u fewer :=
  h.mono List.prefix_rfl List.prefix_rfl hc hf

namespace AcksWarranted

/-- Calls are added; the acknowledgements among them have to be in order. -/
theorem extend {more : List (Call × Bool)} (h : AcksWarranted start ops events t)
    (ho : ops <+: ops') (he : events <+: later) (hu : u.calls = t.calls ++ more)
    (hnew : ∀ (before : Traced σ) front rest, before.calls = t.calls ++ front →
      more = front ++ (.acknowledge, true) :: rest →
      Warranted start ops' later before (before.acknowledged + 1)) :
    AcksWarranted start ops' later u := by
  intro before rest hk
  rw [hu] at hk
  -- The acknowledgement is one of the calls that were added, or it was there before.
  rcases List.append_eq_append_iff.mp hk with ⟨front, hb, hm⟩ | ⟨back, ht, hr⟩
  · exact hnew before front rest hb hm
  · cases back with
    | nil => exact hnew before [] rest (by simpa using ht.symm) (by simpa using hr.symm)
    | cons c back =>
      rw [List.cons_append, List.cons.injEq] at hr
      rw [← hr.1] at ht
      exact (h before back ht).mono ho he List.prefix_rfl (Nat.le_refl _)

theorem quiet {calls : List Call} (h : AcksWarranted start ops events t) (ho : ops <+: ops')
    (he : events <+: later) (hc : .acknowledge ∉ calls) :
    AcksWarranted start ops' later (Console.after calls t) := by
  obtain ⟨more, hm, hcalls⟩ := Traced.after_calls calls t
  refine h.extend ho he hm fun before front rest _ hk => absurd ?_ hc
  rw [← hcalls, hk]
  simp

/-- A run of acknowledgements that is in order as a whole is in order one by one. -/
theorem replicate {n count : Nat} (h : AcksWarranted start ops events t)
    (hw : Warranted start ops events t count) (hn : t.acknowledged + n ≤ count) :
    AcksWarranted start ops events (Console.after (.replicate n .acknowledge) t) := by
  obtain ⟨more, hm, hcalls⟩ := Traced.after_calls (.replicate n .acknowledge) t
  refine h.extend List.prefix_rfl List.prefix_rfl hm fun before front rest hb hk => ?_
  refine hw.of_prefix (hb ▸ List.prefix_append _ _) ?_
  -- Those of the run that were sent before this one are among the calls in front of it.
  have hlen : more.length = n := by simpa using congrArg List.length hcalls
  have hfront : front.count (.acknowledge, true) ≤ front.length := List.count_le_length
  rw [Traced.acknowledged_eq_count] at hn ⊢
  rw [hb, List.count_append]
  rw [hk, List.length_append, List.length_cons] at hlen
  omega

end AcksWarranted

structure Counts (bound : Nat) (p q : Playback (Traced σ)) : Prop where
  console : q.console = p.console
  events : q.events = p.events
  acked : q.acked = p.acked + p.uncounted bound
  pending : q.pendingAcks = p.pendingAcks + p.uncounted bound

theorem taken_counts (p : Playback (Traced σ)) (e : Event) :
    Counts (p.index + 1) p (p.taken e) := ⟨rfl, rfl, rfl, rfl⟩

omit [Console σ] in
theorem resumed_counts (p : Playback (Traced σ)) : Counts p.index p p.resumed :=
  ⟨rfl, rfl, rfl, rfl⟩

/-- No output has been lost for good: what is counted is held in front of the cursor, or it is in
order to acknowledge it, which it is once nothing is pending. -/
structure Sound (start : Playback (Traced σ)) (ops : List (Nanoseconds × Operation))
    (p : Playback (Traced σ)) : Prop where
  displays : p.Displays
  live : p.isLive = true
  sum_le : p.console.acknowledged + p.pendingAcks ≤ p.acked
  counted : p.acked ≤ p.index ∨ Warranted start ops p.events p.console p.acked
  settled : p.pendingAcks = 0 → Warranted start ops p.events p.console p.acked

namespace Sound

variable {p q r : Playback (Traced σ)} {now : Nanoseconds}

/-- Neither counting nor acknowledging anything. -/
theorem transfer {calls : List Call} (h : Sound start ops p) (ho : ops <+: ops')
    (hd : q.Displays) (hl : q.isLive = true) (ha : q.acked = p.acked)
    (hp : q.pendingAcks = p.pendingAcks) (he : p.events <+: q.events)
    (hc : .acknowledge ∉ calls) (hq : q.console = Console.after calls p.console)
    (hback : q.index < p.index → 0 < p.pendingAcks →
      Warranted start ops' q.events q.console q.acked) :
    Sound start ops' q := by
  have hcalls : p.console.calls <+: q.console.calls := hq ▸ Traced.calls_prefix_after _ _
  have hsettled : q.pendingAcks = 0 → Warranted start ops' q.events q.console q.acked := by
    intro h0
    exact (h.settled (hp ▸ h0)).mono ho he hcalls (Nat.le_of_eq ha)
  refine ⟨hd, hl, ?_, ?_, hsettled⟩
  · rw [hq, Traced.after_acknowledged_of_notMem hc, hp, ha]
    exact h.sum_le
  -- Only going back can bring the cursor behind what has been counted.
  · rcases h.counted with hi | hw
    · by_cases hb : q.index < p.index
      · by_cases h0 : q.pendingAcks = 0
        · exact .inr (hsettled h0)
        · exact .inr (hback hb (by omega))
      · exact .inl (by omega)
    · exact .inr (hw.mono ho he hcalls (Nat.le_of_eq ha))

theorem counts {bound : Nat} (h : Sound start ops p) (hc : Counts bound p q)
    (hb : p.index ≤ bound) : q.console.acknowledged + q.pendingAcks ≤ q.acked ∧
      (q.acked ≤ bound ∨ Warranted start ops q.events q.console q.acked) := by
  have hsum := h.sum_le
  rw [hc.console, hc.events, hc.pending, hc.acked]
  refine ⟨by omega, ?_⟩
  by_cases hle : p.acked ≤ bound
  · left
    simp only [uncounted, h.live, ↓reduceIte]
    omega
  · have h0 : p.uncounted bound = 0 := by
      simp only [uncounted, h.live, ↓reduceIte]
      omega
    rw [h0]
    exact .inr (h.counted.resolve_left (by omega))

/-- Counting events that are held. -/
theorem held {e : Event} (h : Sound start ops p) (hd : q.Displays) (hl : q.isLive = true)
    (hq : q = { p.taken e with index := p.index + 1 }) : Sound start ops q := by
  obtain ⟨hsum, hcounted⟩ := h.counts (taken_counts p e) (Nat.le_succ _)
  subst hq
  refine ⟨hd, hl, hsum, hcounted, fun h0 => ?_⟩
  have h0 : p.pendingAcks + p.uncounted (p.index + 1) = 0 := h0
  have hu : p.uncounted (p.index + 1) = 0 := by omega
  change Warranted start ops p.events p.console (p.acked + p.uncounted (p.index + 1))
  rw [hu]
  exact h.settled (by omega)

/-- Delivering what has been counted: the flush shows it, so that it is in order to acknowledge
it. -/
theorem delivered {bound n : Nat} (h : Sound start ops p)
    (hacks : AcksWarranted start ops p.events p.console) (hc : Counts bound p q)
    (hb : p.index ≤ bound) (hlen : bound ≤ p.events.length)
    (hshows : q.Shows (p.events.take bound)) (hdel : q.Delivers n) :
    AcksWarranted start ops p.events (q.delivered n).console ∧
      (q.delivered n).console.acknowledged ≤ q.acked ∧
      Warranted start ops p.events (q.delivered n).console q.acked := by
  obtain ⟨hsum, hcounted⟩ := h.counts hc hb
  let flushed := Console.after q.held.calls q.console
  have hnone : .acknowledge ∉ q.held.calls := q.held.acknowledge_notMem
  have hacked : flushed.acknowledged = q.console.acknowledged :=
    Traced.after_acknowledged_of_notMem hnone
  -- The flush shows everything up to the bound; more than that was counted only if it was in order.
  have hw : Warranted start ops p.events flushed q.acked := by
    rcases hcounted with hle | hw
    · have hf := hshows.flushed hdel.flushes
      refine .inl ⟨flushed, bound, List.prefix_rfl, hle, hlen, ?_, ?_⟩
      · exact (List.append_nil _).symm.trans hf.output
      · exact (String.append_empty).symm.trans hf.keystrokes
    · rw [hc.events] at hw
      exact hw.of_prefix (Traced.calls_prefix_after _ _) (Nat.le_refl _)
  have hconsole : (q.delivered n).console =
      Console.after (.replicate n .acknowledge) flushed := Console.after_append _ _ _
  have hle := hdel.le_pending
  rw [hconsole]
  refine ⟨?_, ?_, ?_⟩
  · rw [← hc.console] at hacks
    refine (hacks.quiet List.prefix_rfl List.prefix_rfl hnone).replicate hw ?_
    change flushed.acknowledged + n ≤ q.acked
    omega
  · have hcount := Traced.after_replicate_acknowledged_le n flushed
    omega
  · exact hw.of_prefix (Traced.calls_prefix_after _ _) (Nat.le_refl _)

theorem stepped (h : Sound start ops p) (hacks : AcksWarranted start ops p.events p.console)
    (hq : Stepped now p q) : AcksWarranted start ops q.events q.console ∧ Sound start ops q := by
  have hd : q.Displays := h.displays.stepped hq
  have hl : q.isLive = true := (Advances.stepped hq).isLive_eq.trans h.live
  cases hq with
  | resting _ hn => simp [h.live] at hn
  | idle =>
    refine ⟨hacks, h.transfer List.prefix_rfl hd hl rfl rfl List.prefix_rfl
      List.not_mem_nil rfl fun hi => ?_⟩
    exact absurd hi (Nat.lt_irrefl _)
  | held e => exact ⟨hacks, h.held hd hl rfl⟩
  | shown e n hp he hdel =>
    obtain ⟨timer, paused, hs⟩ :=
      scheduleNext_frame { (p.taken e).delivered n with index := p.index + 1 } now
    have hshows : (p.taken e).Shows (p.events.take (p.index + 1)) := by
      rw [take_succ_events he]
      exact h.displays.shows.taken e
    obtain ⟨ha, hsum, hw⟩ := h.delivered hacks (taken_counts p e) (Nat.le_succ _)
      (List.getElem?_eq_some_iff.mp he).1 hshows hdel
    rw [hs] at hd hl ⊢
    exact ⟨ha, hd, hl, hsum, .inr hw, fun _ => hw⟩

theorem played (h : Sound start ops p) (hacks : AcksWarranted start ops p.events p.console)
    (hq : Played now p q) : AcksWarranted start ops q.events q.console ∧ Sound start ops q := by
  have hd : q.Displays := h.displays.played hq
  have hl : q.isLive = true := (Advances.played hq).isLive_eq.trans h.live
  cases hq with
  | already => exact ⟨hacks, h⟩
  | ended _ he => simp [isEnded, h.live] at he
  | resumed n hp he hdel =>
    obtain ⟨timer, delay, hs⟩ := rearmed_frame now (p.resumed.delivered n)
    have hshows : p.resumed.Shows (p.events.take p.index) :=
      h.displays.shows.congr rfl rfl rfl
    obtain ⟨ha, hsum, hw⟩ := h.delivered hacks (resumed_counts p) (Nat.le_refl _)
      h.displays.index_le hshows hdel
    rw [hs] at hd hl ⊢
    exact ⟨ha, hd, hl, hsum, .inr hw, fun _ => hw⟩

theorem mono (h : Sound start ops p) (ho : ops <+: ops') : Sound start ops' p :=
  h.transfer ho h.displays h.live rfl rfl List.prefix_rfl List.not_mem_nil rfl
    fun hi => absurd hi (Nat.lt_irrefl _)

theorem pause (h : Sound start ops p) (now : Nanoseconds) : Sound start ops (p.pause now) := by
  have hd := h.displays.pause now
  obtain ⟨timer, delay, hs⟩ := pause_frame now p
  rw [hs] at hd ⊢
  exact h.transfer List.prefix_rfl hd h.live rfl rfl List.prefix_rfl
    List.not_mem_nil rfl fun hi => absurd hi (Nat.lt_irrefl _)

theorem rescaled (h : Sound start ops p) (now : Nanoseconds) (speed : Binary64)
    (delay : Nanoseconds) : Sound start ops (p.rescaled now speed delay) := by
  obtain ⟨hd, hl, hsum, hcounted, hsettled⟩ := h.pause now
  exact ⟨⟨hd.index_le, hd.shows.congr rfl rfl rfl, hd.paused_of_held⟩, hl, hsum, hcounted,
    hsettled⟩

end Sound

/-- Every acknowledgement was in order, and the next ones will be, unless a call has failed. -/
structure Honest (start : Playback (Traced σ)) (ops : List (Nanoseconds × Operation))
    (p : Playback (Traced σ)) : Prop where
  acks : AcksWarranted start ops p.events p.console
  sound : p.console.Broken ∨ Sound start ops p

namespace Honest

variable {p q : Playback (Traced σ)} {now : Nanoseconds} {op : Operation}

theorem mono (h : Honest start ops p) (ho : ops <+: ops') : Honest start ops' p := by
  refine ⟨fun before rest hk => ?_, h.sound.imp_right (·.mono ho)⟩
  exact (h.acks before rest hk).mono ho List.prefix_rfl List.prefix_rfl (Nat.le_refl _)

theorem of_sound (h : AcksWarranted start ops p.events p.console ∧ Sound start ops p) :
    Honest start ops p :=
  ⟨h.1, .inr h.2⟩

/-- Once a call has failed nothing is claimed about acknowledgements any more. -/
theorem of_broken (h : AcksWarranted start ops p.events p.console) (hb : p.console.Broken)
    (hq : p.Advances q) : Honest start ops q := by
  obtain ⟨calls, hc⟩ := hq.console_eq
  obtain ⟨more, hm, -⟩ := Traced.after_calls calls p.console
  refine ⟨?_, .inl (hb.mono hq.calls_prefix)⟩
  refine h.extend List.prefix_rfl hq.events_prefix (hc ▸ hm) fun before front _ hbefore _ => ?_
  exact .inr (.inl (hb.mono (hbefore ▸ List.prefix_append _ _)))

/-- A seek drops nothing unless it goes back while acknowledgements are pending. -/
theorem moved {target : Nat} (hacks : AcksWarranted start ops p.events p.console)
    (h : Sound start ops p) (hp : p = attemptAll ops start) (hq : Moved now target p q)
    (hop : p.attempt now op = q) : Honest start (ops ++ [(now, op)]) q := by
  have hd : q.Displays := h.displays.moved hq
  have hadv := Advances.moved hq
  have ho : ops <+: ops ++ [(now, op)] := List.prefix_append _ _
  rcases hq.disturbed with rfl | ⟨-, s, delay, ⟨calls, _, _, _, hc, -, rfl⟩, hqs⟩
  · exact Honest.mono ⟨hacks, .inr h⟩ ho
  · rw [halted_eq] at hqs
    have hconsole : q.console = Console.after calls p.console := by rw [hqs]; rfl
    have hacked : q.acked = p.acked := by rw [hqs]; rfl
    have hpending : q.pendingAcks = p.pendingAcks := by rw [hqs]; rfl
    constructor
    · rw [hconsole]
      exact hacks.quiet ho hadv.events_prefix hc
    -- What was held is gone now, but the acknowledgements for it are still pending.
    · refine .inr (h.transfer ho hd (hadv.isLive_eq.trans h.live) hacked hpending
        hadv.events_prefix hc hconsole fun hi h0 => .inr (.inr ⟨ops, now, op, [], rfl, ?_⟩))
      rw [← hp, hop]
      exact ⟨hi, h0, Nat.le_of_eq hacked, hadv.calls_prefix⟩

theorem speedChanged (hacks : AcksWarranted start ops p.events p.console)
    (h : Sound start ops p) (hq : SpeedChanged now p q) : Honest start ops q := by
  cases hq with
  | paused speed =>
    refine ⟨hacks, .inr ?_⟩
    obtain ⟨hd, hl, hsum, hcounted, hsettled⟩ := h
    exact ⟨⟨hd.index_le, hd.shows.congr rfl rfl rfl, hd.paused_of_held⟩, hl, hsum, hcounted,
      hsettled⟩
  | playing speed delay _ _ _ hq =>
    have hr : AcksWarranted start ops (p.rescaled now speed delay).events
        (p.rescaled now speed delay).console := by
      obtain ⟨timer, saved, hs⟩ := pause_frame now p
      rw [Playback.rescaled, hs]
      exact hacks
    exact .of_sound ((h.rescaled now speed delay).played hr hq)

theorem loaded (hacks : AcksWarranted start ops p.events p.console) (h : Sound start ops p)
    (events : List Event) : Honest start ops (p.load events) := by
  have hadv := Advances.load events p
  refine ⟨hacks.quiet List.prefix_rfl hadv.events_prefix List.not_mem_nil, .inr ?_⟩
  exact h.transfer List.prefix_rfl (h.displays.load events) h.live rfl rfl
    hadv.events_prefix List.not_mem_nil rfl fun hi => absurd hi (Nat.lt_irrefl _)

theorem outcome (hk : op.keepsMode = true) (hacks : AcksWarranted start ops p.events p.console)
    (h : Sound start ops p) (hp : p = attemptAll ops start) (hq : Outcome now p op q)
    (hop : p.attempt now op = q) : Honest start (ops ++ [(now, op)]) q := by
  have ho : ops <+: ops ++ [(now, op)] := List.prefix_append _ _
  cases hq with
  | unchanged => exact Honest.mono ⟨hacks, .inr h⟩ ho
  | stepped _ _ hq => exact (of_sound (h.stepped hacks hq)).mono ho
  | played _ _ hq => exact (of_sound (h.played hacks hq)).mono ho
  | paused =>
    have hpause := h.pause now
    obtain ⟨timer, delay, hs⟩ := pause_frame now p
    rw [hs] at hpause ⊢
    exact Honest.mono ⟨hacks, .inr hpause⟩ ho
  | speedChanged _ _ hq => exact (speedChanged hacks h hq).mono ho
  | moved _ _ _ hq => exact moved hacks h hp hq hop
  | loaded _ events => exact (loaded hacks h events).mono ho
  | live => cases hk
  | disconnected => cases hk
  | cleared => cases hk

/-- An operation keeps this, whether it succeeds or fails. -/
theorem attempt (hk : op.keepsMode = true) (h : Honest start ops p)
    (hp : p = attemptAll ops start) : Honest start (ops ++ [(now, op)]) (p.attempt now op) := by
  have ho : ops <+: ops ++ [(now, op)] := List.prefix_append _ _
  have hadv : p.Advances (p.attempt now op) := attempt_advances hk p
  rcases h.sound with hb | hs
  · exact (of_broken h.acks hb hadv).mono ho
  · cases hrun : (operate now op).run p with
    | ok u q =>
      have hop : p.attempt now op = q := by simp only [Playback.attempt, hrun]
      rw [hop]
      exact outcome hk h.acks hs hp (operate_ok hrun) hop
    | error f q =>
      have hop : p.attempt now op = q := by simp only [Playback.attempt, hrun]
      rw [hop] at hadv ⊢
      have hacks : AcksWarranted start ops q.events q.console := by
        obtain ⟨calls, hc, hq⟩ := calls_of_failed (operate_error hk hrun)
        rw [hq]
        exact h.acks.quiet List.prefix_rfl hadv.events_prefix hc
      refine Honest.mono ⟨hacks, ?_⟩ ho
      rcases operate_error_broken hk hrun with hb | rfl | ⟨speed, delay, rfl⟩
      · exact .inl hb
      · exact .inr hs
      · exact .inr (hs.rescaled now speed delay)

theorem attemptAll {ops : List (Nanoseconds × Operation)}
    (hk : ∀ o ∈ ops, o.2.keepsMode = true) (h : Honest start [] start) :
    Honest start ops (attemptAll ops start) := by
  -- From the end, because a seek that drops output is told by the operations before it.
  induction ops using List.reverseRecOn with
  | nil => exact h
  | append_singleton ops o ih =>
    obtain ⟨now, op⟩ := o
    rw [attemptAll_append]
    exact attempt (hk (now, op) (by simp)) (ih fun o ho => hk o (by simp [ho])) rfl

end Honest

theorem create_setLive_honest {s : σ} {config : Config} {p : Playback (Traced σ)}
    (hc : create? ⟨s, []⟩ config = .ok p) : Honest p.setLive [] p.setLive := by
  have hd : p.setLive.Displays := (create_displays hc).setLive
  obtain ⟨speed, -, rfl⟩ := create_eq hc
  refine ⟨fun before rest hk => ?_, .inr ⟨hd, rfl, Nat.le_refl 0, .inl (Nat.le_refl 0), ?_⟩⟩
  · cases hb : before.calls <;> simp [setLive, hb] at hk
  · exact fun _ => .inl ⟨⟨s, []⟩, 0, List.prefix_rfl, Nat.le_refl 0, Nat.le_refl 0, rfl, rfl⟩

/-- When an acknowledgement is sent by a session that is live from the beginning, as many events as
are acknowledged with it have been shown at some time before, or some call has failed, or a seek has
gone back over events of which some had been counted and were still to be acknowledged. -/
theorem shown_of_acknowledged {s : σ} {config : Config} {p q : Playback (Traced σ)}
    {ops : List (Nanoseconds × Operation)} {before : Traced σ} {rest : List (Call × Bool)}
    (hc : create? ⟨s, []⟩ config = .ok p) (hops : ∀ o ∈ ops, o.2.keepsMode = true)
    (hq : q = attemptAll ops p.setLive)
    (hk : q.console.calls = before.calls ++ (.acknowledge, true) :: rest) :
    before.HasShown q.events (before.acknowledged + 1) ∨ before.Broken ∨
      DroppedHeld p.setLive ops before (before.acknowledged + 1) := by
  subst hq
  exact (Honest.attemptAll hops (create_setLive_honest hc)).acks before rest hk

def counting : Transcript := { cell := ⟨8, 16⟩, acks := .counting 0 }

def heldBatch : List (Nanoseconds × Operation) :=
  [batch, (1, .step), (2, .step), (3, .step), (4, .step)]

/-- The second of four events that were held is acknowledged after the flush of all of them. -/
theorem shown_of_heldBatch : ∃ (p q : Playback (Traced Transcript)) (before : Traced Transcript)
    (rest : List (Call × Bool)), create? ⟨counting, []⟩ {} = .ok p ∧
      (∀ o ∈ heldBatch ++ [(5, .command .play)], o.2.keepsMode = true) ∧
      q = attemptAll (heldBatch ++ [(5, .command .play)]) p.setLive ∧
      q.console.calls = before.calls ++ (.acknowledge, true) :: rest ∧
      before.acknowledged + 1 = 2 ∧
      (before.HasShown q.events 2 ∨ before.Broken ∨
        DroppedHeld p.setLive (heldBatch ++ [(5, .command .play)]) before 2) := by
  let p : Playback (Traced Transcript) :=
    { config := {}, console := ⟨counting, []⟩, speed := Binary64.ofInt 1 }
  let q := attemptAll (heldBatch ++ [(5, .command .play)]) p.setLive
  let before : Traced Transcript :=
    ⟨counting, [(.write [97, 98, 99, 100], true), (.acknowledge, true)]⟩
  have hc : create? ⟨counting, []⟩ {} = .ok p := create_default _
  have hops : ∀ o ∈ heldBatch ++ [(5, .command .play)], o.2.keepsMode = true := by decide
  have hk : q.console.calls = before.calls ++ (.acknowledge, true) :: [(.acknowledge, true),
      (.acknowledge, true)] := by decide +kernel
  have hcount : before.acknowledged + 1 = 2 := by decide
  have hshown := shown_of_acknowledged hc hops (rfl : q = _) hk
  rw [hcount] at hshown
  exact ⟨p, q, before, _, hc, hops, rfl, hk, hcount, hshown⟩

/-- A terminal on which the first event has been shown from the beginning; three events have been
acknowledged. -/
def rebuiltFirst : Traced Transcript :=
  ⟨counting, [(.reset, true), (.clear, true), (.resize ({} : Config).initialGeometry, true),
    (.write [97], true), (.acknowledge, true), (.acknowledge, true), (.acknowledge, true)]⟩

/-- After a seek back over output that was held, all four events are acknowledged although nothing
has failed and only the first of them was ever shown. -/
theorem acknowledged_unshown : ∃ (p q : Playback (Traced Transcript)) (before : Traced Transcript)
    (rest : List (Call × Bool)), create? ⟨counting, []⟩ {} = .ok p ∧
      (operateAll (heldBatch ++ [(5, .command (.seek 0)), (6, .command .play)])).run p.setLive =
        .ok () q ∧
      q.console.calls = before.calls ++ (.acknowledge, true) :: rest ∧
      before.acknowledged + 1 = 4 ∧ ¬before.HasShown q.events 4 := by
  let p : Playback (Traced Transcript) :=
    { config := {}, console := ⟨counting, []⟩, speed := Binary64.ofInt 1 }
  have hrun : succeedsWith
      (operateAll (heldBatch ++ [(5, .command (.seek 0)), (6, .command .play)]))
      (fun q => decide (q.console.calls = rebuiltFirst.calls ++ [(.acknowledge, true)]) &&
        decide (q.events.flatMap Event.terminalOutput = [97, 98, 99, 100]) &&
        decide (q.events.length = 4)) p.setLive = true := by decide +kernel
  obtain ⟨q, hq, htest⟩ := exists_of_succeedsWith hrun
  simp only [Bool.and_eq_true, decide_eq_true_eq] at htest
  obtain ⟨⟨hcalls, hevents⟩, hlen⟩ := htest
  refine ⟨p, q, rebuiltFirst, [], create_default _, hq, hcalls, by decide, ?_⟩
  rintro ⟨earlier, n, hprefix, hle, hn, hshown, -⟩
  have hn : n = q.events.length := by omega
  rw [hn, List.take_length, hevents] at hshown
  have hnever : ∀ calls ∈ rebuiltFirst.calls.inits,
      (⟨counting, calls⟩ : Traced Transcript).shown ≠ [97, 98, 99, 100] := by decide +kernel
  have hsame : (⟨counting, earlier.calls⟩ : Traced Transcript).shown = earlier.shown :=
    Traced.shown_congr rfl
  exact hnever earlier.calls (List.mem_inits _ _ |>.mpr hprefix) (hsame.trans hshown)

end Playback
end SessionPlayback
