import SessionPlayback.Playback.Run
import SessionPlayback.Proofs.Console.Service
import SessionPlayback.Proofs.Playback.Replay

/-!
Following the timer of a replay. On surfaces that do not fail a replay that plays takes one event
after the other, and it comes to rest behind the first end of the session that is in front of its
cursor, or behind the last event. The gaps in between add up to the point of the clock at which it
gets there, and a run that would need a later point than the clock has gives up.
-/

namespace SessionPlayback

/-- How many events a replay plays: all up to the first end of the session. -/
def playedLength (events : List Event) : Nat :=
  min (events.findIdx Event.isStop + 1) events.length

def playedFrom (first : Nat) (events : List Event) : Nat :=
  min (first + (events.drop first).findIdx Event.isStop + 1) events.length

section PlayedFrom

variable {events : List Event} {i : Nat} {e : Event}

theorem playedFrom_of_le (hi : events.length ≤ i) : playedFrom i events = events.length := by
  simp only [playedFrom]
  omega

theorem lt_playedFrom (hi : i < events.length) : i < playedFrom i events := by
  simp only [playedFrom]
  omega

theorem playedFrom_of_unstopped (h : ∀ e ∈ events, e.isStop = false) (hi : i ≤ events.length) :
    playedFrom i events = events.length := by
  have hlast : (events.drop i).findIdx Event.isStop = events.length - i := by
    rw [← List.length_drop, List.findIdx_eq_length]
    exact fun e he => h e (List.mem_of_mem_drop he)
  rw [playedFrom, hlast]
  omega

theorem playedFrom_of_stop (he : events[i]? = some e) (hs : e.isStop = true) :
    playedFrom i events = i + 1 := by
  obtain ⟨hi, rfl⟩ := List.getElem?_eq_some_iff.mp he
  rw [playedFrom, List.drop_eq_getElem_cons hi, List.findIdx_cons, hs]
  exact Nat.min_eq_left hi

theorem playedFrom_succ (he : events[i]? = some e) (hs : e.isStop = false) :
    playedFrom i events = playedFrom (i + 1) events := by
  obtain ⟨hi, rfl⟩ := List.getElem?_eq_some_iff.mp he
  rw [playedFrom, List.drop_eq_getElem_cons hi, List.findIdx_cons, hs, playedFrom, cond_false]
  congr 1
  omega

/-- A replay that has not met the end of the session ends where it ends from the beginning. -/
theorem playedFrom_eq_playedLength (hi : i ≤ events.findIdx Event.isStop) :
    playedFrom i events = playedLength events := by
  induction i with
  | zero => simp [playedFrom, playedLength]
  | succ i ih =>
    have hle : events.findIdx Event.isStop ≤ events.length := List.findIdx_le_length
    have hlt : i < events.length := by omega
    have hn : events[i].isStop = false := List.not_of_lt_findIdx hi
    rw [← playedFrom_succ (List.getElem?_eq_getElem hlt) hn]
    exact ih (by omega)

end PlayedFrom

namespace Playback

variable {σ : Type}

/-- The time from one event to a later one. -/
def gapSum (p : Playback σ) (first last : Nat) : Nanoseconds :=
  (List.range' first (last - first)).foldr (fun i rest => p.gap i (i + 1) + rest) 0

theorem gapSum_of_le {first last : Nat} (h : last ≤ first) (p : Playback σ) :
    p.gapSum first last = 0 := by
  simp [gapSum, Nat.sub_eq_zero_of_le h]

theorem gapSum_of_lt {first last : Nat} (h : first < last) (p : Playback σ) :
    p.gapSum first last = p.gap first (first + 1) + p.gapSum (first + 1) last := by
  obtain ⟨n, hn⟩ : ∃ n, last - first = n + 1 := ⟨last - first - 1, by omega⟩
  have hrest : last - (first + 1) = n := by omega
  simp [gapSum, hn, hrest, List.range'_succ]

/-- If every second gap is that long at least, so is the sum that many times over. -/
theorem le_gapSum {p : Playback σ} {delay : Nanoseconds} {first last n : Nat}
    (hlast : 2 * (first + n) ≤ last)
    (hgap : ∀ i, i < first + n → delay ≤ p.gap (2 * i) (2 * i + 1)) :
    n * delay ≤ p.gapSum (2 * first) last := by
  induction n generalizing first with
  | zero => simp
  | succ n ih =>
    have hfirst := hgap first (by omega)
    have hrest : n * delay ≤ p.gapSum (2 * (first + 1)) last :=
      ih (by omega) fun i hi => hgap i (by omega)
    rw [gapSum_of_lt (by omega), gapSum_of_lt (by omega), Nat.succ_mul]
    calc n * delay + delay
        ≤ p.gapSum (2 * (first + 1)) last + p.gap (2 * first) (2 * first + 1) :=
          Nat.add_le_add hrest hfirst
      _ = p.gap (2 * first) (2 * first + 1) + p.gapSum (2 * first + 1 + 1) last := Nat.add_comm _ _
      _ ≤ _ := Nat.add_le_add_left (Nat.le_add_left _ _) _

/-- When the event at the cursor is due if a replay plays, or is played from now on. -/
def due (now : Nanoseconds) (p : Playback σ) : Nanoseconds :=
  match p.timer with
  | some timer => timer.deadline
  | none => now + p.savedDelay

/-- The last deadline of a replay that plays from now on: one event may be late, those behind it
follow at their gaps. A replay that has ended has no deadline. -/
def lastDeadline (now : Nanoseconds) (p : Playback σ) : Nanoseconds :=
  let last := playedFrom p.index p.events - 1
  if p.isEnded then 0
  else if last = p.index then p.due now
  else max now (p.due now) + p.gapSum p.index last

variable [Console σ]

/-- The surfaces never fail; acknowledgements, which a replay does not send, may. -/
def Served (p : Playback σ) : Prop :=
  ∀ kind, kind ≠ .acknowledge → Console.Serves kind p.console

namespace Served

variable {p : Playback σ}

theorem succeed (h : p.Served) {calls : List Call} (hc : .acknowledge ∉ calls) :
    Console.Succeed calls p.console := by
  refine Console.succeed_of_serves fun call hm => h _ ?_
  cases call <;> simp_all [Call.kind]

theorem called (h : p.Served) (calls : List Call) : (p.called calls).Served :=
  fun kind hk => (h kind hk).after calls

end Served

theorem Served.moveTo {p : Playback σ} (h : p.Served) (now : Nanoseconds) (target : Nat) :
    ∃ q, (moveTo now target).run p = .ok () q ∧ q.Served := by
  have hh : (p.halted now).Served := by
    rw [halted_eq]
    exact h
  rw [moveTo_run, ← halted_isLive now p]
  split
  · exact ⟨p, rfl, h⟩
  · split
    · have hr : rewind.run (p.halted now) = .ok () (p.halted now).rewound :=
        rewind_ok_iff.mpr ⟨hh.succeed (by simp), rfl⟩
      have hs : (p.halted now).rewound.Served := hh.called _
      have hl : (land target (p.events.take (target + 1)) (p.halted now).rewound.isLive).run
          (p.halted now).rewound = .ok () _ :=
        land_ok_iff.mpr ⟨hs.succeed (Held.acknowledge_notMem _), rfl⟩
      exact ⟨_, run_bind_ok_iff.mpr ⟨_, hr, hl⟩, hs.called _⟩
    · exact ⟨_, land_ok_iff.mpr ⟨hh.succeed (Held.acknowledge_notMem _), rfl⟩, hh.called _⟩

/-- Taking a step whenever the timer fires leads from the one playback to the other, which has no
timer. The clock has no end here. -/
inductive Follows : Nanoseconds → Playback σ → Playback σ → Prop where
  | idle {now : Nanoseconds} {p : Playback σ} (ht : p.timer = none) : Follows now p p
  | fired {now : Nanoseconds} {p q r : Playback σ} (timer : Timer) (ht : p.timer = some timer)
      (hs : (step (max now timer.deadline)).run p = .ok () q)
      (hr : Follows (max now timer.deadline) q r) : Follows now p r

/-- Playing and then following the timer, on a clock without an end, leads from the one playback to
the other. -/
def PlaysOut (now : Nanoseconds) (p q : Playback σ) : Prop :=
  ∃ r, (play now).run p = .ok () r ∧ Follows now r q

theorem Follows.unique {now : Nanoseconds} {p q r : Playback σ} (hq : Follows now p q)
    (hr : Follows now p r) : q = r := by
  induction hq with
  | idle ht =>
    cases hr with
    | idle => rfl
    | fired timer ht' => simp [ht] at ht'
  | fired timer ht hs _ ih =>
    cases hr with
    | idle ht' => simp [ht] at ht'
    | fired timer' ht' hs' hr =>
      cases ht.symm.trans ht'
      cases hs.symm.trans hs'
      exact ih hr

/-- A playback plays out in one way only. -/
theorem PlaysOut.unique {now : Nanoseconds} {p q r : Playback σ} (hq : PlaysOut now p q)
    (hr : PlaysOut now p r) : q = r := by
  obtain ⟨s, hs, hq⟩ := hq
  obtain ⟨s', hs', hr⟩ := hr
  cases hs.symm.trans hs'
  exact hq.unique hr

/-- What every step keeps holds when the timer has been followed. -/
theorem Follows.keeps {I : Playback σ → Prop}
    (hstep : ∀ now p q, Stepped now p q → I p → I q) {now : Nanoseconds} {p q : Playback σ}
    (h : Follows now p q) (hp : I p) : I q := by
  induction h with
  | idle => exact hp
  | fired timer _ hs _ ih => exact ih (hstep _ _ _ (step_ok hs) hp)

theorem PlaysOut.keeps {I : Playback σ → Prop}
    (hstep : ∀ now p q, Stepped now p q → I p → I q)
    (hplay : ∀ now p q, Played now p q → I p → I q) {now : Nanoseconds} {p q : Playback σ}
    (h : PlaysOut now p q) (hp : I p) : I q := by
  obtain ⟨r, hr, hq⟩ := h
  exact hq.keeps hstep (hplay now p r (play_ok hr) hp)

/-- A run that is to come to rest in a playback does so once its last deadline is over. If the clock
does not reach so far, it gives up. -/
structure Progress.Ends (r : Progress σ) (start last : Nanoseconds) (p : Playback σ) : Prop where
  in_range : last < clockLimit → r = ⟨.ok (), max start last, p⟩
  beyond : clockLimit ≤ last → r.result = .error .clockRange

omit [Console σ] in
/-- One deadline more in front of such a run. -/
theorem Progress.Ends.fired {r : Progress σ} {deadline now last : Nanoseconds} {p q : Playback σ}
    (h : r.Ends (max now deadline) last q) (hle : max now deadline ≤ last) :
    Progress.Ends (if deadline < clockLimit then r else ⟨.error .clockRange, now, p⟩) now last
      q := by
  constructor
  · intro hlimit
    have hnow : now ≤ last := Nat.le_trans (Nat.le_max_left _ _) hle
    have hdeadline : deadline ≤ last := Nat.le_trans (Nat.le_max_right _ _) hle
    rw [if_pos (Nat.lt_of_le_of_lt hdeadline hlimit), h.in_range hlimit, Nat.max_eq_right hle,
      Nat.max_eq_right hnow]
  · intro hlimit
    split
    · exact h.beyond hlimit
    · rfl

theorem followFor_idle {p : Playback σ} (ht : p.timer = none) (bound : Nat)
    (now : Nanoseconds) : followFor bound now p = ⟨.ok (), now, p⟩ := by
  cases bound with
  | zero => rfl
  | succ bound => simp [followFor, deadline?, ht]

theorem followFor_fired {p q : Playback σ} {timer : Timer} {now : Nanoseconds}
    (ht : p.timer = some timer) (hs : (step (max now timer.deadline)).run p = .ok () q)
    (bound : Nat) : followFor (bound + 1) now p =
      if timer.deadline < clockLimit then followFor bound (max now timer.deadline) q
      else ⟨.error .clockRange, now, p⟩ := by
  simp only [EStateM.run] at hs
  simp only [followFor, deadline?, ht]
  by_cases hdeadline : timer.deadline < clockLimit
  · simp only [hdeadline, ↓reduceIte, hs]
  · simp only [hdeadline, ↓reduceIte]

omit [Console σ] in
theorem isEnded_of_replay {p : Playback σ} (hl : p.isLive = false) :
    p.isEnded = (decide (p.events.length ≤ p.index) || p.stopped) := by
  simp [isEnded, hl]

omit [Console σ] in
/-- After an event a replay is done or waits for the next one. -/
theorem scheduleNext_of_replay {p : Playback σ} (hl : p.isLive = false) (now : Nanoseconds) :
    p.scheduleNext now =
      if p.isEnded then { p with paused := true }
      else p.arm now (p.gap (p.index - 1) p.index) := by
  unfold scheduleNext isEnded
  by_cases hs : p.stopped = true
  · simp [hs, hl]
  · by_cases hi : p.index < p.events.length
    · simp [hs, hl, hi, Nat.not_le.mpr hi]
    · simp [hs, hl, hi, Nat.le_of_not_lt hi]

structure Running (p : Playback σ) : Prop where
  served : p.Served
  notLive : p.isLive = false
  notPaused : p.paused = false
  notEnded : p.isEnded = false
  armed : p.timer.isSome = true

structure Finished (p : Playback σ) : Prop where
  served : p.Served
  unheld : p.held = {}
  ended : p.isEnded = true
  paused : p.paused = true
  timer : p.timer = none

variable {p : Playback σ}

theorem Finished.state_eq (h : p.Finished) : p.state = .ended := by
  simp [state, h.ended]

omit [Console σ] in
theorem waiting_of_notEnded (hl : p.isLive = false) (he : p.isEnded = false) :
    p.index < p.events.length ∧ p.stopped = false := by
  rw [isEnded_of_replay hl, Bool.or_eq_false_iff, decide_eq_false_iff_not] at he
  exact ⟨Nat.lt_of_not_le he.1, he.2⟩

omit [Console σ] in
theorem lastDeadline_of_ended (he : p.isEnded = true) (now : Nanoseconds) :
    p.lastDeadline now = 0 := by
  simp [lastDeadline, he]

omit [Console σ] in
theorem lastDeadline_of_last (he : p.isEnded = false)
    (hi : playedFrom p.index p.events = p.index + 1) (now : Nanoseconds) :
    p.lastDeadline now = p.due now := by
  simp [lastDeadline, he, hi]

omit [Console σ] in
theorem lastDeadline_of_more (he : p.isEnded = false)
    (hi : p.index + 1 < playedFrom p.index p.events) (now : Nanoseconds) :
    p.lastDeadline now =
      max now (p.due now) + p.gapSum p.index (playedFrom p.index p.events - 1) := by
  have hne : playedFrom p.index p.events - 1 ≠ p.index := by omega
  simp [lastDeadline, he, hne]

omit [Console σ] in
theorem lastDeadline_arm (he : p.isEnded = false) (hi : p.index < playedFrom p.index p.events)
    (now delay : Nanoseconds) : (p.arm now delay).lastDeadline now =
      now + delay + p.gapSum p.index (playedFrom p.index p.events - 1) := by
  have hended : (p.arm now delay).isEnded = false := he
  have hdue : (p.arm now delay).due now = now + delay := rfl
  rcases Nat.eq_or_lt_of_le (Nat.succ_le_of_lt hi) with hlast | hmore
  · rw [lastDeadline_of_last hended hlast.symm, hdue, gapSum_of_le (by omega), Nat.add_zero]
  · rw [lastDeadline_of_more hended hmore, hdue, Nat.max_eq_right (Nat.le_add_right _ _)]
    rfl

/-- A step of a replay that plays shows one event. If it is the end of the session, or the last
event, the replay comes to rest; otherwise it plays on, and its end stays where it is. -/
theorem Running.step (h : p.Running) (now : Nanoseconds) :
    ∃ q, (step now).run p = .ok () q ∧ q.events = p.events ∧ q.index = p.index + 1 ∧
      (q.Running ∧ playedFrom q.index q.events = playedFrom p.index p.events ∧
          q.index < playedFrom p.index p.events ∧
          q.lastDeadline now = now + p.gapSum p.index (playedFrom p.index p.events - 1) ∨
        q.Finished ∧ q.index = playedFrom p.index p.events) := by
  obtain ⟨hi, hstopped⟩ := waiting_of_notEnded h.notLive h.notEnded
  let e := p.events[p.index]
  have he : p.events[p.index]? = some e := List.getElem?_eq_getElem hi
  have hf : Console.Succeed (p.taken e).held.calls p.console :=
    h.served.succeed (Held.acknowledge_notMem _)
  obtain ⟨n, -, hq⟩ := step_of_flush now h.notPaused he hf
  let s : Playback σ := { (p.taken e).delivered n with index := p.index + 1 }
  have hl : s.isLive = false := (Metadata.after_live p.session _).trans h.notLive
  have hended : s.isEnded = (decide (p.events.length ≤ p.index + 1) || e.isStop) := by
    rw [isEnded_of_replay hl]
    change (_ || (p.stopped || (e.isStop && !p.isLive))) = _
    simp [hstopped, h.notLive, s, delivered, taken, called]
  change (Playback.step now).run p = .ok () (s.scheduleNext now) at hq
  rw [scheduleNext_of_replay hl] at hq
  refine ⟨_, hq, ?_⟩
  cases hs : s.isEnded with
  | true =>
    have hend : p.index + 1 = playedFrom p.index p.events := by
      rw [hended, Bool.or_eq_true, decide_eq_true_eq] at hs
      cases hstop : e.isStop with
      | true => exact (playedFrom_of_stop he hstop).symm
      | false =>
        have hlen : p.events.length ≤ p.index + 1 := by simpa [hstop] using hs
        rw [playedFrom_succ he hstop, playedFrom_of_le hlen]
        omega
    exact ⟨rfl, rfl, .inr ⟨⟨h.served.called _, rfl, hs, rfl, rfl⟩, hend⟩⟩
  | false =>
    have hgo : p.index + 1 < p.events.length ∧ e.isStop = false := by
      rw [hended, Bool.or_eq_false_iff, decide_eq_false_iff_not] at hs
      exact ⟨Nat.lt_of_not_le hs.1, hs.2⟩
    have hend : playedFrom (p.index + 1) p.events = playedFrom p.index p.events :=
      (playedFrom_succ he hgo.2).symm
    have hlt : p.index + 1 < playedFrom p.index p.events := hend ▸ lt_playedFrom hgo.1
    refine ⟨rfl, rfl, .inl ⟨⟨h.served.called _, hl, h.notPaused, hs, rfl⟩, hend, hlt, ?_⟩⟩
    -- the timer is armed for the next gap, which is the first one of those left
    have harm := lastDeadline_arm hs (lt_playedFrom hgo.1) now (p.gap p.index (p.index + 1))
    rw [gapSum_of_lt (by omega), ← hend, ← Nat.add_assoc]
    exact harm

/-- A replay that plays is followed to its end within as many steps as events are left. -/
theorem Running.follows (h : p.Running) (now : Nanoseconds) :
    ∃ q, Follows now p q ∧ q.Finished ∧ q.events = p.events ∧
      q.index = playedFrom p.index p.events ∧
      ∀ bound, p.remaining < bound → (followFor bound now p).Ends now (p.lastDeadline now) q := by
  induction hn : p.remaining generalizing p now with
  | zero =>
    have hi := (waiting_of_notEnded h.notLive h.notEnded).1
    simp only [remaining] at hn
    omega
  | succ n ih =>
    obtain ⟨timer, ht⟩ := Option.isSome_iff_exists.mp h.armed
    have hdue : p.due now = timer.deadline := by simp [due, ht]
    obtain ⟨r, hs, he, hr, hnext⟩ := h.step (max now timer.deadline)
    rcases hnext with ⟨hruns, hend, hlt, hlast⟩ | ⟨hdone, hend⟩
    · have hrn : r.remaining = n := by
        simp only [remaining] at hn ⊢
        rw [he, hr]
        omega
      rw [← hdue, ← lastDeadline_of_more h.notEnded (hr ▸ hlt) now, hdue] at hlast
      have hle : max now timer.deadline ≤ p.lastDeadline now := by
        rw [lastDeadline_of_more h.notEnded (hr ▸ hlt), hdue]
        exact Nat.le_add_right _ _
      obtain ⟨q, hf, hq, hqe, hqi, hb⟩ := ih hruns _ hrn
      refine ⟨q, .fired timer ht hs hf, hq, hqe.trans he, hqi.trans hend, fun bound hbound => ?_⟩
      obtain ⟨bound, rfl⟩ : ∃ b, bound = b + 1 := ⟨bound - 1, by omega⟩
      have hrest := hb bound (by omega)
      rw [hlast] at hrest
      rw [followFor_fired ht hs]
      exact hrest.fired hle
    · rw [hr] at hend
      rw [lastDeadline_of_last h.notEnded hend.symm, hdue]
      refine ⟨r, .fired timer ht hs (.idle hdone.timer), hdone, he, hr.trans hend,
        fun bound hbound => ?_⟩
      obtain ⟨bound, rfl⟩ : ∃ b, bound = b + 1 := ⟨bound - 1, by omega⟩
      rw [followFor_fired ht hs, followFor_idle hdone.timer]
      constructor
      · intro hlimit
        exact if_pos hlimit
      · intro hlimit
        rw [if_neg (Nat.not_lt_of_le hlimit)]

/-- What every step keeps holds wherever following the timer has got to, and there the replay still
plays or has come to rest. -/
theorem Running.followFor_keeps {I : Playback σ → Prop}
    (hstep : ∀ now p q, Stepped now p q → I p → I q) (h : p.Running) (hp : I p) (bound : Nat)
    (now : Nanoseconds) {q : Playback σ} (hq : q = (followFor bound now p).playback) :
    I q ∧ q.events = p.events ∧ (q.Running ∨ q.Finished) := by
  induction bound generalizing p now with
  | zero =>
    subst hq
    exact ⟨hp, rfl, .inl h⟩
  | succ bound ih =>
    obtain ⟨timer, ht⟩ := Option.isSome_iff_exists.mp h.armed
    obtain ⟨r, hs, he, -, hnext⟩ := h.step (max now timer.deadline)
    have hr : I r := hstep _ _ _ (step_ok hs) hp
    rw [followFor_fired ht hs] at hq
    by_cases hdeadline : timer.deadline < clockLimit
    · rw [if_pos hdeadline] at hq
      rcases hnext with ⟨hruns, -⟩ | ⟨hdone, -⟩
      · obtain ⟨hkept, hqe, hwhere⟩ := ih hruns hr _ hq
        exact ⟨hkept, hqe.trans he, hwhere⟩
      · rw [followFor_idle hdone.timer] at hq
        subst hq
        exact ⟨hr, he, .inr hdone⟩
    · rw [if_neg hdeadline] at hq
      subst hq
      exact ⟨hp, rfl, .inl h⟩

/-- A replay on surfaces that do not fail. It plays if its timer is armed, and only then. -/
structure Poised (p : Playback σ) : Prop where
  served : p.Served
  notLive : p.isLive = false
  timer_of_paused : p.paused = true → p.timer = none
  running_of_playing : p.paused = false → p.Running

/-- Playing sets a replay going, unless it has ended. -/
theorem Poised.play (h : p.Poised) (now : Nanoseconds) :
    ∃ q, (play now).run p = .ok () q ∧ q.events = p.events ∧ q.index = p.index ∧
      q.lastDeadline now = p.lastDeadline now ∧
      (p.isEnded = false → q.Running) ∧ (p.isEnded = true → q.Finished) := by
  have hf : Console.Succeed p.held.calls p.console :=
    h.served.succeed (Held.acknowledge_notMem _)
  cases hp : p.paused with
  | false =>
    have hq : (Playback.play now).run p = .ok () p := by
      rw [play_run, hp]
      rfl
    have hr := h.running_of_playing hp
    exact ⟨p, hq, rfl, rfl, rfl, fun _ => hr, fun he => by simp [hr.notEnded] at he⟩
  | true =>
    cases he : p.isEnded with
    | true =>
      have hq : (Playback.play now).run p = .ok () { p.called p.held.calls with held := {} } := by
        rw [play_run, hp, he]
        exact flush_ok_iff.mpr ⟨hf, rfl⟩
      have hlast : Playback.lastDeadline now { p.called p.held.calls with held := {} } =
          p.lastDeadline now := rfl
      exact ⟨_, hq, rfl, rfl, hlast, nofun,
        fun _ => ⟨h.served.called _, rfl, he, hp, h.timer_of_paused hp⟩⟩
    | false =>
      obtain ⟨n, -, hq⟩ := play_of_flush now hp he hf
      let r : Playback σ := { (p.resumed.delivered n).arm now p.savedDelay with savedDelay := 0 }
      have hrearmed : (p.resumed.delivered n).rearmed now = r :=
        if_pos (waiting_of_notEnded h.notLive he).1
      have hlast : r.lastDeadline now = p.lastDeadline now := by
        have hdue : p.due now = r.due now := by
          rw [due, h.timer_of_paused hp]
          rfl
        unfold lastDeadline
        rw [hdue]
        rfl
      rw [hrearmed] at hq
      exact ⟨r, hq, rfl, rfl, hlast, fun _ => ⟨h.served.called _, h.notLive, rfl, he, rfl⟩, nofun⟩

/-- A replay plays out: it comes to rest at its end, and if it was there before it stays. -/
theorem Poised.playsOut (h : p.Poised) (now : Nanoseconds) :
    ∃ q, PlaysOut now p q ∧ q.Finished ∧ q.events = p.events ∧
      q.index = (if p.isEnded then p.index else playedFrom p.index p.events) ∧
      (playOut now p).Ends now (p.lastDeadline now) q := by
  obtain ⟨r, hr, he, hi, hlast, hruns, hdone⟩ := h.play now
  have hrun : playOut now p = follow now r := by
    simp only [EStateM.run] at hr
    simp only [playOut, hr]
  rw [hrun, follow, ← he, ← hi, ← hlast]
  cases hp : p.isEnded with
  | false =>
    obtain ⟨q, hf, hq, hqe, hqi, hb⟩ := (hruns hp).follows now
    exact ⟨q, ⟨r, hr, hf⟩, hq, hqe, hqi, hb _ (by omega)⟩
  | true =>
    have hd := hdone hp
    refine ⟨r, ⟨r, hr, .idle hd.timer⟩, hd, rfl, rfl, ?_⟩
    rw [lastDeadline_of_ended hd.ended, followFor_idle hd.timer]
    constructor
    · intro _
      rw [Nat.max_zero]
    · intro hlimit
      exact absurd hlimit (by decide)

/-- Whatever comes of the run, where it leaves the replay what every step keeps holds. -/
theorem Poised.playOut_keeps {I : Playback σ → Prop}
    (hstep : ∀ now p q, Stepped now p q → I p → I q)
    (hplay : ∀ now p q, Played now p q → I p → I q) (h : p.Poised) (hp : I p)
    (now : Nanoseconds) {q : Playback σ} (hq : q = (playOut now p).playback) :
    I q ∧ q.events = p.events ∧ (q.Running ∨ q.Finished) := by
  obtain ⟨r, hr, he, -, -, hruns, hdone⟩ := h.play now
  have hkept : I r := hplay now p r (play_ok hr) hp
  simp only [EStateM.run] at hr
  simp only [playOut, hr, follow] at hq
  cases hp : p.isEnded with
  | false =>
    obtain ⟨hlast, hqe, hwhere⟩ := (hruns hp).followFor_keeps hstep hkept _ now hq
    exact ⟨hlast, hqe.trans he, hwhere⟩
  | true =>
    rw [followFor_idle (hdone hp).timer] at hq
    subst hq
    exact ⟨hkept, he, .inr (hdone hp)⟩

/-- Events at offsets that are as far apart as they can be, forward and back in turn. -/
def seesaw (n : Nat) : List Event :=
  (List.range n).map fun i => .incoming (if i % 2 = 0 then 0 else Int64.maxValue) [97]

theorem seesaw_isStop {n : Nat} : ∀ e ∈ seesaw n, e.isStop = false := by
  intro e he
  obtain ⟨i, -, rfl⟩ := List.mem_map.mp he
  rfl

omit [Console σ] in
theorem seesaw_gap {n i : Nat} (hi : 2 * i + 1 < n) (he : p.events = seesaw n)
    (hc : p.config.maxIdle = none) (hs : p.speed = Binary64.ofInt 1) :
    p.gap (2 * i) (2 * i + 1) = (int64Max.toNat + 1) * nanosPerMilli := by
  have hlow : p.events[2 * i]? = some (.incoming 0 [97]) := by
    rw [he, seesaw, List.getElem?_map, List.getElem?_range (by omega)]
    simp
  have hhigh : p.events[2 * i + 1]? = some (.incoming Int64.maxValue [97]) := by
    rw [he, seesaw, List.getElem?_map, List.getElem?_range hi]
    simp
  have hdelay : scaledMillis (offsetDifference 0 Int64.maxValue) (Binary64.ofInt 1) =
      int64Max.toNat + 1 := by
    decide +kernel
  simp only [gap, hlow, hhigh, hc, hs]
  exact congrArg (· * nanosPerMilli) hdelay

omit [Console σ] in
/-- A thousand steps forward take longer than the clock runs. -/
theorem clockLimit_le_lastDeadline {first : Nat} (he : p.events = seesaw 2004)
    (hc : p.config.maxIdle = none) (hs : p.speed = Binary64.ofInt 1) (hi : p.index = 2 * first)
    (hfirst : first ≤ 1) (hended : p.isEnded = false) (now : Nanoseconds) :
    clockLimit ≤ p.lastDeadline now := by
  have hlength : (seesaw 2004).length = 2004 := by simp [seesaw]
  have hend : playedFrom p.index p.events = 2004 := by
    rw [he, playedFrom_of_unstopped seesaw_isStop (by omega), hlength]
  have hsum : 1000 * ((int64Max.toNat + 1) * nanosPerMilli) ≤ p.gapSum (2 * first) (2004 - 1) :=
    le_gapSum (by omega) fun i hlt => Nat.le_of_eq (seesaw_gap (by omega) he hc hs).symm
  have hlimit : clockLimit = 1000 * ((int64Max.toNat + 1) * nanosPerMilli) := by decide
  rw [lastDeadline_of_more hended (by omega), hend, hi, hlimit]
  exact Nat.le_trans hsum (Nat.le_add_left _ _)

theorem Poised.playOut_seesaw {first : Nat} (h : p.Poised) (he : p.events = seesaw 2004)
    (hc : p.config.maxIdle = none) (hs : p.speed = Binary64.ofInt 1) (hi : p.index = 2 * first)
    (hfirst : first ≤ 1) (hended : p.isEnded = false) (now : Nanoseconds) :
    (playOut now p).result = .error .clockRange := by
  obtain ⟨_, -, -, -, -, hends⟩ := h.playsOut now
  exact hends.beyond (clockLimit_le_lastDeadline he hc hs hi hfirst hended now)

end Playback
end SessionPlayback
