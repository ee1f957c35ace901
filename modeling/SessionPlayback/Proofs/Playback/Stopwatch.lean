import SessionPlayback.Proofs.Playback.Armed
import SessionPlayback.Proofs.Playback.Pace

/-!
The time that a replay spends playing. A stopwatch runs beside a replay while it plays and is read
whenever an event is applied. The time on the stopwatch and what is left of the delay add up to the
reading at which the next event is due. Pauses change neither of them.
-/

namespace SessionPlayback

def Command.isToggling : Command → Bool
  | .play => true
  | .pause => true
  | .toggle => true
  | _ => false

namespace Timer

/-- What the clock gains, a timer that has not fired loses. -/
theorem remainingAt_of_le (t : Timer) {now later : Nanoseconds} (ha : t.armedAt ≤ now)
    (hl : now ≤ later) (hd : later ≤ t.deadline) :
    (later - now) + t.remainingAt later = t.remainingAt now := by
  have hsum (armed delay a b : Nat) (ha : armed ≤ a) (hab : a ≤ b) (hb : b ≤ armed + delay) :
      (b - a) + (delay - (b - armed)) = delay - (a - armed) := by
    omega
  exact hsum _ _ _ _ ha hl hd

theorem remainingAt_armedAt (t : Timer) : t.remainingAt t.armedAt = t.delay := by
  simp [remainingAt]

theorem remainingAt_deadline (t : Timer) : t.remainingAt t.deadline = 0 := by
  have hzero (armed delay : Nat) : delay - (armed + delay - armed) = 0 := by
    omega
  exact hzero _ _

end Timer

namespace Playback

variable {σ : Type}

/-- What a pause would save: what is left of the delay in front of the event at the cursor. -/
def left (p : Playback σ) (now : Nanoseconds) : Nanoseconds :=
  p.timer.elim p.savedDelay (·.remainingAt now)

theorem left_of_armed {p : Playback σ} {now delay : Nanoseconds}
    (ht : p.timer = some ⟨now, delay⟩) : p.left now = delay := by
  rw [left, ht]
  exact Timer.remainingAt_armedAt ⟨now, delay⟩

structure Stopwatch where
  now : Nanoseconds
  /-- The time spent playing. -/
  played : Nanoseconds := 0
  /-- What it showed when the events were applied, in their order. -/
  readings : List Nanoseconds := []

namespace Stopwatch

/-- The clock goes on, and the stopwatch with it if the playback plays. -/
def runTo (w : Stopwatch) (now : Nanoseconds) (p : Playback σ) : Stopwatch :=
  { w with now, played := if p.paused then w.played else w.played + (now - w.now) }

def read (w : Stopwatch) : Stopwatch := { w with readings := w.readings ++ [w.played] }

def past (w : Stopwatch) (now : Nanoseconds) (p q : Playback σ) : Stopwatch :=
  if p.index < q.index then (w.runTo now p).read else w.runTo now p

def due (w : Stopwatch) (p : Playback σ) : Nanoseconds := w.readings.getLast?.getD 0 + p.wait

theorem due_read (w : Stopwatch) (p : Playback σ) : w.read.due p = w.played + p.wait := by
  simp [due, read]

end Stopwatch

/-- The readings begin with zero, and between two of them lies the gap between their events. -/
structure Spaced (start : Playback σ) (readings : List Nanoseconds) : Prop where
  first : ∀ t, readings[0]? = some t → t = 0
  between : ∀ i a b, readings[i]? = some a → readings[i + 1]? = some b →
    b = a + start.gap i (i + 1)

theorem Spaced.append {start : Playback σ} {readings : List Nanoseconds}
    (h : start.Spaced readings) {wait : Nanoseconds}
    (hzero : readings = [] → wait = 0)
    (hgap : ∀ i, readings.length = i + 1 → wait = start.gap i (i + 1)) :
    start.Spaced (readings ++ [readings.getLast?.getD 0 + wait]) := by
  constructor
  · intro t ht
    cases hr : readings with
    | nil =>
      rw [hr, hzero hr] at ht
      cases ht
      rfl
    | cons r rest =>
      refine h.first t ?_
      rw [hr] at ht ⊢
      exact ht
  · intro i a b ha hb
    rw [List.getElem?_append] at ha hb
    by_cases hi : i + 1 < readings.length
    · rw [if_pos (by omega)] at ha
      rw [if_pos hi] at hb
      exact h.between i a b ha hb
    · have hlen : readings.length = i + 1 := by
        by_contra hn
        rw [if_neg hi, List.getElem?_eq_none (by simp; omega)] at hb
        cases hb
      rw [if_pos (by omega)] at ha
      rw [if_neg hi, hlen, Nat.sub_self] at hb
      have hlast : readings.getLast? = some a := by
        rw [List.getLast?_eq_getElem?, hlen]
        exact ha
      cases hb
      rw [hlast, hgap i hlen]
      rfl

/-- The stopwatch and what is left of the delay add up to the time when the next event is due. -/
structure InTime (start : Playback σ) (w : Stopwatch) (p : Playback σ) : Prop where
  runsOn : p.RunsOn
  wellTimed : p.WellTimed
  gap_eq : ∀ first second, p.gap first second = start.gap first second
  length_readings : w.readings.length = p.index
  spaced : start.Spaced w.readings
  clock : ∀ timer, p.timer = some timer → timer.armedAt ≤ w.now ∧ w.now ≤ timer.deadline
  due_eq : p.isEnded = false → w.played + p.left w.now = w.due p

namespace InTime

variable {start p q : Playback σ} {w : Stopwatch} {now : Nanoseconds}

/-- While the clock goes on, the stopwatch gains what the delay loses. -/
theorem runTo (h : InTime start w p) (hw : w.now ≤ now)
    (hd : ∀ timer, p.timer = some timer → now ≤ timer.deadline) :
    InTime start (w.runTo now p) p := by
  refine ⟨h.runsOn, h.wellTimed, h.gap_eq, h.length_readings, h.spaced, fun timer ht => ?_,
    fun he => ?_⟩
  · exact ⟨Nat.le_trans (h.clock timer ht).1 hw, hd timer ht⟩
  · have hdue := h.due_eq he
    cases hp : p.paused with
    | true =>
      have ht : p.timer = none := h.wellTimed.timer_of_paused hp
      simp only [left, ht, Option.elim_none] at hdue
      simp only [left, ht, Option.elim_none, Stopwatch.runTo, hp, ↓reduceIte]
      exact hdue
    | false =>
      have ha := h.wellTimed.armed_of_plays h.runsOn.notLive hp
      obtain ⟨timer, ht⟩ := Option.isSome_iff_exists.mp ha
      obtain ⟨harmed, hdeadline⟩ := h.clock timer ht
      have hsum := timer.remainingAt_of_le harmed hw (hd timer ht)
      simp only [left, ht, Option.elim_some] at hdue
      simp only [left, ht, Option.elim_some, Stopwatch.runTo, hp, Bool.false_eq_true, ↓reduceIte]
      rw [Nat.add_assoc, hsum]
      exact hdue

/-- When the timer fires, the stopwatch shows the time at which the event is due. -/
theorem played_eq_due (h : InTime start w p) {timer : Timer} (ht : p.timer = some timer)
    (hnow : w.now = timer.deadline) : w.played = w.due p := by
  have hp : p.paused = false := (h.wellTimed.plays_of_armed (by simp [ht])).1
  have hsum := h.due_eq (h.runsOn.unended hp)
  simp only [left, ht, Option.elim_some, hnow, Timer.remainingAt_deadline] at hsum
  exact hsum

/-- If the event at the cursor is due, reading the stopwatch leaves the readings spaced. -/
theorem spaced_read (h : InTime start w p) (hdue : w.played = w.due p) :
    start.Spaced w.read.readings := by
  change start.Spaced (w.readings ++ [w.played])
  rw [hdue]
  refine h.spaced.append (fun hnil => ?_) fun i hlen => ?_
  · have hzero : p.index = 0 := by
      rw [← h.length_readings, hnil]
      rfl
    exact if_pos hzero
  · have hindex : p.index = i + 1 := h.length_readings.symm.trans hlen
    rw [wait, hindex, if_neg (Nat.succ_ne_zero i)]
    exact h.gap_eq i (i + 1)

variable [Console σ]

theorem pause (h : InTime start w p) : InTime start w (p.pause w.now) := by
  have hq : Outcome w.now p (.command .pause) (p.pause w.now) := .paused _
  have hr : (p.pause w.now).RunsOn := h.runsOn.outcome (by simp) hq
  have hw := h.wellTimed.pause w.now
  cases hp : p.paused with
  | true =>
    rw [pause_of_paused _ hp]
    exact h
  | false =>
    rw [pause_of_playing _ hp] at *
    exact ⟨hr, hw, h.gap_eq, h.length_readings, h.spaced, nofun, h.due_eq⟩

theorem played (h : InTime start w p) (hq : Played w.now p q) : InTime start w q := by
  have hr : q.RunsOn := h.runsOn.outcome (by simp) (.played (.command .play) q hq)
  have hw := h.wellTimed.played hq
  cases hq with
  | already => exact h
  | ended => exact ⟨hr, hw, h.gap_eq, h.length_readings, h.spaced, h.clock, h.due_eq⟩
  | resumed n hp he =>
    have ht : p.timer = none := h.wellTimed.timer_of_paused hp
    have hi : p.index < p.events.length := (waiting_of_notEnded h.runsOn.notLive he).1
    have hrearmed : (p.resumed.delivered n).rearmed w.now =
        { (p.resumed.delivered n).arm w.now p.savedDelay with savedDelay := 0 } := if_pos hi
    rw [hrearmed] at hr hw ⊢
    refine ⟨hr, hw, h.gap_eq, h.length_readings, h.spaced, fun timer htimer => ?_, fun _ => ?_⟩
    · cases htimer
      exact ⟨Nat.le_refl _, Nat.le_add_right _ _⟩
    · have hdue := h.due_eq he
      simp only [left, ht, Option.elim_none] at hdue
      rw [left_of_armed rfl]
      exact hdue

/-- Pausing and resuming keep the cursor where it is. -/
theorem toggled (h : InTime start w p) {c : Command} (hc : c.isToggling = true)
    (hq : (carryOut w.now c).run p = .ok () q) : q.index = p.index ∧ InTime start w q := by
  have hplay (hq : (play w.now).run p = .ok () q) : q.index = p.index ∧ InTime start w q := by
    refine ⟨?_, h.played (play_ok hq)⟩
    cases play_ok hq with
    | already => rfl
    | ended => rfl
    | resumed n =>
      obtain ⟨timer, delay, hs⟩ := rearmed_frame w.now (p.resumed.delivered n)
      rw [hs]
      rfl
  have hpause : (p.pause w.now).index = p.index ∧ InTime start w (p.pause w.now) := by
    obtain ⟨timer, delay, hs⟩ := pause_frame w.now p
    exact ⟨by rw [hs], h.pause⟩
  cases c with
  | play => exact hplay hq
  | pause =>
    cases hq
    exact hpause
  | toggle =>
    rw [carryOut, toggle_run] at hq
    split at hq
    · exact hplay hq
    · cases hq
      exact hpause
  | _ => cases hc

/-- A step at the deadline applies the event that is due and arms the timer for the next one. -/
theorem fired (h : InTime start w p) {timer : Timer} (ht : p.timer = some timer)
    (hnow : w.now = timer.deadline) (hq : Stepped w.now p q) :
    q.index = p.index + 1 ∧ InTime start w.read q := by
  have hr : q.RunsOn := h.runsOn.outcome (by simp) (.stepped .step q hq)
  have hw := h.wellTimed.stepped hq
  have hspaced := h.spaced_read (h.played_eq_due ht hnow)
  have hlength : w.read.readings.length = p.index + 1 := by
    simp [Stopwatch.read, h.length_readings]
  obtain ⟨hp, hi⟩ := h.wellTimed.plays_of_armed (by simp [ht])
  cases hq with
  | resting hn => simp [hp] at hn
  | idle he =>
    rw [List.getElem?_eq_getElem hi] at he
    cases he
  | held e hn => simp [hp] at hn
  | shown e n _ he =>
    let s : Playback σ := { (p.taken e).delivered n with index := p.index + 1 }
    have hl : s.isLive = false := (Metadata.after_live p.session e).trans h.runsOn.notLive
    have hgap : ∀ first second, s.gap first second = start.gap first second := h.gap_eq
    have hnext := scheduleNext_of_replay hl w.now
    change (s.scheduleNext w.now).RunsOn at hr
    change (s.scheduleNext w.now).WellTimed at hw
    change (s.scheduleNext w.now).index = _ ∧ InTime start w.read (s.scheduleNext w.now)
    cases hs : s.isEnded with
    | true =>
      rw [hnext, hs, if_pos rfl] at hr hw ⊢
      refine ⟨rfl, hr, hw, hgap, hlength, hspaced, nofun, fun hn => ?_⟩
      exact absurd (hs.symm.trans hn) (by decide)
    | false =>
      rw [hnext, hs, if_neg (by decide)] at hr hw ⊢
      refine ⟨rfl, hr, hw, hgap, hlength, hspaced, fun timer ht => ?_, fun _ => ?_⟩
      · cases ht
        exact ⟨Nat.le_refl _, Nat.le_add_right _ _⟩
      · have hwait : (s.arm w.now (s.gap (s.index - 1) s.index)).wait =
            s.gap (s.index - 1) s.index :=
          if_neg (Nat.succ_ne_zero p.index)
        rw [Stopwatch.due_read, hwait, left_of_armed rfl]
        rfl

/-- A step at the deadline succeeds if no call fails. -/
theorem step_of_served (h : InTime start w p) (hs : p.Served) {timer : Timer}
    (ht : p.timer = some timer) (now : Nanoseconds) :
    ∃ q, (step now).run p = .ok () q ∧ q.index = p.index + 1 := by
  have ha : p.timer.isSome = true := by simp [ht]
  have hp : p.paused = false := (h.wellTimed.plays_of_armed ha).1
  have hruns : p.Running := ⟨hs, h.runsOn.notLive, hp, h.runsOn.unended hp, ha⟩
  obtain ⟨q, hq, -, hi, -⟩ := hruns.step now
  exact ⟨q, hq, hi⟩

end InTime

/-- From the beginning on the events of a replay are in time. -/
theorem create_load_inTime {s : σ} {config : Config} {p : Playback σ}
    (hc : create? s config = .ok p) (events : List Event) (speed : Binary64) (now : Nanoseconds) :
    InTime { p.load events with speed } { now } { p.load events with speed } := by
  have hr := (create_replays hc).load events
  have hw := (create_wellTimed hc).load events
  obtain ⟨created, -, rfl⟩ := create_eq hc
  exact ⟨⟨⟨hr.notLive, hr.old, hr.unheld, hr.index_le, hr.stopped⟩, nofun⟩,
    ⟨hw.index_le, hw.plays_of_armed, hw.armed_of_plays⟩, fun _ _ => rfl, rfl, ⟨nofun, nofun⟩,
    nofun, fun _ => rfl⟩

variable [Console σ]

/-- A run in which the playback is paused and resumed at any time, a step is taken at every deadline
of an armed timer and only there, and nothing fails; with the stopwatch that ran beside it. -/
inductive OnTime (start : Playback σ) : Stopwatch → Playback σ → Prop where
  | begun (now : Nanoseconds) : OnTime start { now } start
  | called {w : Stopwatch} {p q : Playback σ} (h : OnTime start w p) (now : Nanoseconds)
      (c : Command) (hc : c.isToggling = true) (hw : w.now ≤ now)
      (hd : ∀ timer, p.timer = some timer → now ≤ timer.deadline)
      (hq : (carryOut now c).run p = .ok () q) : OnTime start (w.past now p q) q
  | fired {w : Stopwatch} {p q : Playback σ} (h : OnTime start w p) (timer : Timer)
      (ht : p.timer = some timer) (hq : (step timer.deadline).run p = .ok () q) :
      OnTime start (w.past timer.deadline p q) q

theorem OnTime.inTime {start p : Playback σ} {w : Stopwatch} (h : OnTime start w p)
    (hstart : ∀ now, InTime start { now } start) : InTime start w p := by
  induction h with
  | begun now => exact hstart now
  | @called w p q _ now c hc hw hd hq ih =>
    obtain ⟨hi, hkept⟩ := (ih.runTo hw hd).toggled hc hq
    rw [Stopwatch.past, if_neg (by omega)]
    exact hkept
  | @fired w p q _ timer ht hq ih =>
    have hrun : InTime start (w.runTo timer.deadline p) p :=
      ih.runTo (ih.clock timer ht).2 fun other ho => by
        cases ht.symm.trans ho
        exact Nat.le_refl _
    obtain ⟨hi, hread⟩ := hrun.fired ht rfl (step_ok hq)
    rw [Stopwatch.past, if_pos (by omega)]
    exact hread

/-- However often a replay is paused, the first event is applied before any time was spent playing,
and between two events exactly the gap between them was; and as long as no call fails the event that
is due is applied when the timer fires. -/
theorem playingTime_eq_gap {s : σ} {config : Config} {events : List Event} {speed : Binary64}
    {p start q : Playback σ} {w : Stopwatch} (hc : create? s config = .ok p)
    (hstart : start = { p.load events with speed }) (h : OnTime start w q) :
    w.readings.length = q.index ∧ (∀ t, w.readings[0]? = some t → t = 0) ∧
      (∀ i a b, w.readings[i]? = some a → w.readings[i + 1]? = some b →
        b = a + start.gap i (i + 1)) ∧
      (∀ timer, q.timer = some timer → q.Served →
        ∃ r, (step timer.deadline).run q = .ok () r ∧ r.index = q.index + 1) := by
  subst hstart
  have ht : InTime _ w q := h.inTime (create_load_inTime hc events speed)
  refine ⟨ht.length_readings, ht.spaced.first, ht.spaced.between, fun timer harmed hs => ?_⟩
  exact ht.step_of_served hs harmed timer.deadline

def Stopwatch.admits (w : Stopwatch) (p : Playback σ) (now : Nanoseconds) : Operation → Bool
  | .step => p.timer.any fun timer => timer.deadline = now
  | .command c =>
    c.isToggling && decide (w.now ≤ now) && p.timer.all fun timer => now ≤ timer.deadline

def timeAll : List (Nanoseconds × Operation) → Stopwatch → Playback σ →
    Option (Stopwatch × Playback σ)
  | [], w, p => some (w, p)
  | (now, op) :: rest, w, p =>
    match w.admits p now op, (operate now op).run p with
    | true, .ok _ q => timeAll rest (w.past now p q) q
    | _, _ => none

theorem OnTime.timeAll {start p q : Playback σ} {w w' : Stopwatch}
    {ops : List (Nanoseconds × Operation)} (h : OnTime start w p)
    (hq : timeAll ops w p = some (w', q)) : OnTime start w' q := by
  induction ops generalizing w p with
  | nil =>
    cases hq
    exact h
  | cons o rest ih =>
    obtain ⟨now, op⟩ := o
    simp only [Playback.timeAll] at hq
    split at hq
    · rename_i r hadmits hr
      refine ih ?_ hq
      cases op with
      | step =>
        simp only [Stopwatch.admits, Option.any_eq_true, decide_eq_true_eq] at hadmits
        obtain ⟨timer, ht, rfl⟩ := hadmits
        exact h.fired timer ht hr
      | command c =>
        simp only [Stopwatch.admits, Bool.and_eq_true, decide_eq_true_eq, Option.all_eq_true]
          at hadmits
        obtain ⟨⟨hc, hw⟩, hd⟩ := hadmits
        exact h.called now c hc hw hd hr
    · cases hq

/-- A second between two events is interrupted twice, the second time when it is just over. -/
def interruptedRun : List (Nanoseconds × Operation) := [
  (5, .command .play), (5, .step), (400000005, .command .pause), (2000000000, .command .play),
  (2600000000, .command .pause), (3000000000, .command .toggle), (3000000000, .step)]

theorem playingTime_of_interruptedRun : ∃ (p start q : Playback Transcript) (w : Stopwatch),
    create? { cell := ⟨8, 16⟩ } {} = .ok p ∧
      start = { p.load [.incoming 0 [97], .incoming 1000 [98], .incoming 1001 [99]] with
        speed := Binary64.ofInt 1 } ∧
      OnTime start w q ∧ w.readings = [0, 1000000000] ∧ w.readings.length = q.index ∧
      (∀ t, w.readings[0]? = some t → t = 0) ∧
      (∀ i a b, w.readings[i]? = some a → w.readings[i + 1]? = some b →
        b = a + start.gap i (i + 1)) ∧
      (∀ timer, q.timer = some timer → q.Served →
        ∃ r, (step timer.deadline).run q = .ok () r ∧ r.index = q.index + 1) := by
  let s : Transcript := { cell := ⟨8, 16⟩ }
  let p : Playback Transcript := { config := {}, console := s, speed := Binary64.ofInt 1 }
  let start : Playback Transcript := { p.load
    [.incoming 0 [97], .incoming 1000 [98], .incoming 1001 [99]] with speed := Binary64.ofInt 1 }
  have hrun : (timeAll interruptedRun { now := 5 } start).any
      (fun r => decide (r.1.readings = [0, 1000000000])) = true := by
    decide +kernel
  rw [Option.any_eq_true] at hrun
  obtain ⟨⟨w, q⟩, hq, hreadings⟩ := hrun
  have hc : create? s {} = .ok p := create_default s
  have h : OnTime start w q := (OnTime.begun 5).timeAll hq
  exact ⟨p, start, q, w, hc, rfl, h, of_decide_eq_true hreadings, playingTime_eq_gap hc rfl h⟩

end Playback
end SessionPlayback
