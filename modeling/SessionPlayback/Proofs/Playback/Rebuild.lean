import SessionPlayback.Proofs.Playback.Handover

/-!
Starting over. A seek back empties the surfaces and applies everything from the first event; a seek
forward applies only the events on the way, on top of what was shown and what is held. Both end in
the same state, the size of the terminal included, wherever a playback got to without a change of
its mode.
-/

namespace SessionPlayback

theorem lastPresent_append {α : Type} (tell : Event → Option α) (front back : List Event) :
    lastPresent tell (front ++ back) = (lastPresent tell back).or (lastPresent tell front) := by
  simp [lastPresent, List.getLast?_append]

def Call.sizedOn (size : Geometry) : Call → Geometry
  | .resize g => g
  | _ => size

theorem Call.foldl_sizedOn_replicate (n : Nat) (size : Geometry) :
    (List.replicate n .acknowledge).foldl Call.sizedOn size = size := by
  induction n with
  | zero => rfl
  | succ n ih => simpa [List.replicate_succ, sizedOn] using ih

theorem Held.calls_sized (h : Held) (size : Geometry) :
    h.calls.foldl Call.sizedOn size = h.resize.getD size := by
  have hr : h.resizeCalls.foldl Call.sizedOn size = h.resize.getD size := by
    cases hg : h.resize <;> simp [resizeCalls, hg, Call.sizedOn]
  have hk (size : Geometry) : h.keystrokeCalls.foldl Call.sizedOn size = size := by
    unfold keystrokeCalls
    split <;> simp [Call.sizedOn]
  have ht (size : Geometry) : h.terminalCalls.foldl Call.sizedOn size = size := by
    unfold terminalCalls
    split <;> simp [Call.sizedOn]
  rw [calls, List.foldl_append, List.foldl_append, hr, hk, ht]

theorem Held.foldl_push_resize (cell : CellMetrics) (events : List Event) (h : Held) :
    (events.foldl (fun h e => h.push cell e) h).resize =
      (lastPresent (·.resizeOutput cell) events).or h.resize := by
  induction events generalizing h with
  | nil => rfl
  | cons e events ih =>
    rw [List.foldl_cons, ih, ← List.singleton_append, lastPresent_append, Option.or_assoc]
    congr 1
    cases he : e.resizeOutput cell <;> simp [lastPresent, Held.push, he]

section Surfaces

variable {σ : Type} {cell : CellMetrics}

/-- The cells of the terminal have that size, whatever is called. -/
def Console.Steady [Console σ] (cell : CellMetrics) (s : σ) : Prop :=
  ∀ calls, cellMetrics (after calls s) = cell

theorem Console.Steady.after [Console σ] {s : σ} (h : Steady cell s) (calls : List Call) :
    Steady cell (after calls s) := by
  intro more
  rw [← after_append]
  exact h _

theorem Traced.steady_iff [Console σ] {t : Traced σ} :
    Console.Steady cell t ↔ Console.Steady cell t.inner := by
  have hcell (t : Traced σ) : Console.cellMetrics t = Console.cellMetrics t.inner := rfl
  simp only [Console.Steady, hcell, after_inner]

theorem Transcript.steady (t : Transcript) : Console.Steady t.cell t := by
  intro calls
  induction calls generalizing t with
  | nil => rfl
  | cons call rest ih =>
    rw [Console.after_cons, ih]
    cases call <;> rfl

def Traced.size (initial : Geometry) (t : Traced σ) : Geometry :=
  t.done.foldl Call.sizedOn initial

theorem Traced.after_size [Console σ] {calls : List Call} {t : Traced σ} (initial : Geometry)
    (h : Console.Succeed calls t) :
    (Console.after calls t).size initial = calls.foldl Call.sizedOn (t.size initial) := by
  simp [size, after_done h]

theorem Traced.after_replicate_size [Console σ] (initial : Geometry) (n : Nat) (t : Traced σ) :
    (Console.after (.replicate n .acknowledge) t).size initial = t.size initial := by
  obtain ⟨kept, hk, hd⟩ := exists_after_done (.replicate n .acknowledge) t
  obtain ⟨m, -, rfl⟩ := List.sublist_replicate_iff.mp hk
  simp [size, hd, Call.foldl_sizedOn_replicate]

end Surfaces

namespace Playback

variable {σ : Type} [Console σ]

/-- The terminal has the size that these events gave it, or gets it with what is held. -/
structure Fits (cell : CellMetrics) (events : List Event) (p : Playback (Traced σ)) : Prop where
  steady : Console.Steady cell p.console
  size : p.held.resize.getD (p.console.size p.config.initialGeometry) =
    (lastPresent (·.resizeOutput cell) events).getD p.config.initialGeometry

namespace Fits

variable {p q : Playback (Traced σ)} {cell : CellMetrics} {events : List Event}
  {now : Nanoseconds}

theorem congr (h : p.Fits cell events) (hc : q.console = p.console) (hh : q.held = p.held)
    (hg : q.config = p.config) : q.Fits cell events := by
  constructor
  · rw [hc]
    exact h.steady
  · rw [hc, hh, hg]
    exact h.size

theorem absorbed (h : p.Fits cell events) (more : List Event) :
    (p.absorbed more).Fits cell (events ++ more) := by
  have hcell : Console.cellMetrics p.console = cell := h.steady []
  refine ⟨h.steady, ?_⟩
  simp only [Playback.absorbed, hcell, Held.foldl_push_resize, lastPresent_append,
    Option.getD_or, h.size]

theorem taken (h : p.Fits cell events) (e : Event) : (p.taken e).Fits cell (events ++ [e]) :=
  (h.absorbed [e]).congr rfl rfl rfl

theorem flushed (h : p.Fits cell events) (hf : Console.Succeed p.held.calls p.console) :
    Fits cell events { p.called p.held.calls with held := {} } := by
  refine ⟨h.steady.after _, ?_⟩
  change (Console.after p.held.calls p.console).size _ = _
  rw [Traced.after_size _ hf, Held.calls_sized]
  exact h.size

theorem delivered {n : Nat} (h : p.Fits cell events) (hd : p.Delivers n) :
    (p.delivered n).Fits cell events := by
  have hf := h.flushed hd.flushes
  refine ⟨h.steady.after _, ?_⟩
  change (Console.after _ p.console).size _ = _
  rw [Console.after_append, Traced.after_replicate_size]
  exact hf.size

/-- An emptied terminal has its initial size to take. -/
theorem rewound (h : p.Fits cell events) : p.rewound.Fits cell [] :=
  ⟨h.steady.after _, rfl⟩

theorem pause (h : p.Fits cell events) (now : Nanoseconds) : (p.pause now).Fits cell events := by
  obtain ⟨timer, delay, hs⟩ := pause_frame now p
  rw [hs]
  exact h.congr rfl rfl rfl

theorem stepped (h : p.Fits cell (p.events.take p.index)) (hq : Stepped now p q) :
    q.Fits cell (q.events.take q.index) := by
  cases hq with
  | resting => exact h.congr rfl rfl rfl
  | idle => exact h.congr rfl rfl rfl
  | held e hp hl he =>
    have ht := h.taken e
    rw [← take_succ_events he] at ht
    exact ht.congr rfl rfl rfl
  | shown e n hp he hd =>
    have ht := (h.taken e).delivered hd
    rw [← take_succ_events he] at ht
    obtain ⟨timer, paused, hs⟩ :=
      scheduleNext_frame { (p.taken e).delivered n with index := p.index + 1 } now
    rw [hs]
    exact ht.congr rfl rfl rfl

theorem played (h : p.Fits cell (p.events.take p.index)) (hq : Played now p q) :
    q.Fits cell (q.events.take q.index) := by
  cases hq with
  | already => exact h
  | ended hp he hf => exact (h.flushed hf).congr rfl rfl rfl
  | resumed n hp he hd =>
    have hr : p.resumed.Fits cell (p.events.take p.index) := h.congr rfl rfl rfl
    obtain ⟨timer, delay, hs⟩ := rearmed_frame now (p.resumed.delivered n)
    rw [hs]
    exact (hr.delivered hd).congr rfl rfl rfl

end Fits

/-- A replay has stopped exactly if the end of the session is among these events, and a live session
has not. -/
def StopsWith (events : List Event) (p : Playback σ) : Prop :=
  p.stopped = (events.any Event.isStop && !p.isLive)

theorem StopsWith.absorbed {p : Playback σ} {events : List Event} (h : p.StopsWith events)
    (more : List Event) : (p.absorbed more).StopsWith (events ++ more) := by
  have hl : (p.absorbed more).isLive = p.isLive := Metadata.foldl_after_live more p.session
  unfold StopsWith at h ⊢
  rw [hl, List.any_append, Bool.and_or_distrib_right, ← h]
  rfl

theorem StopsWith.taken {p : Playback σ} {events : List Event} (h : p.StopsWith events)
    (e : Event) : (p.taken e).StopsWith (events ++ [e]) := by
  have hl : (p.taken e).isLive = p.isLive := Metadata.after_live p.session e
  unfold StopsWith at h ⊢
  rw [hl, List.any_append, Bool.and_or_distrib_right, ← h]
  simp [Playback.taken]

/-- The output of the events before the cursor is there, and so are the size of the terminal and the
mark of a session that has ended. -/
structure Faithful (cell : CellMetrics) (p : Playback (Traced σ)) : Prop
    extends p.Displays where
  fits : p.Fits cell (p.events.take p.index)
  stops : p.StopsWith (p.events.take p.index)

/-- Ready to land behind the target of a seek from the one playback: the events up to the target
have been applied, however that was done. -/
structure Prepared (cell : CellMetrics) (target : Nat) (p s : Playback (Traced σ)) : Prop where
  events : s.events = p.events
  config : s.config = p.config
  speed : s.speed = p.speed
  paused : s.paused = true
  timer : s.timer = none
  isLive : s.isLive = p.isLive
  feed : s.session.feed = p.session.feed
  shows : s.Shows (p.events.take (target + 1))
  fits : s.Fits cell (p.events.take (target + 1))
  stops : s.StopsWith (p.events.take (target + 1))

theorem take_append_segment {events : List Event} {first last : Nat} (h : first ≤ last) :
    events.take first ++ (events.take last).drop first = events.take last := by
  have hsplit := List.take_append_drop first (events.take last)
  rwa [List.take_take, Nat.min_eq_left h] at hsplit

namespace Prepared

variable {p q r s : Playback (Traced σ)} {cell : CellMetrics} {target : Nat}

theorem of_start {front more : List Event} (now : Nanoseconds)
    (hs : s = p.halted now ∨ s = (p.halted now).rewound) (hshows : s.Shows front)
    (hfits : s.Fits cell front) (hstops : s.StopsWith front)
    (he : front ++ more = p.events.take (target + 1)) :
    Prepared cell target p (s.absorbed more) := by
  have hframe : s.events = p.events ∧ s.config = p.config ∧ s.speed = p.speed ∧
      s.paused = true ∧ s.timer = none ∧ s.isLive = p.isLive ∧
      s.session.feed = p.session.feed := by
    rcases hs with rfl | rfl
    · rw [halted_eq]
      exact ⟨rfl, rfl, rfl, rfl, rfl, rfl, rfl⟩
    · rw [halted_eq]
      exact ⟨rfl, rfl, rfl, rfl, rfl, rfl, rfl⟩
  obtain ⟨hevents, hconfig, hspeed, hpaused, htimer, hlive, hfeed⟩ := hframe
  refine ⟨hevents, hconfig, hspeed, hpaused, htimer, ?_, ?_, ?_, ?_, ?_⟩
  · exact (Metadata.foldl_after_live more s.session).trans hlive
  · exact (Metadata.foldl_after_feed more s.session).trans hfeed
  · exact he ▸ hshows.absorbed more
  · exact he ▸ hfits.absorbed more
  · exact he ▸ hstops.absorbed more

/-- Going on from where the playback is. -/
theorem forward (h : p.Faithful cell) (now : Nanoseconds) (hi : p.index ≤ target) :
    Prepared cell target p
      ((p.halted now).absorbed ((p.events.take (target + 1)).drop p.index)) := by
  have hh : p.halted now = { p with
      paused := true, timer := none, savedDelay := (p.pause now).savedDelay } := halted_eq now p
  refine of_start now (.inl rfl) ?_ ?_ ?_ (take_append_segment (by omega))
  · rw [hh]
    exact h.shows.congr rfl rfl rfl
  · rw [hh]
    exact h.fits.congr rfl rfl rfl
  · rw [hh]
    exact h.stops

/-- Starting over. -/
theorem back (hsteady : Console.Steady cell p.console) (now : Nanoseconds)
    (hr : Console.Succeed [.reset, .clear] p.console) :
    Prepared cell target p ((p.halted now).rewound.absorbed (p.events.take (target + 1))) := by
  have hc : (p.halted now).console = p.console := by
    rw [halted_eq]
  refine of_start now (.inr rfl) (.rewound (hc ▸ hr)) ⟨?_, rfl⟩ rfl (List.nil_append _)
  change Console.Steady cell (Console.after [.reset, .clear] (p.halted now).console)
  rw [hc]
  exact hsteady.after _

theorem landed (h : Prepared cell target p s) (ht : target < p.events.length)
    (hf : Console.Succeed s.held.calls s.console) : (s.landed target).Faithful cell := by
  obtain ⟨hevents, -, -, -, -, -, -, hshows, hfits, hstops⟩ := h
  rw [← hevents] at ht hshows hfits hstops
  refine ⟨.landed ht hshows hf, ?_, hstops⟩
  exact (hfits.flushed hf).congr rfl rfl rfl

end Prepared

namespace Faithful

variable {p q : Playback (Traced σ)} {cell : CellMetrics} {now : Nanoseconds}

theorem pause (h : p.Faithful cell) (now : Nanoseconds) : (p.pause now).Faithful cell := by
  have hd := h.toDisplays.pause now
  obtain ⟨timer, delay, hs⟩ := pause_frame now p
  rw [hs] at hd ⊢
  exact ⟨hd, h.fits.congr rfl rfl rfl, h.stops⟩

theorem stepped (h : p.Faithful cell) (hq : Stepped now p q) : q.Faithful cell := by
  refine ⟨h.toDisplays.stepped hq, h.fits.stepped hq, ?_⟩
  have htaken {e : Event} (he : p.events[p.index]? = some e) :
      (p.taken e).StopsWith (p.events.take (p.index + 1)) := by
    rw [take_succ_events he]
    exact h.stops.taken e
  cases hq with
  | resting => exact h.stops
  | idle => exact h.stops
  | held e hp hl he => exact htaken he
  | shown e n hp he hd =>
    obtain ⟨timer, paused, hs⟩ :=
      scheduleNext_frame { (p.taken e).delivered n with index := p.index + 1 } now
    rw [hs]
    exact htaken he

theorem played (h : p.Faithful cell) (hq : Played now p q) : q.Faithful cell := by
  refine ⟨h.toDisplays.played hq, h.fits.played hq, ?_⟩
  cases hq with
  | already => exact h.stops
  | ended => exact h.stops
  | resumed n =>
    obtain ⟨timer, delay, hs⟩ := rearmed_frame now (p.resumed.delivered n)
    rw [hs]
    exact h.stops

theorem speedChanged (h : p.Faithful cell) (hq : SpeedChanged now p q) : q.Faithful cell := by
  have hd := h.toDisplays.speedChanged hq
  cases hq with
  | paused speed => exact ⟨hd, h.fits.congr rfl rfl rfl, h.stops⟩
  | playing speed delay _ _ _ hq =>
    obtain ⟨⟨hi, hshows, hheld⟩, hfits, hstops⟩ := h.pause now
    have hr : (p.rescaled now speed delay).Faithful cell :=
      ⟨⟨hi, hshows.congr rfl rfl rfl, hheld⟩, hfits.congr rfl rfl rfl, hstops⟩
    exact hr.played hq

theorem moved {target : Nat} (h : p.Faithful cell) (hq : Moved now target p q) :
    q.Faithful cell := by
  cases hq with
  | stayed => exact h
  | forward s ht hi hs hf =>
    subst hs
    exact (Prepared.forward h now hi).landed ht hf
  | back s ht hi hr hs hf =>
    subst hs
    exact (Prepared.back h.fits.steady now hr).landed ht hf

theorem load (h : p.Faithful cell) (events : List Event) : (p.load events).Faithful cell := by
  have hd := h.toDisplays.load events
  have ht : (p.events ++ events).take p.index = p.events.take p.index :=
    List.take_append_of_le_length h.index_le
  refine ⟨hd, ?_, ?_⟩
  · change Fits cell ((p.events ++ events).take p.index) _
    rw [ht]
    exact h.fits.congr rfl rfl rfl
  · change StopsWith ((p.events ++ events).take p.index) _
    rw [ht]
    exact h.stops

theorem outcome {op : Operation} (hk : op.keepsMode = true) (h : p.Faithful cell)
    (hq : Outcome now p op q) : q.Faithful cell := by
  cases hq with
  | unchanged => exact h
  | stepped _ _ hq => exact h.stepped hq
  | played _ _ hq => exact h.played hq
  | paused => exact h.pause now
  | speedChanged _ _ hq => exact h.speedChanged hq
  | moved _ _ _ hq => exact h.moved hq
  | loaded _ events => exact h.load events
  | live => cases hk
  | disconnected => cases hk
  | cleared => cases hk

end Faithful

theorem create_faithful {s : σ} {config : Config} {cell : CellMetrics}
    {p q : Playback (Traced σ)} (hc : create? ⟨s, []⟩ config = .ok p)
    (hs : Console.Steady cell s) (hq : q = p ∨ q = p.setLive) : q.Faithful cell := by
  have hd := create_displays hc
  obtain ⟨speed, -, rfl⟩ := create_eq hc
  have hsteady : Console.Steady cell (⟨s, []⟩ : Traced σ) := Traced.steady_iff.mpr hs
  rcases hq with rfl | rfl
  · exact ⟨hd, ⟨hsteady, rfl⟩, rfl⟩
  · exact ⟨hd.setLive, ⟨hsteady, rfl⟩, rfl⟩

/-- Shows the state right after an event by starting over, wherever the cursor is. -/
def rebuild (now : Nanoseconds) (target : Nat) : Action σ Unit := do
  let p ← get
  set (p.halted now)
  rewind
  land target (p.events.take (target + 1)) p.isLive

/-- A seek back starts over. -/
theorem moveTo_eq_rebuild (now : Nanoseconds) {target : Nat} {p : Playback σ}
    (hi : target + 1 < p.index) (ht : target < p.events.length) :
    (moveTo now target).run p = (rebuild now target).run p := by
  rw [moveTo_run, if_neg (by omega), if_pos (by omega)]
  rfl

theorem rebuild_ok_iff {now : Nanoseconds} {target : Nat} {p q : Playback σ} :
    (rebuild now target).run p = .ok () q ↔
      ∃ s, Console.Succeed [.reset, .clear] p.console ∧
        s = (p.halted now).rewound.absorbed (p.events.take (target + 1)) ∧
        Console.Succeed s.held.calls s.console ∧ q = s.landed target := by
  have hc : (p.halted now).console = p.console := by
    rw [halted_eq]
  have hl : (p.halted now).rewound.isLive = p.isLive := halted_isLive now p
  simp only [rebuild, EStateM.run_bind, EStateM.run_get, EStateM.run_set]
  rw [← EStateM.run_bind, run_bind_ok_iff]
  simp only [rewind_ok_iff, hc, ← hl]
  constructor
  · rintro ⟨_, ⟨hr, rfl⟩, h⟩
    obtain ⟨hf, rfl⟩ := land_ok_iff.mp h
    exact ⟨_, hr, rfl, hf, rfl⟩
  · rintro ⟨_, hr, rfl, hf, rfl⟩
    exact ⟨_, ⟨hr, rfl⟩, land_ok_iff.mpr ⟨hf, rfl⟩⟩

/-- The same to see, on the surfaces and in what a playback tells about itself. -/
structure LooksLike (p q : Playback (Traced σ)) : Prop where
  shown : p.console.shown = q.console.shown
  logged : p.console.logged = q.console.logged
  size : p.console.size p.config.initialGeometry = q.console.size q.config.initialGeometry
  session : p.session = q.session
  stopped : p.stopped = q.stopped
  index : p.index = q.index
  savedDelay : p.savedDelay = q.savedDelay
  paused : p.paused = q.paused
  state : p.state = q.state

/-- However the events up to the target were applied, landing behind it looks the same. -/
theorem Prepared.looksLike {p s t : Playback (Traced σ)} {cell : CellMetrics} {target : Nat}
    (hs : Prepared cell target p s) (ht : Prepared cell target p t)
    (hi : target < p.events.length) (hfs : Console.Succeed s.held.calls s.console)
    (hft : Console.Succeed t.held.calls t.console) :
    LooksLike (s.landed target) (t.landed target) := by
  have hevents : s.events = t.events := hs.events.trans ht.events.symm
  have hconfig : s.config = t.config := hs.config.trans ht.config.symm
  have hlive : s.isLive = t.isLive := hs.isLive.trans ht.isLive.symm
  have hstopped : s.stopped = t.stopped := by
    have h := hs.stops
    rwa [StopsWith, hlive, ← ht.stops] at h
  obtain ⟨hsshown, hslogged⟩ := (hs.landed hi hfs).shown_of_unheld rfl
  obtain ⟨htshown, htlogged⟩ := (ht.landed hi hft).shown_of_unheld rfl
  have hsize := (hs.landed hi hfs).fits.size
  have hsize' := (ht.landed hi hft).fits.size
  change (s.landed target).console.size s.config.initialGeometry =
    (lastPresent _ (s.events.take (target + 1))).getD s.config.initialGeometry at hsize
  change (t.landed target).console.size t.config.initialGeometry =
    (lastPresent _ (t.events.take (target + 1))).getD t.config.initialGeometry at hsize'
  constructor
  · rw [hsshown, htshown]
    change (s.events.take (target + 1)).flatMap _ = (t.events.take (target + 1)).flatMap _
    rw [hevents]
  · rw [hslogged, htlogged]
    change String.join ((s.events.take (target + 1)).map _) =
      String.join ((t.events.take (target + 1)).map _)
    rw [hevents]
  · change (s.landed target).console.size s.config.initialGeometry =
      (t.landed target).console.size t.config.initialGeometry
    rw [hsize, hsize', hevents, hconfig]
  · exact hs.shows.session.unique ht.shows.session hlive (hs.feed.trans ht.feed.symm)
  · exact hstopped
  · rfl
  · change s.gap target (target + 1) = t.gap target (target + 1)
    simp only [gap, hevents, hconfig, hs.speed, ht.speed]
  · exact hs.paused.trans ht.paused.symm
  · have hended : (s.landed target).isEnded = (t.landed target).isEnded := by
      change (!s.isLive && (decide (s.events.length ≤ target + 1) || s.stopped)) =
        (!t.isLive && (decide (t.events.length ≤ target + 1) || t.stopped))
      rw [hlive, hevents, hstopped]
    have hpaused : (s.landed target).paused = (t.landed target).paused :=
      hs.paused.trans ht.paused.symm
    rw [Playback.state, Playback.state, hended, hpaused]

/-- Wherever a playback got to that was live from the beginning or never, a seek forward ends in the
same state as starting over and applying everything up to the target; and both succeed on surfaces
that do not fail. -/
theorem seek_forward_looksLike_rebuild {s : σ} {config : Config} {cell : CellMetrics}
    {p start q : Playback (Traced σ)} {ops : List (Nanoseconds × Operation)} {target : Nat}
    (hc : create? ⟨s, []⟩ config = .ok p) (hsteady : Console.Steady cell s)
    (hstart : start = p ∨ start = p.setLive) (hops : ∀ o ∈ ops, o.2.keepsMode = true)
    (hq : (operateAll ops).run start = .ok () q) (hi : q.index ≤ target)
    (ht : target < q.events.length) (now now' : Nanoseconds) :
    (∀ f r, (moveTo now target).run q = .ok () f → (rebuild now' target).run q = .ok () r →
      LooksLike f r) ∧
      (q.Served → ∃ f r, (moveTo now target).run q = .ok () f ∧
        (rebuild now' target).run q = .ok () r) := by
  have hfaithful : q.Faithful cell :=
    operateAll_keeps (fun _ _ _ _ hm ho hp => hp.outcome (hops _ hm) ho) hq
      (create_faithful hc hsteady hstart)
  constructor
  · intro f r hf hr
    obtain ⟨t, hempty, rfl, hland, rfl⟩ := rebuild_ok_iff.mp hr
    cases moveTo_ok hf with
    | stayed hs => omega
    | forward u _ _ hu hflush =>
      subst hu
      exact (Prepared.forward hfaithful now hi).looksLike
        (Prepared.back hfaithful.fits.steady now' hempty) ht hflush hland
    | back u _ hback => omega
  · intro hs
    obtain ⟨f, hf, -⟩ := hs.moveTo now target
    have hempty : Console.Succeed [.reset, .clear] q.console := hs.succeed (by simp)
    let t := (q.halted now').rewound.absorbed (q.events.take (target + 1))
    have hserved : t.Served := by
      have hh : (q.halted now').Served := by
        rw [halted_eq]
        exact hs
      exact hh.called _
    have hland : Console.Succeed t.held.calls t.console :=
      hserved.succeed t.held.acknowledge_notMem
    exact ⟨f, _, hf, rebuild_ok_iff.mpr ⟨t, hempty, rfl, hland, rfl⟩⟩

/-- A live session is shown up to its first resize, goes back, and is paused with a resize, a
keystroke and output held when two more events wait. -/
def heldResizeRun : List (Nanoseconds × Operation) := [
  (0, .command (.load [.resize 0 30 100, .incoming 2 [97], .stop 3, .exec 4 "ls",
    .outgoing 5 [113], .resize 6 40 120, .incoming 7 [98, 10], .incoming 9 [99]])),
  (1, .command .play), (1, .step), (2, .command .pause), (3, .step), (4, .step),
  (5, .command (.seek 0)), (6, .step), (7, .step), (8, .step), (9, .step), (10, .step)]

theorem seek_forward_over_held : ∃ p q f r : Playback (Traced Transcript),
    create? ⟨counting, []⟩ {} = .ok p ∧ Console.Steady ⟨8, 16⟩ counting ∧
      (∀ o ∈ heldResizeRun, o.2.keepsMode = true) ∧
      (operateAll heldResizeRun).run p.setLive = .ok () q ∧
      q.held = ⟨[97], "lsq", some (CellMetrics.geometry ⟨8, 16⟩ 40 120)⟩ ∧ q.index ≤ 7 ∧
      7 < q.events.length ∧ q.Served ∧ (moveTo 11 7).run q = .ok () f ∧
      (rebuild 12 7).run q = .ok () r ∧ LooksLike f r := by
  let p : Playback (Traced Transcript) :=
    { config := {}, console := ⟨counting, []⟩, speed := Binary64.ofInt 1 }
  have hc : create? ⟨counting, []⟩ {} = .ok p := create_default _
  have hops : ∀ o ∈ heldResizeRun, o.2.keepsMode = true := by decide
  have hrun : succeedsWith (operateAll heldResizeRun) (fun q =>
      decide (q.held = ⟨[97], "lsq", some (CellMetrics.geometry ⟨8, 16⟩ 40 120)⟩) &&
        decide (q.index ≤ 7) && decide (7 < q.events.length)) p.setLive = true := by
    decide +kernel
  obtain ⟨q, hq, htest⟩ := exists_of_succeedsWith hrun
  simp only [Bool.and_eq_true, decide_eq_true_eq] at htest
  obtain ⟨⟨hheld, hi⟩, ht⟩ := htest
  have hs : q.Served := by
    have hp : p.setLive.Served := fun kind hk => Traced.serves_iff.mpr (Transcript.serves hk _)
    exact operateAll_keeps (I := Served) (fun _ _ _ _ hm ho h =>
      (Advances.outcome (hops _ hm) ho).served h) hq hp
  have hsteady : Console.Steady ⟨8, 16⟩ counting := Transcript.steady counting
  have hstart : p.setLive = p ∨ p.setLive = p.setLive := .inr rfl
  obtain ⟨hlooks, hboth⟩ := seek_forward_looksLike_rebuild hc hsteady hstart hops hq hi ht 11 12
  obtain ⟨f, r, hf, hr⟩ := hboth hs
  exact ⟨p, q, f, r, hc, hsteady, hops, hq, hheld, hi, ht, hs, hf, hr, hlooks f r hf hr⟩

end Playback
end SessionPlayback
