import SessionPlayback.Playback.Mode
import SessionPlayback.Playback.Seek
import SessionPlayback.Proofs.Playback.Schedule

/-!
What seeking, switching the mode and starting over come to. A seek is a halt, a run of events that
are applied on top of the present state or of a rewound one, one flush, and a landing behind the
target.
-/

namespace SessionPlayback.Playback

variable {σ : Type}

def halted (now : Nanoseconds) (p : Playback σ) : Playback σ := { p.pause now with timer := none }

theorem halted_eq (now : Nanoseconds) (p : Playback σ) : p.halted now =
    { p with paused := true, timer := none, savedDelay := (p.pause now).savedDelay } := by
  cases hp : p.paused with
  | true => simp [halted, pause_of_paused now hp, ← hp]
  | false => simp [halted, pause_of_playing now hp]

@[simp] theorem halted_isLive (now : Nanoseconds) (p : Playback σ) :
    (p.halted now).isLive = p.isLive := by
  rw [halted_eq]
  rfl

variable [Console σ]

/-- A run of events has been applied; nothing has been flushed. -/
def absorbed (events : List Event) (p : Playback σ) : Playback σ :=
  { p with
    session := events.foldl Metadata.after p.session
    held := events.foldl (fun h e => h.push (Console.cellMetrics p.console) e) p.held
    stopped := p.stopped || (events.any Event.isStop && !p.isLive) }

theorem absorbAll_eq (events : List Event) (p : Playback σ) :
    absorbAll p.isLive events p = p.absorbed events := by
  suffices h : ∀ live, absorbAll live events p = { p.absorbed events with
      stopped := p.stopped || (events.any Event.isStop && !live) } from h p.isLive
  intro live
  induction events generalizing p with
  | nil => simp [absorbAll, absorbed]
  | cons e events ih =>
    rw [absorbAll, List.foldl_cons]
    refine (ih _).trans ?_
    simp [absorbed, absorb, Bool.and_or_distrib_right, Bool.or_assoc]

def rewound (p : Playback σ) : Playback σ :=
  { p.called [.reset, .clear] with
    held := { resize := some p.config.initialGeometry }
    session := p.session.modeOnly
    stopped := false }

def landed (target : Nat) (p : Playback σ) : Playback σ :=
  { p.called p.held.calls with
    held := {}
    index := target + 1
    savedDelay := p.gap target (target + 1) }

inductive Moved (now : Nanoseconds) (target : Nat) (p : Playback σ) : Playback σ → Prop where
  | stayed (h : p.events.length ≤ target ∨ p.index = target + 1) : Moved now target p p
  | forward (s : Playback σ) (ht : target < p.events.length) (hi : p.index ≤ target)
      (hs : s = (p.halted now).absorbed ((p.events.take (target + 1)).drop p.index))
      (hf : Console.Succeed s.held.calls s.console) : Moved now target p (s.landed target)
  | back (s : Playback σ) (ht : target < p.events.length) (hi : target + 1 < p.index)
      (hr : Console.Succeed [.reset, .clear] p.console)
      (hs : s = (p.halted now).rewound.absorbed (p.events.take (target + 1)))
      (hf : Console.Succeed s.held.calls s.console) : Moved now target p (s.landed target)

theorem rewind_ok_iff {p q : Playback σ} : rewind.run p = .ok () q ↔
    Console.Succeed [.reset, .clear] p.console ∧ q = p.rewound := by
  simp only [rewind, run_bind_ok_iff, perform_ok_iff, EStateM.run_modify, Console.Succeed,
    and_true]
  constructor
  · rintro ⟨_, ⟨hr, rfl⟩, _, ⟨hc, rfl⟩, h⟩
    cases h
    exact ⟨⟨hr, hc⟩, rfl⟩
  · rintro ⟨⟨hr, hc⟩, rfl⟩
    exact ⟨_, ⟨hr, rfl⟩, _, ⟨hc, rfl⟩, rfl⟩

def land (target : Nat) (events : List Event) (live : Bool) : Action σ Unit := do
  modify (absorbAll live events)
  flush
  modify fun p =>
    let p := { p with index := target + 1 }
    { p with savedDelay := p.gap target (target + 1) }

theorem moveTo_run (now : Nanoseconds) (target : Nat) (p : Playback σ) :
    (moveTo now target).run p =
      if p.events.length ≤ target ∨ p.index = target + 1 then .ok () p
      else if target < p.index then
        (do rewind; land target (p.events.take (target + 1)) p.isLive : Action σ Unit).run
          (p.halted now)
      else (land target ((p.events.take (target + 1)).drop p.index) p.isLive).run
        (p.halted now) := by
  simp only [moveTo, EStateM.run_bind, EStateM.run_get]
  split
  · rfl
  · simp only [EStateM.run_bind, EStateM.run_set]
    split
    · rfl
    · rfl

theorem land_ok_iff {target : Nat} {events : List Event} {p q : Playback σ} :
    (land target events p.isLive).run p = .ok () q ↔
      Console.Succeed (p.absorbed events).held.calls p.console ∧
        q = (p.absorbed events).landed target := by
  simp only [land, run_bind_ok_iff, EStateM.run_modify, absorbAll_eq, flush_ok_iff]
  constructor
  · rintro ⟨_, h, _, ⟨hf, rfl⟩, hq⟩
    cases h
    cases hq
    exact ⟨hf, rfl⟩
  · rintro ⟨hf, rfl⟩
    exact ⟨_, rfl, _, ⟨hf, rfl⟩, rfl⟩

/-- A seek that does not land has failed to flush. -/
theorem land_error {target : Nat} {events : List Event} {p q : Playback σ} {f : Fault}
    (h : (land target events p.isLive).run p = .error f q) :
    flush.run (p.absorbed events) = .error f q := by
  simp only [land, run_bind_error_iff, EStateM.run_modify, absorbAll_eq] at h
  rcases h with h | ⟨_, h, h' | ⟨_, -, h'⟩⟩
  · cases h
  · cases h
    exact h'
  · cases h'

theorem moveTo_ok {now : Nanoseconds} {target : Nat} {p q : Playback σ}
    (h : (moveTo now target).run p = .ok () q) : Moved now target p q := by
  rw [moveTo_run, ← halted_isLive now p] at h
  split at h
  · rename_i hs
    cases h
    exact .stayed hs
  · rename_i hs
    have ht : target < p.events.length := by omega
    split at h
    · rename_i hb
      obtain ⟨r, hr, h⟩ := run_bind_ok_iff.mp h
      obtain ⟨hc, rfl⟩ := rewind_ok_iff.mp hr
      obtain ⟨hf, rfl⟩ := (land_ok_iff (p := (p.halted now).rewound)).mp h
      rw [halted_eq] at hc
      exact .back _ ht (by omega) hc rfl hf
    · rename_i hb
      obtain ⟨hf, rfl⟩ := land_ok_iff.mp h
      exact .forward _ ht (by omega) rfl hf

/-- `q` differs from `p` by some calls, none of them an acknowledgement, and by what is known about
the session, what is held and whether the session has stopped. -/
def Disturbed (p q : Playback σ) : Prop :=
  ∃ (calls : List Call) (session : Metadata) (held : Held) (stopped : Bool),
    .acknowledge ∉ calls ∧ session.live = p.session.live ∧
      q = { p.called calls with session := session, held := held, stopped := stopped }

theorem Disturbed.trans {p q r : Playback σ} (hq : Disturbed p q) (hr : Disturbed q r) :
    Disturbed p r := by
  obtain ⟨front, _, _, _, hf, hl, rfl⟩ := hq
  obtain ⟨back, session, held, stopped, hb, hl', rfl⟩ := hr
  exact ⟨front ++ back, session, held, stopped, by simp [hf, hb], hl'.trans hl,
    by simp [called, Console.after_append]⟩

theorem Spilled.disturbed {p q : Playback σ} (h : Spilled p q) : Disturbed p q := by
  obtain ⟨calls, held, hc, rfl⟩ := h
  exact ⟨calls, p.session, held, p.stopped, hc, rfl, rfl⟩

theorem absorbed_disturbed (events : List Event) (p : Playback σ) :
    Disturbed p (p.absorbed events) :=
  ⟨[], _, _, _, by simp, Metadata.foldl_after_live events p.session, rfl⟩

theorem rewound_disturbed (p : Playback σ) : Disturbed p p.rewound :=
  ⟨[.reset, .clear], p.session.modeOnly, _, _, by simp, rfl, rfl⟩

/-- A seek that moves disturbs the halted playback and puts the cursor behind the target. -/
theorem Moved.disturbed {now : Nanoseconds} {target : Nat} {p q : Playback σ}
    (h : Moved now target p q) : q = p ∨ target < p.events.length ∧
      ∃ s delay, Disturbed (p.halted now) s ∧
        q = { s with index := target + 1, savedDelay := delay } := by
  have hflush (s : Playback σ) : Disturbed s { s.called s.held.calls with held := {} } :=
    ⟨_, s.session, _, s.stopped, s.held.acknowledge_notMem, rfl, rfl⟩
  cases h with
  | stayed => exact .inl rfl
  | forward s ht _ hs =>
    have hd : Disturbed (p.halted now) s := hs ▸ absorbed_disturbed _ _
    exact .inr ⟨ht, _, _, hd.trans (hflush s), rfl⟩
  | back s ht _ _ hs =>
    have hd : Disturbed (p.halted now) s :=
      hs ▸ (rewound_disturbed _).trans (absorbed_disturbed _ _)
    exact .inr ⟨ht, _, _, hd.trans (hflush s), rfl⟩

/-- A seek back that fails to empty the surfaces has changed nothing else. -/
theorem rewind_error {p q : Playback σ} {f : Fault} (h : rewind.run p = .error f q) :
    ¬Console.Succeed [.reset, .clear] p.console ∧
      ∃ made, made <+: [.reset, .clear] ∧ q = p.called made := by
  simp only [rewind, run_bind_error_iff, perform_ok_iff, EStateM.run_modify] at h
  rcases h with h | ⟨_, ⟨hr, rfl⟩, h | ⟨_, -, h⟩⟩
  · obtain ⟨hn, rfl⟩ := perform_fails h
    exact ⟨fun hs => hn ⟨hs.1, trivial⟩, [.reset], by simp, rfl⟩
  · obtain ⟨hn, rfl⟩ := perform_fails h
    exact ⟨fun hs => hn hs.2, [.reset, .clear], by simp, rfl⟩
  · cases h

/-- A seek that fails may have shown anything; it has not moved the cursor. -/
theorem moveTo_error {now : Nanoseconds} {target : Nat} {p q : Playback σ} {f : Fault}
    (h : (moveTo now target).run p = .error f q) : Disturbed (p.halted now) q := by
  rw [moveTo_run, ← halted_isLive now p] at h
  split at h
  · cases h
  · split at h
    · rcases run_bind_error_iff.mp h with h | ⟨r, hr, h⟩
      · obtain ⟨-, made, hm, rfl⟩ := rewind_error h
        exact ⟨made, _, _, _, fun hack => by simpa using hm.subset hack, rfl, rfl⟩
      · obtain ⟨-, rfl⟩ := rewind_ok_iff.mp hr
        have hf := flush_error (land_error (p := (p.halted now).rewound) h)
        exact ((rewound_disturbed _).trans (absorbed_disturbed _ _)).trans hf.disturbed
    · exact (absorbed_disturbed _ _).trans (flush_error (land_error h)).disturbed

theorem previous_run (now : Nanoseconds) (p : Playback σ) : (previous now).run p =
    if 2 ≤ p.index then (moveTo now (p.index - 2)).run p else .ok () p := by
  simp only [previous, EStateM.run_bind, EStateM.run_get]
  split <;> rfl

omit [Console σ] in
/-- A replay that waits for nothing goes on at once, or stops if there is nothing left. -/
theorem setDisconnected_eq (now : Nanoseconds) (p : Playback σ) : p.setDisconnected now =
    { p with
      session := p.session.setDisconnected
      pendingAcks := 0
      timer := if p.paused || p.timer.isSome || decide (p.events.length ≤ p.index) then p.timer
        else some ⟨now, 0⟩
      paused := p.paused || (p.timer.isNone && decide (p.events.length ≤ p.index)) } := by
  unfold setDisconnected
  cases hp : p.paused <;> cases ht : p.timer <;> by_cases hi : p.index < p.events.length <;>
    simp_all

def cleared (speed : Binary64) (p : Playback σ) : Playback σ :=
  { p.called [.reset, .clear, .resize p.config.initialGeometry] with
    events := [], index := 0, paused := true, speed, session := {}, held := {}, timer := none,
    savedDelay := 0, stopped := false, pendingAcks := 0, acked := 0 }

theorem reset_ok {p q : Playback σ} (h : reset.run p = .ok () q) : ∃ speed,
    Console.Succeed [.reset, .clear, .resize p.config.initialGeometry] p.console ∧
      q = p.cleared speed := by
  simp only [reset, EStateM.run_bind, EStateM.run_modify, EStateM.run_get] at h
  split at h
  · cases h
  · rename_i speed _
    simp only [run_bind_ok_iff, EStateM.run_set, perform_ok_iff] at h
    obtain ⟨_, h, _, ⟨hr, rfl⟩, _, ⟨hc, rfl⟩, hg, rfl⟩ := h
    cases h
    exact ⟨speed, ⟨hr, hc, hg, trivial⟩, rfl⟩

/-- Starting over acknowledges nothing, even if it fails. -/
theorem reset_error {p q : Playback σ} {f : Fault} (h : reset.run p = .error f q) :
    ∃ calls, .acknowledge ∉ calls ∧ q.console = Console.after calls p.console := by
  simp only [reset, EStateM.run_bind, EStateM.run_modify, EStateM.run_get] at h
  split at h
  · cases h
    exact ⟨[], by simp, rfl⟩
  · simp only [run_bind_error_iff, EStateM.run_set, perform_ok_iff] at h
    rcases h with h | ⟨_, hset, h⟩
    · cases h
    · cases hset
      rcases h with h | ⟨_, ⟨-, rfl⟩, h | ⟨_, ⟨-, rfl⟩, h⟩⟩
      · exact ⟨[.reset], by simp, by rw [perform_error h]; rfl⟩
      · exact ⟨[.reset, .clear], by simp, by rw [perform_error h]; rfl⟩
      · exact ⟨[.reset, .clear, .resize p.config.initialGeometry], by simp,
          by rw [perform_error h]; rfl⟩

end SessionPlayback.Playback
