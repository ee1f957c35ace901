import SessionPlayback.Proofs.Playback.Display
import SessionPlayback.Proofs.Playback.Follow

/-!
Replays that are played to their end. However a replay was sought before, playing it out ends at
the same place, with the same output, as playing it from the beginning.
-/

namespace SessionPlayback

theorem any_take_isStop (events : List Event) (n : Nat) :
    (events.take n).any Event.isStop = true ↔
      events.findIdx Event.isStop < n ∧ events.findIdx Event.isStop < events.length := by
  rw [List.any_eq_true, ← List.findIdx_lt_length, List.findIdx_take, List.length_take]
  omega

namespace Playback

variable {σ : Type} [Console σ]

/-- A replay that shows the events before its cursor, on surfaces that do not fail. -/
structure Ready (p : Playback (Traced σ)) : Prop where
  displays : p.Displays
  replays : p.Replays
  served : p.Served

structure Rests (p : Playback (Traced σ)) : Prop extends p.Ready where
  paused : p.paused = true
  timer : p.timer = none

structure PlayedOut (p : Playback (Traced σ)) : Prop extends p.Ready where
  ended : p.isEnded = true
  timer : p.timer = none

variable {p : Playback (Traced σ)}

theorem Ready.isEnded_iff (h : p.Ready) (hi : p.index ≤ playedLength p.events) :
    p.isEnded = true ↔ p.index = playedLength p.events := by
  have hs := any_take_isStop p.events p.index
  rw [← h.replays.stopped] at hs
  simp only [isEnded, h.replays.notLive, Bool.not_false, Bool.true_and, Bool.or_eq_true,
    decide_eq_true_eq, hs]
  unfold playedLength at *
  omega

theorem Rests.poised (h : p.Rests) : p.Poised :=
  ⟨h.served, h.replays.notLive, fun _ => h.timer, fun hp => by simp [h.paused] at hp⟩

/-- A replay that rests plays out. -/
theorem Rests.playsOut (h : p.Rests) (hi : p.index ≤ playedLength p.events)
    (now : Nanoseconds) : ∃ q, PlaysOut now p q ∧ q.PlayedOut ∧ q.events = p.events ∧
      q.index = playedLength p.events ∧ (playOut now p).Ends now (p.lastDeadline now) q := by
  obtain ⟨q, hq, hdone, he, hend, hrun⟩ := h.poised.playsOut now
  have hkept : q.Displays ∧ q.Replays :=
    hq.keeps (I := fun q => q.Displays ∧ q.Replays)
      (fun _ _ _ hs h => ⟨h.1.stepped hs, h.2.stepped hs⟩)
      (fun _ _ _ hs h => ⟨h.1.played hs, h.2.played hs⟩) ⟨h.displays, h.replays⟩
  refine ⟨q, hq, ⟨⟨hkept.1, hkept.2, hdone.served⟩, hdone.ended, hdone.timer⟩, he, ?_, hrun⟩
  rw [hend]
  split
  · rename_i hp
    exact (h.isEnded_iff hi).mp hp
  · rename_i hp
    rw [h.isEnded_iff hi] at hp
    refine playedFrom_eq_playedLength ?_
    unfold playedLength at hi hp
    omega

/-- A seek leaves a replay that rests at rest, right behind the target if there is one. -/
theorem Rests.seek (h : p.Rests) (now : Nanoseconds) (target : Nat) :
    ∃ q, (moveTo now target).run p = .ok () q ∧ q.Rests ∧ q.events = p.events ∧
      (target < p.events.length → q.index = target + 1) ∧ q.config = p.config ∧
      q.speed = p.speed := by
  obtain ⟨q, hq, hs⟩ := h.served.moveTo now target
  have hm := moveTo_ok hq
  have hr : q.Ready := ⟨h.displays.moved hm, h.replays.moved hm, hs⟩
  refine ⟨q, hq, ?_⟩
  cases hm with
  | stayed hn =>
    exact ⟨h, rfl, fun ht => by omega, rfl, rfl⟩
  | forward s _ _ he =>
    subst he
    rw [halted_eq] at hr ⊢
    exact ⟨⟨hr, rfl, rfl⟩, rfl, fun _ => rfl, rfl, rfl⟩
  | back s _ _ _ he =>
    subst he
    rw [halted_eq] at hr ⊢
    exact ⟨⟨hr, rfl, rfl⟩, rfl, fun _ => rfl, rfl, rfl⟩

def seekAll (seeks : List (Nanoseconds × Nat)) : Action σ Unit :=
  operateAll (seeks.map fun (now, target) => (now, .command (.seek target)))

theorem Rests.seekAll (h : p.Rests) (seeks : List (Nanoseconds × Nat)) :
    ∃ q, (seekAll seeks).run p = .ok () q ∧ q.Rests ∧ q.events = p.events := by
  induction seeks generalizing p with
  | nil => exact ⟨p, rfl, h, rfl⟩
  | cons seek rest ih =>
    obtain ⟨r, hr, hrests, he, -⟩ := h.seek seek.1 seek.2
    obtain ⟨q, hq, hq', hqe⟩ := ih hrests
    exact ⟨q, run_bind_ok_iff.mpr ⟨r, hr, hq⟩, hq', hqe.trans he⟩

/-- What has been shown when a replay has played out depends on how far it was played only. -/
theorem PlayedOut.shows_same {q r : Playback (Traced σ)} (hq : q.PlayedOut) (hr : r.PlayedOut)
    (he : q.events = r.events) (hi : q.index = r.index) :
    q.console.shown = r.console.shown ∧ q.console.logged = r.console.logged ∧
      q.session = r.session := by
  have hs := hq.displays.shows
  rw [he, hi] at hs
  obtain ⟨ho, hk, hm⟩ := hr.displays.shows
  rw [← hs.output, hq.replays.unheld, hr.replays.unheld] at ho
  rw [← hs.keystrokes, hq.replays.unheld, hr.replays.unheld] at hk
  refine ⟨by simpa using ho.symm, by simpa using hk.symm, hs.session.unique hm ?_ ?_⟩
  · exact hq.replays.notLive.trans hr.replays.notLive.symm
  · exact hq.replays.old.trans hr.replays.old.symm

theorem PlayedOut.state_eq (h : p.PlayedOut) : p.state = .ended := by
  simp [state, h.ended]

theorem le_playedLength {events : List Event} {target : Nat} (ht : target < events.length)
    (hstop : ∀ e ∈ events.take target, e.isStop = false) :
    target + 1 ≤ playedLength events := by
  have hn : ¬(events.take target).any Event.isStop = true := by
    simpa using hstop
  rw [any_take_isStop] at hn
  unfold playedLength
  omega

theorem load_rests {s : σ} {config : Config} {p : Playback (Traced σ)}
    (hs : ∀ kind, kind ≠ .acknowledge → Console.Serves kind s)
    (hc : create? ⟨s, []⟩ config = .ok p) (events : List Event) : (p.load events).Rests := by
  have hd := (create_displays hc).load events
  have hr := (create_replays hc).load events
  obtain ⟨speed, -, rfl⟩ := create_eq hc
  exact ⟨⟨hd, hr, fun kind hk => Traced.serves_iff.mpr (hs kind hk)⟩, rfl, rfl⟩

/-- However a replay was sought before, if its last seek did not go past the end of the session,
playing it out ends where playing it from the beginning ends, and shows the same. Either run gets
there if its last deadline lies on the clock; if not, it gives up. -/
theorem seek_then_playsOut {s : σ} {config : Config} {events : List Event} {target : Nat}
    (hc : config.minSpeed.isNaN = false)
    (hs : ∀ kind, kind ≠ .acknowledge → Console.Serves kind s) (ht : target < events.length)
    (hstop : ∀ e ∈ events.take target, e.isStop = false)
    (seeks : List (Nanoseconds × Nat)) (last now now' : Nanoseconds) :
    ∃ p sought q r : Playback (Traced σ), create? ⟨s, []⟩ config = .ok p ∧
      (seekAll (seeks ++ [(last, target)])).run (p.load events) = .ok () sought ∧
      (sought.lastDeadline now < clockLimit →
        playOut now sought = ⟨.ok (), max now (sought.lastDeadline now), q⟩) ∧
      (clockLimit ≤ sought.lastDeadline now →
        (playOut now sought).result = .error .clockRange) ∧
      ((p.load events).lastDeadline now' < clockLimit →
        playOut now' (p.load events) =
          ⟨.ok (), max now' ((p.load events).lastDeadline now'), r⟩) ∧
      (clockLimit ≤ (p.load events).lastDeadline now' →
        (playOut now' (p.load events)).result = .error .clockRange) ∧
      q.timer = none ∧ r.timer = none ∧
      q.console.shown = r.console.shown ∧ q.console.logged = r.console.logged ∧
      q.session = r.session ∧ q.index = playedLength events ∧ r.index = playedLength events ∧
      q.state = .ended ∧ r.state = .ended := by
  obtain ⟨p, hp⟩ := create_ok (⟨s, []⟩ : Traced σ) hc
  have hfresh := load_rests hs hp events
  have he : (p.load events).events = events := by
    obtain ⟨speed, -, rfl⟩ := create_eq hp
    rfl
  have hi : (p.load events).index = 0 := by
    obtain ⟨speed, -, rfl⟩ := create_eq hp
    rfl
  obtain ⟨r, -, hrout, hre, hri, hrun⟩ := hfresh.playsOut (by simp [hi]) now'
  obtain ⟨before, hb, hbrests, hbe⟩ := hfresh.seekAll seeks
  obtain ⟨sought, hsought, hsrests, hse, hsi, -⟩ := hbrests.seek last target
  rw [hbe, he] at hse hsi
  have hle := le_playedLength ht hstop
  obtain ⟨q, -, hqout, hqe, hqi, hqrun⟩ := hsrests.playsOut (by rwa [hse, hsi ht]) now
  have hall : (seekAll (seeks ++ [(last, target)])).run (p.load events) = .ok () sought := by
    rw [seekAll, List.map_append]
    exact operateAll_append.mpr ⟨before, hb, run_bind_ok_iff.mpr ⟨sought, hsought, rfl⟩⟩
  rw [hse] at hqi hqe
  rw [he] at hri hre
  obtain ⟨hshown, hlogged, hsession⟩ :=
    hqout.shows_same hrout (hqe.trans hre.symm) (hqi.trans hri.symm)
  exact ⟨p, sought, q, r, hp, hall, hqrun.in_range, hqrun.beyond, hrun.in_range, hrun.beyond,
    hqout.timer, hrout.timer, hshown, hlogged, hsession, hqi, hri, hqout.state_eq, hrout.state_eq⟩

def endedEarly : List Event :=
  [.exec 0 "ls", .incoming 3 [104, 10], .stop 9, .incoming 12 [113]]

theorem endedEarly_seek_then_playsOut :
    ∃ p sought q r : Playback (Traced Transcript),
      create? ⟨{ cell := ⟨8, 16⟩ }, []⟩ {} = .ok p ∧
      (seekAll ([(1, 3), (2, 0)] ++ [(5, 1)])).run (p.load endedEarly) = .ok () sought ∧
      playOut 8 sought = ⟨.ok (), 6000008, q⟩ ∧
      playOut 0 (p.load endedEarly) = ⟨.ok (), 9000000, r⟩ ∧ q.timer = none ∧ r.timer = none ∧
      q.console.shown = r.console.shown ∧ q.console.logged = r.console.logged ∧
      q.session = r.session ∧ q.index = 3 ∧ r.index = 3 ∧ q.state = .ended ∧ r.state = .ended ∧
      r.console.shown = [104, 13, 10] ∧ r.console.logged = "ls" ∧
      r.session = { terminalType := some .exec } := by
  have hc : ({} : Config).minSpeed.isNaN = false := by decide +kernel
  have hs : ∀ kind, kind ≠ .acknowledge →
      Console.Serves kind ({ cell := ⟨8, 16⟩ } : Transcript) :=
    fun kind hk => Transcript.serves hk _
  have ht : 1 < endedEarly.length := by decide
  have hstop : ∀ e ∈ endedEarly.take 1, e.isStop = false := by decide +kernel
  obtain ⟨p, sought, q, r, hp, hsought, hq, -, hr, -, hqt, hrt, hshown, hlogged, hsession, hqi,
    hri, hqs, hrs⟩ := seek_then_playsOut hc hs ht hstop [(1, 3), (2, 0)] 5 8 0
  have hfresh := Except.ok.inj (hp.symm.trans (create_default _))
  have hends : succeedsWith (seekAll ([(1, 3), (2, 0)] ++ [(5, 1)]))
      (fun s => decide (s.lastDeadline 8 = 6000008)) (p.load endedEarly) = true := by
    rw [hfresh]
    decide +kernel
  have hend : sought.lastDeadline 8 = 6000008 := by
    rw [succeedsWith, hsought] at hends
    exact of_decide_eq_true hends
  have hlast : (p.load endedEarly).lastDeadline 0 = 9000000 := by
    rw [hfresh]
    decide +kernel
  have hplayed : (playOut 0 (p.load endedEarly)).playback.console.shown = [104, 13, 10] ∧
      (playOut 0 (p.load endedEarly)).playback.console.logged = "ls" ∧
      (playOut 0 (p.load endedEarly)).playback.session = { terminalType := some .exec } := by
    rw [hfresh]
    decide +kernel
  rw [hend] at hq
  rw [hlast] at hr
  have hrun := hr (by decide)
  rw [hrun] at hplayed
  exact ⟨p, sought, q, r, hp, hsought, hq (by decide), hrun, hqt, hrt, hshown, hlogged, hsession,
    hqi, hri, hqs, hrs, hplayed⟩

/-- With the gaps as long as they can be, a session of two thousand events outlasts the clock. -/
theorem seesaw_outlasts_clock : ∃ p sought : Playback (Traced Transcript),
    create? ⟨{ cell := ⟨8, 16⟩ }, []⟩ {} = .ok p ∧ 1 < (seesaw 2004).length ∧
      (∀ e ∈ (seesaw 2004).take 1, e.isStop = false) ∧
      (seekAll [(0, 1)]).run (p.load (seesaw 2004)) = .ok () sought ∧
      (playOut 0 sought).result = .error .clockRange ∧
      (playOut 0 (p.load (seesaw 2004))).result = .error .clockRange := by
  let p : Playback (Traced Transcript) :=
    { config := {}, console := ⟨{ cell := ⟨8, 16⟩ }, []⟩, speed := Binary64.ofInt 1 }
  have hp : create? ⟨{ cell := ⟨8, 16⟩ }, []⟩ {} = .ok p := create_default _
  have hlength : (seesaw 2004).length = 2004 := by simp [seesaw]
  have hplayed : playedLength (seesaw 2004) = 2004 := by
    rw [← playedFrom_eq_playedLength (Nat.zero_le _),
      playedFrom_of_unstopped seesaw_isStop (Nat.zero_le _), hlength]
  have hloaded (events : List Event) : (p.load events).events = events := List.nil_append events
  have hspeed (events : List Event) : (p.load events).speed = Binary64.ofInt 1 := by
    simp only [p, Playback.load]
  have hfresh : (p.load (seesaw 2004)).Rests :=
    load_rests (fun kind hk => Transcript.serves hk _) hp _
  have hbeyond {first : Nat} {q : Playback (Traced Transcript)} (h : q.Rests)
      (he : q.events = seesaw 2004) (hc : q.config = {}) (hs : q.speed = Binary64.ofInt 1)
      (hi : q.index = 2 * first) (hfirst : first ≤ 1) :
      (playOut 0 q).result = .error .clockRange := by
    have hle : q.index ≤ playedLength q.events := by
      rw [he, hplayed]
      omega
    have hended : q.isEnded = false := by
      rw [← Bool.not_eq_true, h.isEnded_iff hle, he, hplayed]
      omega
    exact h.poised.playOut_seesaw he (by rw [hc]) hs hi hfirst hended 0
  obtain ⟨sought, hsought, hrests, he, hi, hc, hs⟩ := hfresh.seek 0 1
  rw [hloaded] at he hi
  rw [hspeed] at hs
  have hindex : sought.index = 2 * 1 := hi (by omega)
  have hnone : ∀ e ∈ (seesaw 2004).take 1, e.isStop = false :=
    fun e he => seesaw_isStop e (List.mem_of_mem_take he)
  refine ⟨p, sought, hp, by omega, hnone, ?_, ?_, ?_⟩
  · exact run_bind_ok_iff.mpr ⟨sought, hsought, rfl⟩
  · exact hbeyond hrests he hc hs hindex (Nat.le_refl 1)
  · exact hbeyond hfresh (hloaded _) rfl (hspeed _) (Nat.mul_zero 2).symm (Nat.zero_le 1)

end Playback
end SessionPlayback
