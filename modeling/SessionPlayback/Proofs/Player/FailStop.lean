import SessionPlayback.Console.FaultPlan
import SessionPlayback.Console.Transcript
import SessionPlayback.Proofs.Playback.FailStop
import SessionPlayback.Proofs.Playback.Overlook
import SessionPlayback.Proofs.Player.Turn

/-!
The player stops at the first call that fails, acknowledgements excepted. That call is the last one
ever made, the player ends with its error, and whoever sent the command that was being carried out,
or sends one later, is told that there is no player. An acknowledgement that fails ends nothing: the
acknowledgements behind it are dropped, and everything else is as if it had succeeded.
-/

namespace SessionPlayback

namespace Traced

variable {σ : Type} [Console σ]

theorem broken_next_iff {call : Call} {t : Traced σ} : (Console.next call t).Broken ↔
    t.Broken ∨ call ≠ .acknowledge ∧ (Console.perform call t).1 ≠ .ok () := by
  have hcalls : (Console.next call t).calls =
      t.calls ++ [(call, (Console.perform call t).1.isOk)] := rfl
  have hok : (Console.perform call t).1.isOk = false ↔ (Console.perform call t).1 ≠ .ok () := by
    cases (Console.perform call t).1 <;> simp [Except.isOk, Except.toBool]
  rw [← hok]
  constructor
  · rintro ⟨made, hne, hm⟩
    rw [hcalls, List.mem_append, List.mem_singleton] at hm
    rcases hm with hm | hm
    · exact .inl ⟨made, hne, hm⟩
    · obtain ⟨rfl, hf⟩ := Prod.mk.inj hm
      exact .inr ⟨hne, hf.symm⟩
  · rintro (h | ⟨hne, hf⟩)
    · exact h.mono (hcalls ▸ List.prefix_append _ _)
    · exact ⟨call, hne, by simp [hcalls, hf]⟩

/-- Calls that no failure has ended do not break what was not broken. -/
theorem notBroken_of_survives {s t : Traced σ} (h : Console.Survives s t) (hs : ¬s.Broken) :
    ¬t.Broken := by
  obtain ⟨calls, hc, rfl⟩ := h
  induction calls generalizing s with
  | nil => exact hs
  | cons call rest ih =>
    refine ih ?_ hc.2
    rw [broken_next_iff]
    rintro (hb | ⟨hne, hf⟩)
    · exact hs hb
    · exact hf (hc.1 hne)

end Traced

namespace Player

section Standing

variable {σ : Type} [Console σ]

omit [Console σ] in
theorem deadline?_ne_failed {p : Playback σ} {e : Error} :
    p.deadline? ≠ .error (.failed e) := by
  unfold Playback.deadline?
  split
  · nofun
  · split <;> nofun

/-- How a player stands towards its surfaces: no call has failed but acknowledgements, or the last
call has and the player has ended with its error. -/
inductive Standing (p : Player (Traced σ)) : Prop where
  | unbroken (h : ¬p.playback.console.Broken)
      (hending : ∀ e, p.ending ≠ some (.failed (.failed e)))
  | broken (e : Error) (mid : Traced σ) (call : Call) (hmid : ¬mid.Broken)
      (hcall : call ≠ .acknowledge) (he : (Console.perform call mid).1 = .error e)
      (hending : p.ending = some (.failed (.failed e)))
      (hlast : p.playback.console = Console.next call mid)

namespace Standing

variable {p q : Player (Traced σ)} {now : Nanoseconds}

theorem of_running (h : ¬p.playback.console.Broken) (hp : p.isRunning = true) : p.Standing := by
  refine .unbroken h fun e he => ?_
  simp [isRunning, he] at hp

theorem notBroken (h : p.Standing) (hp : p.isRunning = true) : ¬p.playback.console.Broken := by
  cases h with
  | unbroken h => exact h
  | broken e mid call _ _ _ hending => simp [isRunning, hending] at hp

/-- What a player is ended by without a call that fails does not look like one. -/
theorem finish {ending : Ending} (h : p.Standing) (hp : p.isRunning = true)
    (he : ∀ e, ending ≠ .failed (.failed e)) : (p.finish ending).Standing :=
  .unbroken (h.notBroken hp) fun e hs => he e (Option.some.inj hs)

theorem attempt {action : Playback.Action (Traced σ) Unit}
    {refused : Playback.Fault → Playback (Traced σ) → Prop} (h : p.Standing)
    (hp : p.isRunning = true) (haction : Playback.FailStop refused action p.playback)
    (hrefused : ∀ e q, ¬refused (.failed e) q) : (p.attempt action).Standing := by
  have hsound := h.notBroken hp
  unfold Player.attempt
  split
  · rename_i q hq
    exact of_running (Traced.notBroken_of_survives (haction.of_ok hq) hsound) hp
  · rename_i fault q hq
    rcases haction.of_error hq with ⟨e, rfl, mid, call, hmid, hcall, he, hlast⟩ | ⟨hf, hs⟩
    · exact .broken e mid call (Traced.notBroken_of_survives hmid hsound) hcall he rfl hlast
    · refine .unbroken (Traced.notBroken_of_survives hs hsound) fun e he => ?_
      cases he
      exact hrefused e q hf

theorem beginTurn (h : p.Standing) (hp : p.isRunning = true) : (p.beginTurn now).Standing := by
  have hstops : Playback.FailStop (fun _ _ => False) (Playback.drain now) p.playback :=
    Playback.FailStop.drain now
  have hdrain : (p.attempt (Playback.drain now)).Standing := h.attempt hp hstops fun _ _ => id
  unfold Player.beginTurn
  dsimp only
  split
  · rename_i hrun
    split
    · exact of_running (hdrain.notBroken hrun) hrun
    · rename_i fault hdeadline
      refine finish (of_running (hdrain.notBroken hrun) hrun) hrun fun e he => ?_
      cases he
      exact deadline?_ne_failed hdeadline
  · exact hdrain

theorem handle {action : Playback.Action (Traced σ) Unit} (h : p.Standing)
    (hp : p.isRunning = true)
    (haction : Playback.FailStop (fun _ _ => False) action p.playback) :
    (p.handle now action).Standing := by
  have hattempt := h.attempt hp haction fun _ _ => id
  unfold Player.handle
  dsimp only
  split
  · rename_i hrun
    exact hattempt.beginTurn hrun
  · exact hattempt

theorem obey (c : Command) (h : p.Standing) : (p.obey now c).2.Standing := by
  unfold Player.obey
  split
  · rename_i hp
    have hattempt : (p.attempt (Playback.carryOut now c)).Standing :=
      h.attempt hp (Playback.FailStop.operate (.command c)) fun e q hr => by cases hr
    dsimp only
    split
    · rename_i hrun
      have hpublished : ((p.attempt (Playback.carryOut now c)).publish now).Standing :=
        of_running (hattempt.notBroken hrun) hrun
      split
      · exact hpublished.finish hrun nofun
      · exact hpublished.beginTurn hrun
    · exact hattempt
  · exact h

theorem receive (h : p.Standing) (hp : p.isRunning = true) : (p.receive now).Standing := by
  have hfeed (feed : InboundQueue) : Standing { p with feed } := of_running (h.notBroken hp) hp
  unfold Player.receive
  split
  · exact h
  · exact (hfeed _).handle hp (Playback.FailStop.takeBatch now _)
  · refine (hfeed _).handle hp ?_
    refine .of_modify ?_
    rw [Playback.setDisconnected_eq]
    exact .refl _

theorem happen (happening : Happening) (h : p.Standing) : (p.happen now happening).Standing := by
  have hfeed (feed : InboundQueue) : Standing { p with feed } := by
    cases h with
    | unbroken h hending => exact .unbroken h hending
    | broken e mid call hmid hcall he hending hlast =>
      exact .broken e mid call hmid hcall he hending hlast
  unfold Player.happen
  cases happening with
  | sent item =>
    dsimp only
    split
    · exact hfeed _
    · exact h
  | left => exact hfeed _
  | turn input =>
    unfold Player.turn
    dsimp only
    split
    · rename_i hp
      cases input with
      | command c => exact h.obey c
      | timer => exact h.handle hp (Playback.FailStop.step now)
      | delivery => exact h.receive hp
    · exact h

/-- Whatever happens to a player, its first failure that counts is its last call and its end. -/
theorem happenAll (happenings : List (Nanoseconds × Happening)) (h : p.Standing) :
    (p.happenAll happenings).Standing := by
  induction happenings generalizing p with
  | nil => exact h
  | cons first rest ih => exact ih (h.happen first.2)

end Standing
end Standing

section Overlooked

variable {σ τ : Type} {view : σ → τ} {now : Nanoseconds}

def seen (view : σ → τ) (p : Player σ) : Player τ := { p with playback := p.playback.seen view }

@[simp] theorem seen_isRunning (p : Player σ) : (p.seen view).isRunning = p.isRunning := rfl

@[simp] theorem seen_feed (p : Player σ) : (p.seen view).feed = p.feed := rfl

@[simp] theorem seen_publish (p : Player σ) :
    (p.seen view).publish now = (p.publish now).seen view := rfl

@[simp] theorem seen_finish (ending : Ending) (p : Player σ) :
    (p.seen view).finish ending = (p.finish ending).seen view := rfl

@[simp] theorem seen_deadline? (p : Player σ) :
    (p.seen view).playback.deadline? = p.playback.deadline? := rfl

theorem seen_attempt {x : Playback.Action σ Unit} {y : Playback.Action τ Unit} {p : Player σ}
    (h : Playback.Mirrored view x y p.playback) :
    (p.seen view).attempt y = (p.attempt x).seen view := by
  have hrun : y (p.seen view).playback = _ := h
  unfold attempt
  rw [hrun, EStateM.run]
  cases x p.playback <;> rfl

variable [Console σ] [Console τ] (hview : Console.Overlooks view)

include hview

theorem seen_beginTurn (p : Player σ) :
    (p.seen view).beginTurn now = (p.beginTurn now).seen view := by
  unfold beginTurn
  rw [seen_attempt (Playback.Mirrored.drain hview now p.playback)]
  dsimp only
  rw [seen_isRunning, seen_publish, seen_deadline?]
  split
  · split <;> rfl
  · rfl

theorem seen_handle {x : Playback.Action σ Unit} {y : Playback.Action τ Unit} {p : Player σ}
    (h : Playback.Mirrored view x y p.playback) :
    (p.seen view).handle now y = (p.handle now x).seen view := by
  unfold handle
  rw [seen_attempt h]
  dsimp only
  rw [seen_isRunning]
  split
  · exact seen_beginTurn hview _
  · rfl

theorem seen_obey (c : Command) (p : Player σ) :
    (p.seen view).obey now c = ((p.obey now c).1, (p.obey now c).2.seen view) := by
  unfold obey
  rw [seen_attempt (Playback.Mirrored.carryOut hview now c p.playback)]
  dsimp only
  rw [seen_isRunning, seen_isRunning, seen_publish, seen_finish, seen_beginTurn hview]
  split
  · split
    · split <;> rfl
    · rfl
  · rfl

theorem seen_receive (p : Player σ) :
    (p.seen view).receive now = (p.receive now).seen view := by
  have hfeed (feed : InboundQueue) :
      ({ p.seen view with feed } : Player τ) = seen view { p with feed } := rfl
  unfold receive
  simp only [seen_feed, hfeed]
  split
  · rfl
  · exact seen_handle hview (Playback.Mirrored.takeBatch hview now _ _)
  · exact seen_handle hview (Playback.Mirrored.carryOut hview now _ _)

theorem seen_happen (happening : Happening) (p : Player σ) :
    (p.seen view).happen now happening = (p.happen now happening).seen view := by
  cases happening with
  | sent item =>
    unfold happen
    simp only [seen_feed]
    split <;> rfl
  | left => rfl
  | turn input =>
    change (p.seen view).turn now input = (p.turn now input).seen view
    unfold turn
    rw [seen_isRunning]
    split
    · cases input with
      | command c => exact congrArg Prod.snd (seen_obey hview c p)
      | timer => exact seen_handle hview (Playback.Mirrored.step hview now p.playback)
      | delivery => exact seen_receive hview p
    · rfl

/-- A run looks the same however its acknowledgements end. -/
theorem seen_happenAll (happenings : List (Nanoseconds × Happening)) (p : Player σ) :
    (p.seen view).happenAll happenings = (p.happenAll happenings).seen view := by
  induction happenings generalizing p with
  | nil => rfl
  | cons first rest ih =>
    refine (congrArg (happenAll rest) ?_).trans (ih _)
    exact seen_happen hview first.2 p

end Overlooked

section Stopped

variable {σ : Type} [Console σ] {now : Nanoseconds}

theorem happen_stopped {p : Player σ} (h : p.isRunning = false) (happening : Happening) :
    (p.happen now happening).playback = p.playback ∧
      (p.happen now happening).ending = p.ending := by
  cases happening with
  | sent item =>
    unfold happen
    dsimp only
    split <;> exact ⟨rfl, rfl⟩
  | left => exact ⟨rfl, rfl⟩
  | turn input => simp [happen, turn, h]

theorem happenAll_stopped {p : Player σ} (h : p.isRunning = false)
    (happenings : List (Nanoseconds × Happening)) :
    (p.happenAll happenings).playback = p.playback ∧
      (p.happenAll happenings).ending = p.ending := by
  induction happenings generalizing p with
  | nil => exact ⟨rfl, rfl⟩
  | cons first rest ih =>
    have hfirst : (p.happen first.1 first.2).playback = p.playback ∧
        (p.happen first.1 first.2).ending = p.ending := happen_stopped h first.2
    have hstopped : (p.happen first.1 first.2).isRunning = false := by
      simpa [isRunning, hfirst.2] using h
    obtain ⟨hplayback, hending⟩ := ih hstopped
    exact ⟨hplayback.trans hfirst.1, hending.trans hfirst.2⟩

/-- A command that is carried out is answered so, whatever the next turn begins with. -/
theorem obey_of_ok {p : Player σ} {c : Command} {q : Playback σ} (hp : p.isRunning = true)
    (h : (Playback.carryOut now c).run p.playback = .ok () q) : (p.obey now c).1 = .ok () := by
  have hrun : Playback.carryOut now c p.playback = .ok () q := h
  have hq : ({ p with playback := q } : Player σ).isRunning = true := hp
  simp only [obey, attempt, hp, hrun, hq, ↓reduceIte]

/-- A command that fails ends the player with its fault, and its sender hears of no player. -/
theorem obey_of_error {p : Player σ} {c : Command} {f : Playback.Fault} {q : Playback σ}
    (hp : p.isRunning = true) (h : (Playback.carryOut now c).run p.playback = .error f q) :
    p.obey now c = (.error .playerStopped, { p with playback := q }.finish (.failed f)) := by
  have hrun : Playback.carryOut now c p.playback = .error f q := h
  have hq : (({ p with playback := q } : Player σ).finish (.failed f)).isRunning = false := rfl
  simp only [obey, attempt, hp, hrun, hq, Bool.false_eq_true, ↓reduceIte]

theorem obey_stopped {p : Player σ} (hp : p.isRunning = false) (c : Command) :
    p.obey now c = (.error .playerStopped, p) := by
  simp [obey, hp]

end Stopped

/-- A player that runs on surfaces of any kind, with any commands, deliveries and timers. If a call
other than an acknowledgement fails, it is the last call, and the player ends with its error. Its
command is answered as carried out only if it was, and once a player has ended every command is
told that there is none. Acknowledgements end nothing: looked at without them the run is the same
whether they succeed or fail, and one that fails drops those that are due behind it. -/
theorem failStop_of_happenAll {σ : Type} [Console σ] {begun p : Player (Traced σ)}
    {start : Nanoseconds} {happenings : List (Nanoseconds × Happening)}
    (hbegun : begun.isRunning = true) (hcalls : begun.playback.console.calls = [])
    (hp : p = (begun.beginTurn start).happenAll happenings) :
    (p.playback.console.Broken ↔ ∃ e, p.ending = some (.failed (.failed e))) ∧
      (∀ e, p.ending = some (.failed (.failed e)) → ∃ mid call, ¬mid.Broken ∧
        call ≠ .acknowledge ∧ (Console.perform call mid).1 = .error e ∧
        p.playback.console = Console.next call mid) ∧
      (p.isRunning = true → ∀ now c,
        (∀ q, (Playback.carryOut now c).run p.playback = .ok () q →
          (p.obey now c).1 = .ok ()) ∧
        (∀ f q, (Playback.carryOut now c).run p.playback = .error f q →
          p.obey now c = (.error .playerStopped, { p with playback := q }.finish (.failed f)))) ∧
      (p.isRunning = false →
        (∀ now c, p.obey now c = (.error .playerStopped, p)) ∧
        ∀ more, (p.happenAll more).playback = p.playback ∧ (p.happenAll more).ending = p.ending) ∧
      (∀ {τ : Type} [Console τ] (view : Traced σ → τ), Console.Overlooks view →
        ((begun.seen view).beginTurn start).happenAll happenings = p.seen view ∧
          ∀ now c, ((p.seen view).obey now c).1 = (p.obey now c).1) ∧
      ∀ q : Playback (Traced σ),
        q.sendAcks = { q.called
            (.replicate (Console.sentAcks q.pendingAcks q.console) .acknowledge) with
          pendingAcks := 0 } ∧
        ∀ count, Playback.acknowledgeReceipt count q =
          q.called (.replicate (Console.sentAcks count q.console) .acknowledge) := by
  have hsound : ¬begun.playback.console.Broken := by
    rintro ⟨call, -, hm⟩
    simp [hcalls] at hm
  have hstanding : p.Standing :=
    hp ▸ ((Standing.of_running hsound hbegun).beginTurn hbegun).happenAll happenings
  refine ⟨?_, ?_, ?_, ?_, ?_, ?_⟩
  · cases hstanding with
    | unbroken h hending => exact ⟨fun hb => absurd hb h, fun ⟨e, he⟩ => absurd he (hending e)⟩
    | broken e mid call hmid hcall he hending hlast =>
      refine ⟨fun _ => ⟨e, hending⟩, fun _ => ?_⟩
      rw [hlast, Traced.broken_next_iff, he]
      exact .inr ⟨hcall, nofun⟩
  · intro e he
    cases hstanding with
    | unbroken h hending => exact absurd he (hending e)
    | broken e' mid call hmid hcall hfails hending hlast =>
      rw [hending] at he
      cases he
      exact ⟨mid, call, hmid, hcall, hfails, hlast⟩
  · exact fun hrun now c => ⟨fun q => obey_of_ok hrun, fun f q => obey_of_error hrun⟩
  · exact fun hend => ⟨fun now c => obey_stopped hend c, happenAll_stopped hend⟩
  · intro τ _ view hview
    constructor
    · rw [hp, seen_beginTurn hview, seen_happenAll hview]
    · exact fun now c => congrArg Prod.fst (seen_obey hview c p)
  · exact fun q => ⟨q.sendAcks_sent, fun count => q.acknowledgeReceipt_sent count⟩

/-- A batch of two events is on its way, and the timer for the second one fires. -/
def batchRun : List (Nanoseconds × Happening) := [
  (1, .turn (.command .play)),
  (2, .sent (.events [.incoming 0 [97], .incoming 5 [98]])), (3, .turn .delivery),
  (5000003, .turn .timer)]

/-- The second write fails. The player has ended with its error when a command comes. -/
theorem failStop_of_failedWrite : ∃ begun p : Player (Traced (Faulty Transcript)),
    begun.isRunning = true ∧ begun.playback.console.calls = [] ∧
      p = (begun.beginTurn 0).happenAll batchRun ∧
      p.ending = some (.failed (.failed (Faulty.fault .write))) ∧
      p.playback.console.Broken ∧
      (∃ mid call, ¬mid.Broken ∧ call ≠ .acknowledge ∧
        (Console.perform call mid).1 = .error (Faulty.fault .write) ∧
        p.playback.console = Console.next call mid) ∧
      (∀ now c, p.obey now c = (.error .playerStopped, p)) ∧
      ∀ more, (p.happenAll more).playback = p.playback := by
  let s : Faulty Transcript :=
    { inner := { cell := ⟨8, 16⟩, acks := .counting 0 }, plan := [(.write, [2])] }
  let playback : Playback (Traced (Faulty Transcript)) :=
    { config := {}, console := ⟨s, []⟩, speed := Binary64.ofInt 1 }
  let begun : Player (Traced (Faulty Transcript)) := Player.live 0 {} playback
  have hending : ((begun.beginTurn 0).happenAll batchRun).ending =
      some (.failed (.failed (Faulty.fault .write))) := by
    decide +kernel
  obtain ⟨hbroken, hlast, -, hstopped, -, -⟩ :=
    @failStop_of_happenAll _ _ begun _ 0 batchRun rfl rfl rfl
  have hend : ((begun.beginTurn 0).happenAll batchRun).isRunning = false := by
    simp [isRunning, hending]
  obtain ⟨hanswers, hrests⟩ := hstopped hend
  exact ⟨begun, _, rfl, rfl, rfl, hending, hbroken.mpr ⟨_, hending⟩, hlast _ hending, hanswers,
    fun more => (hrests more).1⟩

/-- What a transcript shows, without what has become of its acknowledgements. -/
def silenced (t : Transcript) : Transcript := { t with acks := .silent }

theorem overlooks_silenced : Console.Overlooks silenced where
  cellMetrics _ := rfl
  perform call s hc := by
    cases call with
    | acknowledge => exact absurd rfl hc
    | _ => rfl
  acknowledge _ := rfl
  silent _ := rfl

/-- Two players that differ in who takes their acknowledgements show the same. -/
theorem shows_same_of_silenced {p q : Player Transcript} (h : p.seen silenced = q.seen silenced)
    (happenings : List (Nanoseconds × Happening)) :
    (p.happenAll happenings).playback.console.screen =
        (q.happenAll happenings).playback.console.screen ∧
      (p.happenAll happenings).playback.console.log =
        (q.happenAll happenings).playback.console.log ∧
      (p.happenAll happenings).published = (q.happenAll happenings).published ∧
      (p.happenAll happenings).ending = (q.happenAll happenings).ending := by
  have hrun : (p.happenAll happenings).seen silenced = (q.happenAll happenings).seen silenced := by
    rw [← seen_happenAll overlooks_silenced, ← seen_happenAll overlooks_silenced, h]
  have hconsole : silenced (p.happenAll happenings).playback.console =
      silenced (q.happenAll happenings).playback.console :=
    congrArg (fun r : Player Transcript => r.playback.console) hrun
  have hscreen := congrArg Transcript.screen hconsole
  have hlog := congrArg Transcript.log hconsole
  have hpublished := congrArg Player.published hrun
  have hending := congrArg Player.ending hrun
  exact ⟨hscreen, hlog, hpublished, hending⟩

end Player
end SessionPlayback
