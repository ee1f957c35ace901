import SessionPlayback.Console.Transcript
import SessionPlayback.Proofs.Playback.Acknowledgement
import SessionPlayback.Proofs.Playback.Display
import SessionPlayback.Proofs.Playback.Drain
import SessionPlayback.Proofs.Player.Turn

/-!
What a player makes of a live session. However the events are batched, and whatever is done to the
player while they arrive, none is lost and none is shown or acknowledged twice: a player that plays
and has caught up has left with the outside world just what the events it received tell.
-/

namespace SessionPlayback

/-- Whether a command moves within the session and leaves open what the session is. -/
def Command.steers : Command → Bool
  | .play => true
  | .pause => true
  | .toggle => true
  | .next => true
  | .previous => true
  | .seek _ => true
  | .increaseSpeed => true
  | .decreaseSpeed => true
  | .setSpeed _ => true
  | _ => false

namespace Inbound

def eventList : Inbound → List Event
  | .events batch => batch
  | .disconnected => []

def isMore : Inbound → Bool
  | .events batch => !batch.any Event.isStop
  | .disconnected => false

end Inbound

namespace Happening

def sentEvents : Happening → List Event
  | .sent item => item.eventList
  | _ => []

/-- The session goes on: its source sends more of it, or the player is steered through it. -/
def goesOn : Happening → Bool
  | .sent item => item.isMore
  | .left => false
  | .turn (.command c) => c.steers
  | .turn _ => true

end Happening

namespace InboundQueue

def waitingEvents (q : InboundQueue) : List Event := q.waiting.flatMap Inbound.eventList

variable {q rest : InboundQueue} {item : Inbound}

theorem receive_item (h : q.receive = (.item item, rest)) :
    ∃ waiting, q.waiting = item :: waiting ∧ rest = { q with waiting } := by
  unfold receive at h
  split at h
  · rename_i first waiting hw
    simp only [Prod.mk.injEq, Received.item.injEq] at h
    obtain ⟨rfl, rfl⟩ := h
    exact ⟨waiting, hw, rfl⟩
  · split at h
    · simp at h
    · simp at h

theorem receive_closed (h : q.receive = (.closed, rest)) : q.attached = false := by
  unfold receive at h
  split at h
  · simp at h
  · split at h
    · simp at h
    · exact eq_false_of_ne_true ‹_›

end InboundQueue

structure Imprint where
  terminal : List UInt8
  keystrokes : String
  session : Metadata
  acknowledged : Nat
  deriving DecidableEq, Repr

/-- Just these events have been shown, noted and acknowledged, each of them once. -/
def Imprint.ofEvents (events : List Event) : Imprint where
  terminal := events.flatMap Event.onTerminal
  keystrokes := String.join (events.map Event.inLog)
  session := .told true .live events
  acknowledged := events.length

namespace Playback

variable {σ : Type}

def imprint (p : Playback (Traced σ)) : Imprint :=
  ⟨p.console.shown, p.console.logged, p.session, p.console.acknowledged⟩

structure SameSource (p q : Playback σ) : Prop where
  events : q.events = p.events
  feed : q.session.feed = p.session.feed

namespace SameSource

variable {p q : Playback σ} {now : Nanoseconds}

theorem pause (now : Nanoseconds) (p : Playback σ) : p.SameSource (p.pause now) := by
  obtain ⟨timer, delay, hs⟩ := pause_frame now p
  rw [hs]
  exact ⟨rfl, rfl⟩

variable [Console σ]

theorem stepped (hq : Stepped now p q) : p.SameSource q := by
  cases hq with
  | resting => exact ⟨rfl, rfl⟩
  | idle => exact ⟨rfl, rfl⟩
  | held e => exact ⟨rfl, Metadata.after_feed p.session e⟩
  | shown e n =>
    obtain ⟨timer, paused, hs⟩ :=
      scheduleNext_frame { (p.taken e).delivered n with index := p.index + 1 } now
    rw [hs]
    exact ⟨rfl, Metadata.after_feed p.session e⟩

theorem played (hq : Played now p q) : p.SameSource q := by
  cases hq with
  | already => exact ⟨rfl, rfl⟩
  | ended => exact ⟨rfl, rfl⟩
  | resumed n =>
    obtain ⟨timer, delay, hs⟩ := rearmed_frame now (p.resumed.delivered n)
    rw [hs]
    exact ⟨rfl, rfl⟩

theorem speedChanged (hq : SpeedChanged now p q) : p.SameSource q := by
  cases hq with
  | paused => exact ⟨rfl, rfl⟩
  | playing speed delay _ _ _ hq =>
    have hr := pause now p
    have hs := played hq
    exact ⟨hs.events.trans hr.events, hs.feed.trans hr.feed⟩

theorem moved {target : Nat} (hq : Moved now target p q) : p.SameSource q := by
  cases hq with
  | stayed => exact ⟨rfl, rfl⟩
  | forward s _ _ hs =>
    rw [halted_eq] at hs
    subst hs
    exact ⟨rfl, Metadata.foldl_after_feed _ p.session⟩
  | back s _ _ _ hs =>
    rw [halted_eq] at hs
    subst hs
    exact ⟨rfl, Metadata.foldl_after_feed _ p.session.modeOnly⟩

theorem steered {c : Command} (hc : c.steers = true)
    (h : (carryOut now c).run p = .ok () q) : p.SameSource q := by
  cases c with
  | play => exact played (play_ok h)
  | pause => cases h; exact pause now p
  | toggle =>
    rw [carryOut, toggle_run] at h
    split at h
    · exact played (play_ok h)
    · cases h; exact pause now p
  | next => exact moved (moveTo_ok h)
  | previous =>
    rw [carryOut, previous_run] at h
    split at h
    · exact moved (moveTo_ok h)
    · cases h; exact ⟨rfl, rfl⟩
  | seek target => exact moved (moveTo_ok h)
  | increaseSpeed => exact speedChanged (changeSpeed_ok h)
  | decreaseSpeed => exact speedChanged (changeSpeed_ok h)
  | setSpeed speed => exact speedChanged (changeSpeed_ok h)
  | _ => cases hc

end SameSource

variable [Console σ]

/-- A live playback of just these events that has kept account of all of them. -/
structure Attends (events : List Event) (p : Playback (Traced σ)) : Prop where
  displays : p.Displays
  accounts : p.Accounts
  settled : p.Settled
  events_eq : p.events = events
  feed : p.session.feed = .live

namespace Attends

variable {events batch : List Event} {p q : Playback (Traced σ)} {now : Nanoseconds}

theorem stepped (h : p.Attends events) (hq : Stepped now p q) : q.Attends events := by
  have hs := SameSource.stepped hq
  obtain ⟨ha, hsettled⟩ := h.accounts.stepped hq
  exact ⟨h.displays.stepped hq, ha, hsettled h.settled, hs.events.trans h.events_eq,
    hs.feed.trans h.feed⟩

theorem steered {c : Command} (hc : c.steers = true) (h : p.Attends events)
    (hq : (carryOut now c).run p = .ok () q) : q.Attends events := by
  have ho : Outcome now p (.command c) q := operate_ok hq
  have hk : (Operation.command c).keepsMode = true := by
    cases c <;> first | rfl | cases hc
  have hs := SameSource.steered hc hq
  obtain ⟨ha, hsettled⟩ := h.accounts.outcome hk ho
  exact ⟨h.displays.outcome ho, ha, hsettled h.settled, hs.events.trans h.events_eq,
    hs.feed.trans h.feed⟩

theorem load (h : p.Attends events) (batch : List Event) :
    (p.load batch).Attends (events ++ batch) := by
  have ho : Outcome 0 p (.command (.load batch)) (p.load batch) := .loaded _ batch
  obtain ⟨ha, hsettled⟩ := h.accounts.outcome rfl ho
  exact ⟨h.displays.load batch, ha, hsettled h.settled, by rw [← h.events_eq]; rfl, h.feed⟩

theorem drain (h : p.Attends events) (hq : (Playback.drain now).run p = .ok () q) :
    q.Attends events ∧ q.wantsStep = false :=
  drain_ok (fun _ _ hs hp => hp.stepped hs) hq h

/-- A batch without the end of the session is applied as far as nothing is scheduled. -/
theorem takeBatch (hb : batch.any Event.isStop = false) (h : p.Attends events)
    (hq : (Playback.takeBatch now batch).run p = .ok () q) : q.Attends (events ++ batch) := by
  have hl := h.load batch
  have hrun : (Playback.takeBatch now batch).run p =
      (do Playback.drain now; pure () : Action (Traced σ) Unit).run (p.load batch) := by
    have hlive : (p.load batch).isLive = true := hl.accounts.live
    simp only [Playback.takeBatch, EStateM.run_bind, EStateM.run_modify, EStateM.run_get, hlive,
      hb, ↓reduceIte, Bool.false_eq_true]
  rw [hrun] at hq
  obtain ⟨r, hr, hq⟩ := run_bind_ok_iff.mp hq
  cases hq
  exact (hl.drain hr).1

theorem imprint_eq (h : p.Attends events) (hs : p.state = .playing)
    (hi : p.index = events.length) : p.imprint = .ofEvents events := by
  have hp : p.paused = false := by
    by_contra hp
    simp [state, isEnded, h.accounts.live, hp] at hs
  have hheld : p.held = {} := by
    by_contra hh
    simp [h.displays.paused_of_held hh] at hp
  have hall : p.events.take p.index = events := by rw [h.events_eq, hi, List.take_length]
  obtain ⟨hshown, hlogged, htells⟩ := h.displays.shows
  rw [hall, hheld] at hshown hlogged
  rw [hall] at htells
  have hsession : p.session = .told true .live events := by
    have hlive : p.session.live = true := h.accounts.live
    rw [htells.eq_told, hlive, h.feed]
  -- Everything counted has been acknowledged, and only events that there are have been counted.
  have hacks : p.console.acknowledged = events.length := by
    obtain ⟨hpending, hle⟩ := h.settled hp
    have hsum := h.accounts.sum
    have hacked := h.accounts.acked_le
    rw [h.events_eq] at hacked
    omega
  rw [imprint, Imprint.ofEvents, hsession, hacks, ← Event.flatMap_terminalOutput,
    ← Event.map_keystrokeOutput]
  congr 1
  · exact (List.append_nil _).symm.trans hshown
  · exact String.append_empty.symm.trans hlogged

end Attends
end Playback

namespace Player

variable {σ : Type} [Console σ]

/-- Each event that was sent has been received or waits in the feed, which is open; and the player
waits because its playback has nothing more to take. -/
structure Receives (sent : List Event) (p : Player (Traced σ)) : Prop where
  attends : p.playback.Attends p.playback.events
  rests : p.playback.wantsStep = false
  attached : p.feed.attached = true
  listening : p.feed.listening = true
  more : ∀ item ∈ p.feed.waiting, item.isMore = true
  sent_eq : sent = p.playback.events ++ p.feed.waitingEvents

namespace Receives

variable {sent : List Event} {p q : Player (Traced σ)} {now : Nanoseconds}

/-- A turn that has taken nothing from the feed. -/
theorem rested {s r : Playback (Traced σ)} (h : p.Receives sent)
    (hs : s.Attends p.playback.events) (hr : (Playback.drain now).run s = .ok () r) :
    (p.rested now r).Receives sent := by
  obtain ⟨ha, hw⟩ := hs.drain hr
  have he : r.events = p.playback.events := ha.events_eq
  refine ⟨?_, hw, h.attached, h.listening, h.more, ?_⟩
  · exact he.symm ▸ ha
  · exact he.symm ▸ h.sent_eq

theorem turned {input : Input} (hi : (Happening.turn input).goesOn = true) (h : p.Receives sent)
    (hq : Turned now p input q) : q.Receives sent := by
  cases hq with
  | obeyed c s r _ hs hr => exact h.rested (h.attends.steered hi hs) hr
  | fired s r hs hr => exact h.rested (h.attends.stepped (Playback.step_ok hs)) hr
  | idle => exact h
  | received batch feed s r hf hs hr =>
    obtain ⟨waiting, hwaiting, rfl⟩ := InboundQueue.receive_item hf
    have hmore := h.more
    have hsent := h.sent_eq
    rw [InboundQueue.waitingEvents, hwaiting] at hsent
    rw [hwaiting] at hmore
    have hstop : batch.any Event.isStop = false := by
      simpa [Inbound.isMore] using hmore (.events batch) (by simp)
    obtain ⟨ha, hw⟩ := (h.attends.takeBatch hstop hs).drain hr
    have he : r.events = p.playback.events ++ batch := ha.events_eq
    refine ⟨he.symm ▸ ha, hw, h.attached, h.listening,
      fun item hm => hmore item (List.mem_cons_of_mem _ hm), ?_⟩
    change sent = r.events ++ waiting.flatMap Inbound.eventList
    rw [hsent, he, List.flatMap_cons, List.append_assoc]
    rfl
  | ended feed s r hf =>
    -- The feed is open, and nothing in it says that the session is over.
    rcases hf with hf | hf
    · obtain ⟨waiting, hwaiting, -⟩ := InboundQueue.receive_item hf
      have hmore := h.more .disconnected (by simp [hwaiting])
      cases hmore
    · have hattached := InboundQueue.receive_closed hf
      simp [h.attached] at hattached

theorem happen {happening : Happening} (hh : happening.goesOn = true) (h : p.Receives sent)
    (hr : (p.happen now happening).isRunning = true) :
    (p.happen now happening).Receives (sent ++ happening.sentEvents) := by
  cases happening with
  | sent item =>
    have hs : p.feed.send item = .ok { p.feed with waiting := p.feed.waiting ++ [item] } := by
      simp [InboundQueue.send, h.listening]
    have he : p.happen now (.sent item) =
        { p with feed := { p.feed with waiting := p.feed.waiting ++ [item] } } := by
      simp only [Player.happen, hs]
    rw [he]
    refine ⟨h.attends, h.rests, h.attached, h.listening, fun other hm => ?_, ?_⟩
    · rcases List.mem_append.mp hm with hm | hm
      · exact h.more other hm
      · exact List.mem_singleton.mp hm ▸ hh
    · simp [h.sent_eq, InboundQueue.waitingEvents, Happening.sentEvents]
  | left => cases hh
  | turn input =>
    have hnone : (Happening.turn input).sentEvents = [] := rfl
    rw [hnone, List.append_nil]
    exact h.turned hh (turn_running hr).2

theorem happenAll {happenings : List (Nanoseconds × Happening)}
    (hh : ∀ h ∈ happenings, h.2.goesOn = true) (h : p.Receives sent)
    (hr : (p.happenAll happenings).isRunning = true) :
    (p.happenAll happenings).Receives (sent ++ happenings.flatMap (·.2.sentEvents)) := by
  induction happenings generalizing p sent with
  | nil => simpa [Player.happenAll] using h
  | cons first rest ih =>
    -- A player that runs in the end has run all the time.
    have hfirst := h.happen (hh first (by simp)) (running_of_happenAll hr)
    have hrest := ih (fun h hm => hh h (by simp [hm])) hfirst hr
    rw [List.flatMap_cons, ← List.append_assoc]
    exact hrest

end Receives

/-- A player that has just begun to follow a session. -/
theorem live_receives {s : σ} {config : Config} {playback : Playback (Traced σ)}
    {start : Nanoseconds} (hs : Console.Serves .acknowledge s)
    (hc : Playback.create? ⟨s, []⟩ config = .ok playback)
    (hr : ((Player.live start {} playback).beginTurn start).isRunning = true) :
    ((Player.live start {} playback).beginTurn start).Receives [] := by
  obtain ⟨r, hd, he⟩ := beginTurn_running hr
  have hlive : playback.setLive.Attends [] := by
    have hdisplays := (Playback.create_displays hc).setLive
    have haccounts := Playback.create_setLive_accounts hs hc
    obtain ⟨speed, -, rfl⟩ := Playback.create_eq hc
    exact ⟨hdisplays, haccounts, Playback.settled_of_paused rfl, rfl, rfl⟩
  obtain ⟨ha, hw⟩ := hlive.drain hd
  rw [he]
  refine ⟨ha.events_eq.symm ▸ ha, hw, rfl, rfl, fun item hm => absurd hm List.not_mem_nil, ?_⟩
  change [] = r.events ++ []
  rw [ha.events_eq]
  rfl

/-- A player follows a live session that goes on and whose acknowledgements arrive, while batches,
the timer and an operator take their turns in any order. Whenever the player waits, each event that
was sent has been received or is in the feed, in order; and if it plays and its cursor is behind
everything it received, then just that has been shown, noted and acknowledged. -/
theorem imprint_of_live {s : σ} {config : Config} {playback : Playback (Traced σ)}
    {player : Player (Traced σ)} {start : Nanoseconds}
    {happenings : List (Nanoseconds × Happening)} (hs : Console.Serves .acknowledge s)
    (hc : Playback.create? ⟨s, []⟩ config = .ok playback)
    (hh : ∀ h ∈ happenings, h.2.goesOn = true)
    (hp : player = ((Player.live start {} playback).beginTurn start).happenAll happenings)
    (hr : player.isRunning = true) :
    player.playback.wantsStep = false ∧
      happenings.flatMap (·.2.sentEvents) =
        player.playback.events ++ player.feed.waitingEvents ∧
      player.playback.index ≤ player.playback.events.length ∧
      (player.playback.state = .playing →
        player.playback.index = player.playback.events.length →
          player.playback.imprint = .ofEvents player.playback.events) := by
  subst hp
  have hstart := live_receives hs hc (running_of_happenAll hr)
  have h := hstart.happenAll hh hr
  exact ⟨h.rests, h.sent_eq, h.attends.displays.index_le, h.attends.imprint_eq⟩

/-- A session is paused between two events of a batch, receives another batch, goes back to its
first event and plays until it has caught up, while one more batch waits. -/
def steeredRun : List (Nanoseconds × Happening) := [
  (0, .turn (.command .play)),
  (1000000, .sent (.events [.start 0 { username := some "ada" }, .exec 0 "ls",
    .incoming 5 [97, 10]])), (1000000, .turn .delivery),
  (2000000, .turn (.command .pause)),
  (3000000, .sent (.events [.outgoing 6 [27, 91, 65]])), (3000000, .turn .delivery),
  (4000000, .turn (.command (.seek 0))), (4000000, .turn (.command .play)),
  (9000000, .turn .timer), (9000000, .sent (.events [.incoming 7 [98]])),
  (10000000, .turn .timer), (11000000, .turn .timer)]

theorem imprint_of_steeredRun : ∃ (playback : Playback (Traced Transcript))
    (player : Player (Traced Transcript)),
    Console.Serves .acknowledge ({ cell := ⟨8, 16⟩, acks := .counting 0 } : Transcript) ∧
      Playback.create? ⟨{ cell := ⟨8, 16⟩, acks := .counting 0 }, []⟩ {} = .ok playback ∧
      (∀ h ∈ steeredRun, h.2.goesOn = true) ∧
      player = ((Player.live 0 {} playback).beginTurn 0).happenAll steeredRun ∧
      player.isRunning = true ∧ player.playback.state = .playing ∧
      player.playback.index = player.playback.events.length ∧
      player.playback.wantsStep = false ∧
      steeredRun.flatMap (·.2.sentEvents) =
        player.playback.events ++ player.feed.waitingEvents ∧
      player.playback.imprint = .ofEvents player.playback.events ∧
      player.playback.imprint = ⟨[97, 13, 10], "ls[UP]",
        { username := some "ada", terminalType := some .exec, live := true, feed := .live },
        4⟩ := by
  let s : Transcript := { cell := ⟨8, 16⟩, acks := .counting 0 }
  let playback : Playback (Traced Transcript) :=
    { config := {}, console := ⟨s, []⟩, speed := Binary64.ofInt 1 }
  let player := ((Player.live 0 {} playback).beginTurn 0).happenAll steeredRun
  have hs : Console.Serves .acknowledge s := Transcript.serves_acknowledge rfl
  have hc : Playback.create? ⟨s, []⟩ {} = .ok playback := Playback.create_default _
  have hh : ∀ h ∈ steeredRun, h.2.goesOn = true := by decide
  have hr : player.isRunning = true := by decide +kernel
  have hstate : player.playback.state = .playing := by decide +kernel
  have hi : player.playback.index = player.playback.events.length := by decide +kernel
  obtain ⟨hrests, hsent, -, himprint⟩ := imprint_of_live hs hc hh (rfl : player = _) hr
  exact ⟨playback, player, hs, hc, hh, rfl, hr, hstate, hi, hrests, hsent, himprint hstate hi,
    by decide +kernel⟩

end Player
end SessionPlayback
