import SessionPlayback.Proofs.Player.Account

/-!
The credit of a feed. Its source may send one event for each acknowledgement, so a player must not
acknowledge more events than were delivered to it. Events that were acknowledged on receipt are the
exception: if the session is made live while they are in it, playing acknowledges them once more.
-/

namespace SessionPlayback

namespace Player

variable {σ : Type}

def delivery (p : Player σ) : List Event :=
  match p.feed.receive.1 with
  | .item (.events batch) => batch
  | _ => []

def book (happening : Happening) (p : Player σ) (l : Ledger) : Ledger :=
  if p.isRunning then
    match happening with
    | .turn .delivery => l.received p.playback.isLive p.delivery.length
    | .turn (.command c) => l.obeyed c
    | _ => l
  else l

variable [Console σ]

def bookAll : List (Nanoseconds × Happening) → Player σ → Ledger → Ledger
  | [], _, l => l
  | (now, happening) :: rest, p, l => bookAll rest (p.happen now happening) (p.book happening l)

/-- A player has not acknowledged too much, and as long as it runs its account is in order. -/
structure Solvent (l : Ledger) (p : Player (Traced σ)) : Prop where
  acknowledged_le : p.playback.console.acknowledged ≤ l.credit
  credited : p.isRunning = true → p.playback.Credited l

namespace Solvent

variable {l : Ledger} {p : Player (Traced σ)} {now : Nanoseconds}

omit [Console σ] in
theorem of_credited (h : p.playback.Credited l) : p.Solvent l := ⟨h.acknowledged_le, fun _ => h⟩

omit [Console σ] in
theorem finish (ending : Ending) (h : p.Solvent l) : (p.finish ending).Solvent l :=
  ⟨h.acknowledged_le, nofun⟩

omit [Console σ] in
theorem publish (now : Nanoseconds) (h : p.Solvent l) : (p.publish now).Solvent l :=
  ⟨h.acknowledged_le, h.credited⟩

omit [Console σ] in
theorem attempt {action : Playback.Action (Traced σ) Unit}
    (h : Playback.Bills l action p.playback) : (p.attempt action).Solvent l := by
  unfold Player.attempt
  split
  · rename_i q hq
    exact of_credited (p := { p with playback := q }) (h.of_ok hq)
  · rename_i f q hq
    exact ⟨h.of_error hq, nofun⟩

theorem beginTurn (now : Nanoseconds) (h : p.playback.Credited l) :
    (p.beginTurn now).Solvent l := by
  have ha : (p.attempt (Playback.drain now)).Solvent l := attempt (.drain now h)
  unfold Player.beginTurn
  dsimp only
  split
  · split
    · exact ha.publish now
    · exact (ha.publish now).finish _
  · exact ha

theorem handle {action : Playback.Action (Traced σ) Unit}
    (h : Playback.Bills l action p.playback) : (p.handle now action).Solvent l := by
  have ha : (p.attempt action).Solvent l := attempt h
  unfold Player.handle
  dsimp only
  split
  · rename_i hr
    exact beginTurn now (ha.credited hr)
  · exact ha

theorem obey {c : Command} (hr : p.isRunning = true)
    (h : Playback.Bills l (Playback.carryOut now c) p.playback) :
    (p.obey now c).2.Solvent l := by
  have ha : (p.attempt (Playback.carryOut now c)).Solvent l := attempt h
  unfold Player.obey
  rw [if_pos hr]
  dsimp only
  split
  · rename_i hrun
    dsimp only
    split
    · exact (ha.publish now).finish _
    · exact beginTurn now (ha.credited hrun)
  · exact ha

theorem receive (h : p.playback.Credited l) :
    (p.receive now).Solvent (l.received p.playback.isLive p.delivery.length) := by
  have hnone : l.received p.playback.isLive 0 = l := by
    simp [Ledger.received]
  have hend (feed : InboundQueue) : ({ p with feed := feed.dropReceiver }.handle now
      (Playback.carryOut now .setDisconnected)).Solvent l :=
    handle (p := { p with feed := feed.dropReceiver })
      (.carryOut (c := .setDisconnected) nofun now h)
  unfold Player.receive delivery
  obtain ⟨found, feed⟩ := p.feed.receive
  cases found with
  | pending => exact hnone.symm ▸ of_credited h
  | closed => exact hnone.symm ▸ hend feed
  | item inbound =>
    cases inbound with
    | events batch => exact handle (p := { p with feed }) (.takeBatch now batch h)
    | disconnected => exact hnone.symm ▸ hend feed

theorem happen {happening : Happening} (hh : ∀ events, happening ≠ .turn (.command (.load events)))
    (h : p.Solvent l) : (p.happen now happening).Solvent (p.book happening l) := by
  cases hr : p.isRunning with
  | true =>
    have hc := h.credited hr
    unfold book
    rw [if_pos hr]
    cases happening with
    | sent item =>
      dsimp only [Player.happen]
      split
      · exact of_credited hc
      · exact h
    | left => exact of_credited (p := { p with feed := p.feed.dropSource }) hc
    | turn input =>
      dsimp only [Player.happen]
      unfold turn
      rw [if_pos hr]
      cases input with
      | command c => exact obey hr (.carryOut (fun events he => hh events (by rw [he])) now hc)
      | timer => exact handle (.step now hc)
      | delivery => exact receive hc
  | false =>
    -- A player that has ended does nothing any more.
    have hsame : (p.happen now happening).playback = p.playback ∧
        (p.happen now happening).isRunning = false := by
      cases happening with
      | sent item =>
        dsimp only [Player.happen]
        split <;> exact ⟨rfl, hr⟩
      | left => exact ⟨rfl, hr⟩
      | turn input => simp [Player.happen, turn, hr]
    unfold book
    rw [hr]
    exact ⟨hsame.1 ▸ h.acknowledged_le, fun hrun => by simp [hsame.2] at hrun⟩

theorem happenAll {happenings : List (Nanoseconds × Happening)}
    (hh : ∀ h ∈ happenings, ∀ events, h.2 ≠ .turn (.command (.load events)))
    (h : p.Solvent l) : (p.happenAll happenings).Solvent (p.bookAll happenings l) := by
  induction happenings generalizing p l with
  | nil => exact h
  | cons first rest ih =>
    exact ih (fun h hm => hh h (by simp [hm])) (h.happen (hh first (by simp)))

end Solvent

theorem reopened_bookAll {happenings : List (Nanoseconds × Happening)}
    (hh : ∀ h ∈ happenings, h.2 ≠ .turn (.command .setLive)) (p : Player σ) (l : Ledger) :
    (p.bookAll happenings l).reopened = l.reopened := by
  induction happenings generalizing p l with
  | nil => rfl
  | cons first rest ih =>
    obtain ⟨now, happening⟩ := first
    have hfirst : (p.book happening l).reopened = l.reopened := by
      unfold book
      split
      · cases happening with
        | turn input =>
          cases input with
          | command c =>
            cases c with
            | setLive => exact absurd rfl (hh _ List.mem_cons_self)
            | _ => rfl
          | _ => rfl
        | _ => rfl
      · rfl
    exact (ih (fun h hm => hh h (by simp [hm])) _ _).trans hfirst

variable {s : σ} {config : Config} {playback : Playback (Traced σ)} {feed : InboundQueue}
  {start : Nanoseconds} {begun player : Player (Traced σ)}
  {happenings : List (Nanoseconds × Happening)} {l : Ledger}

theorem beginTurn_solvent (hc : Playback.create? ⟨s, []⟩ config = .ok playback)
    (hb : begun = .live start feed playback ∨ begun = .download start feed playback) :
    (begun.beginTurn start).Solvent {} := by
  have hcredited : begun.playback.Credited {} := by
    obtain ⟨speed, -, rfl⟩ := Playback.create_eq hc
    rcases hb with rfl | rfl
    · exact ⟨Nat.le_refl 0, Nat.le_refl 0, Nat.le_refl 0, fun _ => rfl⟩
    · exact ⟨Nat.le_refl 0, Nat.le_refl 0, Nat.le_refl 0, fun _ => rfl⟩
  exact .beginTurn start hcredited

/-- A player follows or downloads a session, and anything may happen to it except that events are
loaded past the feed. It acknowledges no more events than the feed has delivered and, once more,
those that had been acknowledged on receipt when a command made the session live. If no command does
that, it acknowledges no more events than the feed has delivered. -/
theorem acknowledged_le_delivered (hc : Playback.create? ⟨s, []⟩ config = .ok playback)
    (hb : begun = .live start feed playback ∨ begun = .download start feed playback)
    (hh : ∀ h ∈ happenings, ∀ events, h.2 ≠ .turn (.command (.load events)))
    (hp : player = (begun.beginTurn start).happenAll happenings)
    (hl : l = (begun.beginTurn start).bookAll happenings {}) :
    player.playback.console.acknowledged ≤ l.delivered + l.reopened ∧
      ((∀ h ∈ happenings, h.2 ≠ .turn (.command .setLive)) →
        player.playback.console.acknowledged ≤ l.delivered) := by
  have hsolvent : player.Solvent l := by
    rw [hp, hl]
    exact (beginTurn_solvent hc hb).happenAll hh
  have hle : player.playback.console.acknowledged ≤ l.delivered + l.reopened :=
    hsolvent.acknowledged_le
  refine ⟨hle, fun hnone => ?_⟩
  have hreopened : l.reopened = 0 := by
    rw [hl]
    exact reopened_bookAll hnone _ {}
  rwa [hreopened] at hle

def continuedRun : List (Nanoseconds × Happening) := [
  (0, .turn (.command .play)), (1, .sent (.events [.incoming 0 [97]])), (1, .turn .delivery),
  (2, .sent (.events [.incoming 5 [98], .stop 9])), (2, .turn .delivery),
  (3, .sent (.events [.incoming 12 [99]])), (3, .turn .delivery)]

/-- Two events are acknowledged when they are played, the last one on receipt. -/
theorem acknowledged_le_delivered_continuedRun :
    ∃ (playback : Playback (Traced Transcript)) (begun player : Player (Traced Transcript))
      (l : Ledger), Playback.create? ⟨Playback.counting, []⟩ {} = .ok playback ∧
      (begun = .live 0 {} playback ∨ begun = .download 0 {} playback) ∧
      (∀ h ∈ continuedRun, ∀ events, h.2 ≠ .turn (.command (.load events))) ∧
      player = (begun.beginTurn 0).happenAll continuedRun ∧
      l = (begun.beginTurn 0).bookAll continuedRun {} ∧
      (∀ h ∈ continuedRun, h.2 ≠ .turn (.command .setLive)) ∧
      player.playback.console.acknowledged ≤ l.delivered ∧
      player.playback.console.acknowledged = 3 ∧ l.delivered = 4 := by
  let playback : Playback (Traced Transcript) :=
    { config := {}, console := ⟨Playback.counting, []⟩, speed := Binary64.ofInt 1 }
  let begun : Player (Traced Transcript) := .live 0 {} playback
  let player := (begun.beginTurn 0).happenAll continuedRun
  let l := (begun.beginTurn 0).bookAll continuedRun {}
  have hc : Playback.create? ⟨Playback.counting, []⟩ {} = .ok playback :=
    Playback.create_default _
  have hh : ∀ h ∈ continuedRun, ∀ events, h.2 ≠ .turn (.command (.load events)) := by
    simp [continuedRun]
  have hnone : ∀ h ∈ continuedRun, h.2 ≠ .turn (.command .setLive) := by
    simp [continuedRun]
  obtain ⟨-, hle⟩ := acknowledged_le_delivered hc (.inl rfl) hh (rfl : player = _) (rfl : l = _)
  exact ⟨playback, begun, player, l, hc, .inl rfl, hh, rfl, rfl, hnone, hle hnone,
    by decide +kernel, by decide +kernel⟩

def madeLiveRun : List (Nanoseconds × Happening) := [
  (0, .sent (.events [.incoming 0 [97]])), (0, .turn .delivery),
  (1, .turn (.command .setLive)), (2, .turn (.command .play))]

/-- The event is acknowledged on receipt and once more when it is played. -/
theorem acknowledged_twice :
    ∃ (playback : Playback (Traced Transcript)) (begun player : Player (Traced Transcript))
      (l : Ledger), Playback.create? ⟨Playback.counting, []⟩ {} = .ok playback ∧
      begun = .download 0 {} playback ∧
      (∀ h ∈ madeLiveRun, ∀ events, h.2 ≠ .turn (.command (.load events))) ∧
      player = (begun.beginTurn 0).happenAll madeLiveRun ∧
      l = (begun.beginTurn 0).bookAll madeLiveRun {} ∧ player.isRunning = true ∧
      l.delivered = 1 ∧ player.playback.console.acknowledged = 2 := by
  refine ⟨_, _, _, _, Playback.create_default _, rfl, by simp [madeLiveRun], rfl, rfl, ?_⟩
  decide +kernel

end Player
end SessionPlayback
