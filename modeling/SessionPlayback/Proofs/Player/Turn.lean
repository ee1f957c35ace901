import SessionPlayback.Player

/-!
What a turn of a player comes to. A player that runs on has carried something out, has applied what
a live session had waiting, and shows the status that it rests in.
-/

namespace SessionPlayback

inductive Happening where
  /-- The source of the feed sends something. -/
  | sent (item : Inbound)
  /-- The source goes away. -/
  | left
  | turn (input : Player.Input)

namespace Player

variable {σ : Type} {p : Player σ} {now : Nanoseconds}

/-- The beginning of a turn has led here, and the player waits. -/
def rested (now : Nanoseconds) (playback : Playback σ) (p : Player σ) : Player σ :=
  { p with playback, published := playback.status now }

theorem attempt_running {action : Playback.Action σ Unit}
    (h : (p.attempt action).isRunning = true) :
    ∃ q, action.run p.playback = .ok () q ∧ p.attempt action = { p with playback := q } := by
  unfold attempt at h ⊢
  split at h
  · rename_i q hq
    exact ⟨q, hq, rfl⟩
  · cases h

variable [Console σ]

def happen (now : Nanoseconds) (happening : Happening) (p : Player σ) : Player σ :=
  match happening with
  | .sent item =>
    match p.feed.send item with
    | .ok feed => { p with feed }
    | .error _ => p
  | .left => { p with feed := p.feed.dropSource }
  | .turn input => p.turn now input

def happenAll (happenings : List (Nanoseconds × Happening)) (p : Player σ) : Player σ :=
  happenings.foldl (fun p (now, happening) => p.happen now happening) p

theorem beginTurn_running (h : (p.beginTurn now).isRunning = true) :
    ∃ r, (Playback.drain now).run p.playback = .ok () r ∧ p.beginTurn now = p.rested now r := by
  unfold beginTurn at h ⊢
  dsimp only at h ⊢
  split at h
  · rename_i ha
    obtain ⟨r, hr, he⟩ := attempt_running ha
    rw [he] at ha h ⊢
    refine ⟨r, hr, ?_⟩
    rw [if_pos ha]
    split at h
    · rfl
    · cases h
  · contradiction

theorem handle_running {action : Playback.Action σ Unit}
    (h : (p.handle now action).isRunning = true) :
    ∃ q r, action.run p.playback = .ok () q ∧ (Playback.drain now).run q = .ok () r ∧
      p.handle now action = p.rested now r := by
  unfold handle at h ⊢
  dsimp only at h ⊢
  split at h
  · rename_i ha
    obtain ⟨q, hq, he⟩ := attempt_running ha
    rw [he] at ha h ⊢
    obtain ⟨r, hr, hb⟩ := beginTurn_running h
    exact ⟨q, r, hq, hr, by rw [if_pos ha, hb]; rfl⟩
  · contradiction

theorem obey_running {c : Command} (h : (p.obey now c).2.isRunning = true)
    (hp : p.isRunning = true) : c ≠ .shutdown ∧
      ∃ q r, (Playback.carryOut now c).run p.playback = .ok () q ∧
        (Playback.drain now).run q = .ok () r ∧ (p.obey now c).2 = p.rested now r := by
  unfold obey at h ⊢
  rw [if_pos hp] at h ⊢
  dsimp only at h ⊢
  split at h
  · rename_i ha
    obtain ⟨q, hq, he⟩ := attempt_running ha
    rw [he] at ha h ⊢
    rw [if_pos ha]
    -- After a shutdown the player does not run on, although it has obeyed.
    split at h
    · cases h
    · rename_i hc
      obtain ⟨r, hr, hb⟩ := beginTurn_running h
      exact ⟨hc, q, r, hq, hr, by rw [if_neg hc, hb]; rfl⟩
  · contradiction

/-- What a turn comes to after which the player runs on. -/
inductive Turned (now : Nanoseconds) (p : Player σ) : Input → Player σ → Prop where
  | obeyed (c : Command) (q r : Playback σ) (hc : c ≠ .shutdown)
      (hq : (Playback.carryOut now c).run p.playback = .ok () q)
      (hr : (Playback.drain now).run q = .ok () r) : Turned now p (.command c) (p.rested now r)
  | fired (q r : Playback σ) (hq : (Playback.step now).run p.playback = .ok () q)
      (hr : (Playback.drain now).run q = .ok () r) : Turned now p .timer (p.rested now r)
  /-- The feed has nothing yet. -/
  | idle (hf : p.feed.receive.1 = .pending) : Turned now p .delivery p
  | received (batch : List Event) (feed : InboundQueue) (q r : Playback σ)
      (hf : p.feed.receive = (.item (.events batch), feed))
      (hq : (Playback.takeBatch now batch).run p.playback = .ok () q)
      (hr : (Playback.drain now).run q = .ok () r) :
      Turned now p .delivery ({ p with feed }.rested now r)
  /-- The feed has come to its end. -/
  | ended (feed : InboundQueue) (q r : Playback σ)
      (hf : p.feed.receive = (.item .disconnected, feed) ∨ p.feed.receive = (.closed, feed))
      (hq : (Playback.carryOut now .setDisconnected).run p.playback = .ok () q)
      (hr : (Playback.drain now).run q = .ok () r) :
      Turned now p .delivery ({ p with feed := feed.dropReceiver }.rested now r)

theorem receive_running (h : (p.receive now).isRunning = true) :
    Turned now p .delivery (p.receive now) := by
  unfold receive at h ⊢
  split at h
  · rename_i hf
    exact .idle (congrArg Prod.fst hf)
  · rename_i batch feed hf
    obtain ⟨q, r, hq, hr, he⟩ := handle_running h
    rw [he]
    exact .received batch feed q r hf hq hr
  · rename_i item feed hpending hevents hf
    obtain ⟨q, r, hq, hr, he⟩ := handle_running h
    rw [he]
    refine .ended feed q r ?_ hq hr
    cases item with
    | pending => exact (hpending rfl).elim
    | closed => exact .inr hf
    | item inbound =>
      cases inbound with
      | events batch => exact (hevents batch rfl).elim
      | disconnected => exact .inl hf

/-- A player that runs after a turn has run before it. -/
theorem turn_running {input : Input} (h : (p.turn now input).isRunning = true) :
    p.isRunning = true ∧ Turned now p input (p.turn now input) := by
  unfold turn at h ⊢
  split at h
  · rename_i hp
    rw [if_pos hp]
    refine ⟨hp, ?_⟩
    cases input with
    | command c =>
      obtain ⟨hc, q, r, hq, hr, he⟩ := obey_running h hp
      change Turned now p (.command c) (p.obey now c).2
      rw [he]
      exact .obeyed c q r hc hq hr
    | timer =>
      obtain ⟨q, r, hq, hr, he⟩ := handle_running h
      change Turned now p .timer (p.handle now (Playback.step now))
      rw [he]
      exact .fired q r hq hr
    | delivery => exact receive_running h
  · contradiction

/-- Only a player that runs still runs after anything has happened. -/
theorem running_of_happen {happening : Happening}
    (h : (p.happen now happening).isRunning = true) : p.isRunning = true := by
  cases happening with
  | sent item =>
    dsimp only [happen] at h
    split at h
    · exact h
    · exact h
  | left => exact h
  | turn input => exact (turn_running h).1

theorem running_of_happenAll {happenings : List (Nanoseconds × Happening)}
    (h : (p.happenAll happenings).isRunning = true) : p.isRunning = true := by
  induction happenings generalizing p with
  | nil => exact h
  | cons first rest ih => exact running_of_happen (ih h)

end Player
end SessionPlayback
