import SessionPlayback.Playback.Output

/-!
Switching between a live session and a replay, and starting over.
-/

namespace SessionPlayback.Playback

variable {σ : Type}

/-- The remote side is gone: what has been received is played out as a replay, and nothing is
acknowledged any more. -/
def setDisconnected (p : Playback σ) (now : Nanoseconds) : Playback σ :=
  let p := { p with session := p.session.setDisconnected, pendingAcks := 0 }
  if p.paused || p.timer.isSome then p
  else if p.index < p.events.length then { p with timer := some ⟨now, 0⟩ }
  else { p with paused := true }

/-- Drops all events and everything known, and gives the terminal its initial size. -/
def reset [Console σ] : Action σ Unit := do
  modify fun p =>
    { p with timer := none, savedDelay := 0, events := [], index := 0, paused := true }
  let p ← get
  match p.config.clampSpeed? p.config.speed with
  | none => throw .speedBounds
  | some speed =>
    set { p with
      speed, session := {}, held := {}, stopped := false, pendingAcks := 0, acked := 0 }
    perform .reset
    perform .clear
    perform (.resize p.config.initialGeometry)

end SessionPlayback.Playback
