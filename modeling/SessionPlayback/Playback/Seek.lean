import SessionPlayback.Playback.Schedule

/-!
Moving the cursor without waiting. A seek forward applies only the events on the way; a seek back
starts over on an empty terminal of the initial size. Either way the output goes out in one flush
and the playback is paused afterwards. A seek never acknowledges anything.
-/

namespace SessionPlayback.Playback

variable {σ : Type} [Console σ]

/-- Empties the surfaces and forgets what events did, except that the terminal has to take its
initial size. -/
def rewind : Action σ Unit := do
  perform .reset
  perform .clear
  modify fun p =>
    { p with
      held := { resize := some p.config.initialGeometry }
      session := p.session.modeOnly
      stopped := false }

/-- Applies a run of events without waiting; the end of the session stops a playback that was a
replay when the seek began. -/
def absorbAll (live : Bool) (events : List Event) (p : Playback σ) : Playback σ :=
  events.foldl
    (fun p e => { p.absorb e with stopped := p.stopped || (e.isStop && !live) }) p

/-- Shows the state right after the event `target`, paused. Nothing happens if there is no such
event or if it is the event that was applied last. -/
def moveTo (now : Nanoseconds) (target : Nat) : Action σ Unit := do
  let p ← get
  if p.events.length ≤ target ∨ p.index = target + 1 then pure ()
  else
    set { p.pause now with timer := none }
    if target < p.index then rewind
    let first := if target < p.index then 0 else p.index
    modify (absorbAll p.isLive ((p.events.take (target + 1)).drop first))
    flush
    modify fun p =>
      let p := { p with index := target + 1 }
      { p with savedDelay := p.gap target (target + 1) }

def next (now : Nanoseconds) : Action σ Unit := do moveTo now (← get).index

/-- One event back. There is no way back to before the first event. -/
def previous (now : Nanoseconds) : Action σ Unit := do
  let p ← get
  if 2 ≤ p.index then moveTo now (p.index - 2) else pure ()

end SessionPlayback.Playback
