import SessionPlayback.Playback.Basic

/-!
What a playback shows of itself.
-/

namespace SessionPlayback

structure Status where
  eventIndex : Nat := 0
  eventCount : Nat := 0
  timeToNextEvent : Nanoseconds := 0
  speed : Binary64 := 1
  state : PlaybackState := .paused
  live : Bool := false
  feed : FeedKind := .old
  terminalType : Option TerminalType := none
  clientHost : Option String := none
  serverHost : Option String := none
  deriving DecidableEq, Repr

namespace Status

def isEnded (s : Status) : Bool := s.state = .ended

def isPaused (s : Status) : Bool := s.state = .paused

def isPlaying (s : Status) : Bool := s.state = .playing

def line (s : Status) : String :=
  "From: " ++ s.clientHost.getD "" ++ ";  To: " ++ s.serverHost.getD "" ++ "; (" ++ s.state.name ++
    ")"

end Status

def Playback.status {σ : Type} (p : Playback σ) (now : Nanoseconds) : Status where
  eventIndex := p.index
  eventCount := p.events.length
  timeToNextEvent := p.timeToNextEvent now
  speed := p.speed
  state := p.state
  live := p.session.live
  feed := p.session.feed
  terminalType := p.session.terminalType
  clientHost := p.session.clientHost
  serverHost := p.session.serverHost

end SessionPlayback
