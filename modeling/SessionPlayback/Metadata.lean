import SessionPlayback.Event

/-!
What is known about the session being played. Fields fill in as events are applied: a later value
replaces an earlier one, and an absent value never erases.
-/

namespace SessionPlayback

inductive TerminalType where
  | interactive
  | exec
  deriving DecidableEq, Repr

def TerminalType.name : TerminalType → String
  | .interactive => "pty"
  | .exec => "exec"

inductive FeedKind where
  | live
  | old
  deriving DecidableEq, Repr

def FeedKind.name : FeedKind → String
  | .live => "live"
  | .old => "old"

structure Metadata where
  clientHost : Option String := none
  serverHost : Option String := none
  username : Option String := none
  key : Option String := none
  /-- Seconds since the Unix epoch. -/
  startTime : Option Int64 := none
  rows : Option UInt32 := none
  cols : Option UInt32 := none
  terminalType : Option TerminalType := none
  /-- Whether the remote side is still connected. -/
  live : Bool := false
  feed : FeedKind := .old
  deriving DecidableEq, Repr

namespace Metadata

def mergeStart (m : Metadata) (s : SessionStart) : Metadata :=
  { m with
    clientHost := s.clientHost.or m.clientHost
    serverHost := s.serverHost.or m.serverHost
    username := s.username.or m.username
    key := s.key.or m.key
    startTime := s.startTime.or m.startTime }

def mergeResize (m : Metadata) (r : WindowResize) : Metadata :=
  { m with rows := some r.rows, cols := some r.cols }

def setLive (m : Metadata) : Metadata := { m with live := true, feed := .live }

def setDisconnected (m : Metadata) : Metadata := { m with live := false, feed := .old }

/-- Everything that events told is forgotten, the mode is kept. -/
def modeOnly (m : Metadata) : Metadata := { live := m.live, feed := m.feed }

end Metadata

end SessionPlayback
