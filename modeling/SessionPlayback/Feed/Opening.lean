/-!
What a viewer sends to a recorder to open a session.
-/

namespace SessionPlayback.Feed

structure Opening where
  key : String
  /-- Viewers that are not the owner of the session know a secret. -/
  secret : Option String := none
  deriving DecidableEq, Repr

/-- The text frames to send, in order. -/
def Opening.frames (o : Opening) : List String :=
  match o.secret with
  | none => ["get", o.key]
  | some secret => ["viewer-get", secret, o.key]

end SessionPlayback.Feed
