import SessionPlayback.Playback.Basic

/-!
What is known about a session is what its events told last. A field is the last value that is
present, so an absent value erases nothing, and the terminal type is that of the last request that
opened a terminal.
-/

namespace SessionPlayback

namespace Event

def sessionStart? (e : Event) : Option SessionStart :=
  match e.kind with
  | .start s => some s
  | _ => none

def windowResize? (e : Event) : Option WindowResize :=
  match e.kind with
  | .resize r => some r
  | _ => none

def opening? (e : Event) : Option TerminalType :=
  match e.kind with
  | .request r =>
    match r.purpose with
    | .exec => some .exec
    | .terminal => some .interactive
    | .other => none
  | _ => none

end Event

def lastPresent {α : Type} (tell : Event → Option α) (events : List Event) : Option α :=
  (events.filterMap tell).getLast?

theorem lastPresent_concat {α : Type} (tell : Event → Option α) (events : List Event)
    (e : Event) : lastPresent tell (events ++ [e]) = (tell e).or (lastPresent tell events) := by
  cases h : tell e <;> simp [lastPresent, h]

namespace Metadata

/-- Every field that events can fill holds the last value that is present. -/
structure Tells (m : Metadata) (events : List Event) : Prop where
  clientHost : m.clientHost = lastPresent (·.sessionStart?.bind (·.clientHost)) events
  serverHost : m.serverHost = lastPresent (·.sessionStart?.bind (·.serverHost)) events
  username : m.username = lastPresent (·.sessionStart?.bind (·.username)) events
  key : m.key = lastPresent (·.sessionStart?.bind (·.key)) events
  startTime : m.startTime = lastPresent (·.sessionStart?.bind (·.startTime)) events
  rows : m.rows = lastPresent (·.windowResize?.map (·.rows)) events
  cols : m.cols = lastPresent (·.windowResize?.map (·.cols)) events
  terminalType : m.terminalType = lastPresent (·.opening?) events

/-- The mode alone tells nothing. -/
theorem modeOnly_tells (m : Metadata) : m.modeOnly.Tells [] :=
  ⟨rfl, rfl, rfl, rfl, rfl, rfl, rfl, rfl⟩

/-- Each field takes what the event tells about it, if anything. -/
theorem after_eq (m : Metadata) (e : Event) : m.after e =
    { m with
      clientHost := (e.sessionStart?.bind (·.clientHost)).or m.clientHost
      serverHost := (e.sessionStart?.bind (·.serverHost)).or m.serverHost
      username := (e.sessionStart?.bind (·.username)).or m.username
      key := (e.sessionStart?.bind (·.key)).or m.key
      startTime := (e.sessionStart?.bind (·.startTime)).or m.startTime
      rows := (e.windowResize?.map (·.rows)).or m.rows
      cols := (e.windowResize?.map (·.cols)).or m.cols
      terminalType := e.opening?.or m.terminalType } := by
  unfold after Event.sessionStart? Event.windowResize? Event.opening?
  cases e.kind with
  | start s => rfl
  | resize r => rfl
  | message m => rfl
  | stop => rfl
  | request r =>
    dsimp only
    cases r.purpose <;> rfl
  | unknown => rfl

@[simp] theorem after_live (m : Metadata) (e : Event) : (m.after e).live = m.live := by
  rw [after_eq]

@[simp] theorem after_feed (m : Metadata) (e : Event) : (m.after e).feed = m.feed := by
  rw [after_eq]

theorem foldl_after_live (events : List Event) (m : Metadata) :
    (events.foldl Metadata.after m).live = m.live := by
  induction events generalizing m with
  | nil => rfl
  | cons e events ih => rw [List.foldl_cons, ih, after_live]

theorem foldl_after_feed (events : List Event) (m : Metadata) :
    (events.foldl Metadata.after m).feed = m.feed := by
  induction events generalizing m with
  | nil => rfl
  | cons e events ih => rw [List.foldl_cons, ih, after_feed]

theorem Tells.after {m : Metadata} {events : List Event} (h : m.Tells events) (e : Event) :
    (m.after e).Tells (events ++ [e]) := by
  rw [after_eq]
  constructor <;> rw [lastPresent_concat]
  · rw [h.clientHost]
  · rw [h.serverHost]
  · rw [h.username]
  · rw [h.key]
  · rw [h.startTime]
  · rw [h.rows]
  · rw [h.cols]
  · rw [h.terminalType]

theorem Tells.foldl_after {m : Metadata} {before : List Event} (h : m.Tells before)
    (events : List Event) : (events.foldl Metadata.after m).Tells (before ++ events) := by
  induction events generalizing m before with
  | nil => simpa using h
  | cons e events ih => simpa using ih (h.after e)

/-- The mode is not something that events tell. -/
theorem Tells.withMode {m : Metadata} {events : List Event} (h : m.Tells events) (live : Bool)
    (feed : FeedKind) : ({ m with live, feed } : Metadata).Tells events :=
  ⟨h.clientHost, h.serverHost, h.username, h.key, h.startTime, h.rows, h.cols, h.terminalType⟩

def told (live : Bool) (feed : FeedKind) (events : List Event) : Metadata where
  clientHost := lastPresent (·.sessionStart?.bind (·.clientHost)) events
  serverHost := lastPresent (·.sessionStart?.bind (·.serverHost)) events
  username := lastPresent (·.sessionStart?.bind (·.username)) events
  key := lastPresent (·.sessionStart?.bind (·.key)) events
  startTime := lastPresent (·.sessionStart?.bind (·.startTime)) events
  rows := lastPresent (·.windowResize?.map (·.rows)) events
  cols := lastPresent (·.windowResize?.map (·.cols)) events
  terminalType := lastPresent (·.opening?) events
  live := live
  feed := feed

theorem Tells.eq_told {m : Metadata} {events : List Event} (h : m.Tells events) :
    m = told m.live m.feed events := by
  cases m
  simp only [told, Metadata.mk.injEq, and_true]
  exact ⟨h.clientHost, h.serverHost, h.username, h.key, h.startTime, h.rows, h.cols,
    h.terminalType⟩

/-- What the events told and the mode are all that is known. -/
theorem Tells.unique {m n : Metadata} {events : List Event} (hm : m.Tells events)
    (hn : n.Tells events) (hl : m.live = n.live) (hf : m.feed = n.feed) : m = n := by
  have h := hm.eq_told
  rw [hl, hf] at h
  exact h.trans hn.eq_told.symm

end Metadata
end SessionPlayback
