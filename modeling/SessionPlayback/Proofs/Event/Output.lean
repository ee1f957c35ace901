import SessionPlayback.Proofs.Keystrokes.Written
import SessionPlayback.Proofs.Newlines

/-!
What an event puts out, said of its kind and its payload alone. An incoming message shows its bytes
with every line end written in full, and keys that were pressed and commands are written out as
keystrokes. The output of a playback comes to the same.
-/

namespace SessionPlayback.Event

/-- The bytes that came in with an event. -/
def received? (e : Event) : Option (List UInt8) :=
  match e.kind with
  | .message ⟨.incoming, data⟩ => (decodePayload data).toOption
  | _ => none

def onTerminal (e : Event) : List UInt8 :=
  (e.received?.map fun bytes => Newlines.expand (Newlines.collapse bytes)).getD []

theorem terminalOutput_eq (e : Event) : e.terminalOutput = e.onTerminal := by
  unfold terminalOutput onTerminal received?
  cases e.kind with
  | message m =>
    obtain ⟨direction, data⟩ := m
    cases direction with
    | incoming =>
      cases hd : decodePayload data <;> simp [hd, Except.toOption, Newlines.normalize_eq]
    | _ => simp
  | _ => simp

/-- The bytes of an event that go to the keystroke log: keys that were pressed, a single zero byte
excepted, or a command. -/
def keyBytes? (e : Event) : Option (List UInt8) :=
  match e.kind with
  | .message ⟨.outgoing, data⟩ => (decodePayload data).toOption.filter (· ≠ [0])
  | .request r => if r.purpose = .exec then r.command.toOption else none
  | _ => none

def typed (e : Event) : String := (e.keyBytes?.map Text.ofUtf8Lossy).getD ""

def inLog (e : Event) : String := Keystrokes.escape e.typed

theorem keystrokeOutput_eq (e : Event) : e.keystrokeOutput = e.inLog := by
  unfold keystrokeOutput inLog typed keyBytes?
  cases e.kind with
  | message m =>
    obtain ⟨direction, data⟩ := m
    cases direction with
    | outgoing =>
      cases hd : decodePayload data with
      | ok bytes =>
        by_cases h : bytes = [0]
        · simp [hd, h, Except.toOption, Option.filter_some]
        · simp [hd, h, Except.toOption, Option.filter_some, Keystrokes.escapeBytes]
      | error _ => simp [hd, Except.toOption]
    | _ => simp
  | request r =>
    cases hp : r.purpose with
    | exec => cases hc : r.command <;> simp [hp, hc, Except.toOption, Keystrokes.escapeBytes]
    | _ => simp [hp]
  | _ => simp

theorem flatMap_terminalOutput (events : List Event) :
    events.flatMap terminalOutput = events.flatMap onTerminal :=
  congrArg (events.flatMap ·) (funext terminalOutput_eq)

theorem map_keystrokeOutput (events : List Event) :
    events.map keystrokeOutput = events.map inLog :=
  congrArg (events.map ·) (funext keystrokeOutput_eq)

end SessionPlayback.Event
