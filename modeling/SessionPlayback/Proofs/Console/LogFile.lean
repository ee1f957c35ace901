import SessionPlayback.Console.LogFile
import SessionPlayback.Console.Transcript
import SessionPlayback.Proofs.Text.Utf8

/-!
A keystroke log in a file against one in memory. The file carries an offset that cutting it does
not move. Between two calls the offset lies at the end of the file, and so the file has neither a
gap nor a rest of what was cleared.
-/

namespace SessionPlayback

namespace OpenFile

theorem write_at_end {f : OpenFile} (h : f.offset = f.bytes.length) (data : List UInt8) :
    f.write data = ⟨f.bytes ++ data, f.bytes.length + data.length⟩ := by
  obtain ⟨bytes, offset⟩ := f
  obtain rfl : offset = bytes.length := h
  cases data with
  | nil => simp [write]
  | cons byte data => simp [write]

@[simp] theorem setLength_zero_rewind (f : OpenFile) : (f.setLength 0).rewind = ⟨[], 0⟩ := by
  simp [setLength, rewind]

end OpenFile

inductive LogEdit where
  | append (text : String)
  | clear
  deriving DecidableEq, Repr

/-- The texts that were appended and not cleared afterwards, in a row. -/
def LogEdit.remaining : List LogEdit → String
  | [] => ""
  | .append text :: rest => if .clear ∈ rest then remaining rest else text ++ remaining rest
  | .clear :: rest => remaining rest

namespace KeystrokeLog

def edit (l : KeystrokeLog) : LogEdit → KeystrokeLog
  | .append text => l.append text
  | .clear => l.clear

theorem text_foldl_edit (edits : List LogEdit) (l : KeystrokeLog) :
    (edits.foldl edit l).text =
      if .clear ∈ edits then LogEdit.remaining edits else l.text ++ LogEdit.remaining edits := by
  induction edits generalizing l with
  | nil => simp [LogEdit.remaining]
  | cons e edits ih =>
    rw [List.foldl_cons, ih]
    cases e with
    | append text =>
      by_cases hc : LogEdit.clear ∈ edits
      · simp [LogEdit.remaining, hc]
      · simp [LogEdit.remaining, hc, edit, append, String.append_assoc]
    | clear => simp [LogEdit.remaining, edit, clear]

end KeystrokeLog

namespace LogFile

def edit (l : LogFile) : LogEdit → LogFile
  | .append text => l.append text
  | .clear => l.clear

/-- The file holds the text and nothing else, and the next write goes behind it. -/
structure Holds (l : LogFile) (text : String) : Prop where
  bytes_eq : l.file.bytes = Text.utf8 text
  offset_eq : l.file.offset = l.file.bytes.length

variable {l : LogFile} {text : String}

theorem create_holds (old : OpenFile) : (create old).Holds "" := by
  constructor <;> simp [create, Text.utf8]

theorem clear_holds (l : LogFile) : l.clear.Holds "" := by
  constructor <;> simp [clear, Text.utf8]

theorem Holds.append (h : l.Holds text) (more : String) :
    (l.append more).Holds (text ++ more) := by
  constructor
  · rw [LogFile.append, OpenFile.write_at_end h.offset_eq, Text.utf8_append, h.bytes_eq]
  · simp [LogFile.append, OpenFile.write_at_end h.offset_eq]

theorem Holds.edit {m : KeystrokeLog} (h : l.Holds m.text) (e : LogEdit) :
    (l.edit e).Holds (m.edit e).text := by
  cases e with
  | append more => exact h.append more
  | clear => exact clear_holds l

theorem Holds.foldl_edit {m : KeystrokeLog} (h : l.Holds m.text) (edits : List LogEdit) :
    (edits.foldl LogFile.edit l).Holds (edits.foldl KeystrokeLog.edit m).text := by
  induction edits generalizing l m with
  | nil => exact h
  | cons e edits ih => exact ih (h.edit e)

/-- Whatever the file held before, after any number of calls it has exactly the octets of what a
log in memory has after the same calls: of the texts appended since it was last cleared. -/
theorem bytes_eq_memory (old : OpenFile) (edits : List LogEdit) :
    let file := (edits.foldl edit (create old)).file
    let log := edits.foldl KeystrokeLog.edit {}
    file.bytes = Text.utf8 log.text ∧ log.text = LogEdit.remaining edits ∧
      file.offset = file.bytes.length := by
  have h : (edits.foldl edit (create old)).Holds (edits.foldl KeystrokeLog.edit {}).text :=
    Holds.foldl_edit (create_holds old) edits
  refine ⟨h.bytes_eq, ?_, h.offset_eq⟩
  rw [KeystrokeLog.text_foldl_edit]
  split
  · rfl
  · exact String.empty_append

end LogFile

end SessionPlayback
