import SessionPlayback.Error

/-!
A keystroke log kept in a file. Writing happens at an offset that the file carries besides its
bytes; cutting the file does not move it, so clearing has to move it as well.
-/

namespace SessionPlayback

structure OpenFile where
  bytes : List UInt8 := []
  /-- Where the next write begins. -/
  offset : Nat := 0
  deriving DecidableEq, Repr

namespace OpenFile

/-- The same file with a new length; what is added is zero. -/
def setLength (f : OpenFile) (n : Nat) : OpenFile :=
  { f with bytes := f.bytes.take n ++ List.replicate (n - f.bytes.length) 0 }

/-- Overwrites from the offset on and moves it behind what was written. A gap before the offset is
filled with zeros. -/
def write (f : OpenFile) (data : List UInt8) : OpenFile :=
  if data.isEmpty then f
  else
    let before := f.bytes.take f.offset ++ List.replicate (f.offset - f.bytes.length) 0
    { bytes := before ++ data ++ f.bytes.drop (f.offset + data.length)
      offset := f.offset + data.length }

def rewind (f : OpenFile) : OpenFile := { f with offset := 0 }

end OpenFile

structure LogFile where
  file : OpenFile := {}
  deriving DecidableEq, Repr

namespace LogFile

/-- A log over a file that may have held anything: the file is emptied. -/
def create (old : OpenFile) : LogFile := ⟨(old.setLength 0).rewind⟩

def creationError (path : String) (fault : IoFault) : Error :=
  .ioWhile ("creating keystroke log " ++ path) fault

def append (l : LogFile) (text : String) : LogFile := ⟨l.file.write (Text.utf8 text)⟩

def clear (l : LogFile) : LogFile := ⟨(l.file.setLength 0).rewind⟩

end LogFile

end SessionPlayback
