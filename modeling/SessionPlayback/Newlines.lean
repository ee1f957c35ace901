/-!
Line ends of server output. A terminal in raw mode needs a carriage return before each line feed,
so one is put in wherever the output has a bare line feed.
-/

namespace SessionPlayback.Newlines

def carriageReturn : UInt8 := 13

def lineFeed : UInt8 := 10

/-- Puts a carriage return before each line feed that does not follow one; `afterReturn` says
whether the byte before the data was a carriage return. -/
def normalizeFrom (afterReturn : Bool) : List UInt8 → List UInt8
  | [] => []
  | byte :: rest =>
    let written := if byte = lineFeed ∧ !afterReturn then [carriageReturn, byte] else [byte]
    written ++ normalizeFrom (byte == carriageReturn) rest

/-- The bytes of one event with every line feed after a carriage return. The event before it is
not looked at. -/
def normalize (data : List UInt8) : List UInt8 := normalizeFrom false data

end SessionPlayback.Newlines
