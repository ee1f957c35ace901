/-!
The ranges of numbers of a fixed number of bits, with and without sign. What a file, a variable or
an option gives as a number has to lie in one of them.
-/

namespace SessionPlayback

def uint16Max : Nat := 0xFFFF

def uint32Max : Nat := 0xFFFFFFFF

def uint64Max : Nat := 0xFFFFFFFFFFFFFFFF

def int32Min : Int := -0x80000000

def int32Max : Int := 0x7FFFFFFF

def int64Min : Int := -0x8000000000000000

def int64Max : Int := 0x7FFFFFFFFFFFFFFF

end SessionPlayback
