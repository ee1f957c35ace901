import SessionPlayback.Binary64
import SessionPlayback.Bounds

/-!
Sizes of a terminal: its grid of cells and the pixels that the grid takes.
-/

namespace SessionPlayback

structure Geometry where
  rows : UInt32
  cols : UInt32
  width : UInt32
  height : UInt32
  deriving DecidableEq, Repr

/-- The size of one cell in pixels. -/
structure CellMetrics where
  width : Binary64
  height : Binary64
  deriving DecidableEq, Repr

namespace CellMetrics

/-- Pixels that `count` cells of a size take: one more than their sum, the fraction dropped. -/
def pixels (size : Binary64) (count : UInt32) : UInt32 :=
  ((Binary64.ofNat count.toNat * size + 1).toNatBounded uint32Max).toUInt32

def geometry (cell : CellMetrics) (rows cols : UInt32) : Geometry where
  rows
  cols
  width := pixels cell.width cols
  height := pixels cell.height rows

end CellMetrics

end SessionPlayback
