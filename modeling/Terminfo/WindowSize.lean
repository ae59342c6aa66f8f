set_option autoImplicit false

namespace Terminfo

structure WindowRecord where
  row : UInt16
  col : UInt16
  xpixel : UInt16
  ypixel : UInt16
  deriving DecidableEq, Repr

structure WindowSize where
  rows : UInt16
  cols : UInt16
  pixelWidth : UInt16 := 0
  pixelHeight : UInt16 := 0
  deriving DecidableEq, Repr

namespace WindowSize

def toRecord (s : WindowSize) : WindowRecord where
  row := s.rows
  col := s.cols
  xpixel := s.pixelWidth
  ypixel := s.pixelHeight

def ofRecord (r : WindowRecord) : WindowSize where
  rows := r.row
  cols := r.col
  pixelWidth := r.xpixel
  pixelHeight := r.ypixel

theorem ofRecord_toRecord (s : WindowSize) : ofRecord s.toRecord = s := rfl

theorem toRecord_ofRecord (r : WindowRecord) : (ofRecord r).toRecord = r := rfl

end WindowSize

end Terminfo
