import Dashboard.Geometry.Alignment
/-!
# Two stacked lines

Two lines of text with a gap of two pixels between them are placed in a box as one block.
-/

namespace Dashboard

structure StackedLines where
  firstY : Pixel
  secondY : Pixel
  blockHeight : Pixel
deriving DecidableEq, Repr

namespace StackedLines

def gap : Pixel := 2

def blockTop (r : Rect) (block : Pixel) : VAlign → Pixel
  | .top => r.y
  | .center => Pixel.clamp (Pixel.half (2 * r.y.toInt + r.height.toInt - block.toInt))
  | .bottom => Pixel.sub r.bottom block

def place (r : Rect) (vertical : VAlign) (first second : Pixel) : StackedLines :=
  let block := Pixel.add (Pixel.add first second) gap
  let top := blockTop r block vertical
  ⟨top, Pixel.add (Pixel.add top first) gap, block⟩

end StackedLines

end Dashboard
