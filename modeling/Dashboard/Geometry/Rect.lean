import Dashboard.Geometry.Pixel
/-!
# Boxes

A box has a corner, a width and a height in pixels. Either may be negative. The far edges stay
within the pixel range.
-/

namespace Dashboard

structure Rect where
  x : Pixel
  y : Pixel
  width : Pixel
  height : Pixel
deriving DecidableEq, Repr

namespace Rect

def right (r : Rect) : Pixel := Pixel.add r.x r.width

def bottom (r : Rect) : Pixel := Pixel.add r.y r.height

/-- The pixel halfway between an edge and the edge that lies `extent` further. -/
def middle (edge extent : Pixel) : Pixel := Pixel.clamp (Pixel.half (2 * edge.toInt + extent.toInt))

/-- The radius of the largest circle around the center that stays inside the box. -/
def innerRadius (r : Rect) : Pixel := Pixel.clamp (Pixel.half (min r.width.toInt r.height.toInt))

end Rect

end Dashboard
