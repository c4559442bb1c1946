import Dashboard.Kind.Basic
/-!
# What rectangles and circles share

A shape has a base color that its fill and its outline take unless they have a color of their own.
-/

namespace Dashboard.Kind.Shape

structure Paint where
  fill : Bool
  color : String
  fillOverride : String
  outlineOverride : String
  opacity : UInt8

namespace Paint

def fillColor (p : Paint) : String := Color.effective (some p.fillOverride) p.color

def outlineColor (p : Paint) : String := Color.effective (some p.outlineOverride) p.color

def hint (p : Paint) (dark : Bool) : Hint where
  color := Color.resolve? p.outlineColor .outline dark
  fill := if p.fill then Color.resolve? p.fillColor .fill dark else none

/-- The constants for the interior, if it is painted, and for the outline. -/
def register (p : Paint) (s : Setting) : Emission (Option String × String) := do
  let fill ← if p.fill then Emission.register (Resources.colorConstant? s p.fillColor .fill)
    else pure none
  let outline ← Emission.register (Resources.colorConstant s p.outlineColor .outline)
  return (fill, outline)

/-- The interior of a retained node: its color and its opacity. -/
def background (p : Paint) (s : Setting) : Option String × String :=
  match s.guiColor? p.fillColor .fill with
  | some color => if p.fill then (some color, opacityText p.opacity) else (none, opacityText 0)
  | none => (none, opacityText 0)

def literalFill (p : Paint) (s : Setting) : Option String :=
  if p.fill then s.color? p.fillColor .fill else none

end Paint

/-- An outline of a width: nothing, one statement, or a loop over nested outlines. -/
def outline (b : Block) (width : UInt32) (single nested : String) : Block :=
  if width = 0 then b
  else if width = 1 then b.line single
  else b.loop width.toNat nested

end Dashboard.Kind.Shape
