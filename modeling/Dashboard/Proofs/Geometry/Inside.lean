import Dashboard.Geometry.Stack
import Dashboard.Proofs.Number.Halves
/-!
# Inside of a box

The anchor points of a box lie in the box, and two stacked lines that fit into a box lie in it as one block. A
middle that falls between two pixels goes to the one farther from zero, on either side of zero, and still stays
between the edges. Edges past the range of pixels move to its end, and the points at them do so alike.
-/

namespace Dashboard

open Number Binary64

namespace Pixel

theorem toInt_clamp (i : Int) : (clamp i).toInt = max (-2147483648) (min i 2147483647) := by
  have hlow : Int32.minValue.toInt = -2147483648 := by decide
  have hhigh : Int32.maxValue.toInt = 2147483647 := by decide
  unfold clamp Int32.ofIntClamp
  split_ifs with hl hr
  · rw [Int32.toInt_ofIntLE]
    omega
  · omega
  · omega

theorem clamp_mono {i j : Int} (h : i ≤ j) : clamp i ≤ clamp j := by
  rw [Int32.le_iff_toInt_le, toInt_clamp, toInt_clamp]
  omega

theorem clamp_of_inRange {i : Int} (hlow : -2147483648 ≤ i) (hhigh : i ≤ 2147483647) : (clamp i).toInt = i := by
  rw [toInt_clamp]
  omega

/-- The middle of a stretch is no farther than its ends, whichever way a half is rounded. -/
theorem half_between (low : Int) {extent : Int} (h : 0 ≤ extent) :
    low ≤ half (2 * low + extent) ∧ half (2 * low + extent) ≤ low + extent := by
  have hhalf := two_mul_half (2 * low + extent)
  split_ifs at hhalf <;> omega

/-- The two parts of a stretch differ by one at most. -/
theorem half_halfway (low extent : Int) :
    |(half (2 * low + extent) - low) - (low + extent - half (2 * low + extent))| ≤ 1 := by
  have hhalf := two_mul_half (2 * low + extent)
  rw [abs_le]
  split_ifs at hhalf <;> omega

end Pixel

/-! ## Anchor points -/

namespace FlexAlign

/-- The point of an axis between an edge and the edge that lies `extent` further. -/
def point : FlexAlign → Pixel → Pixel → Pixel
  | .start, edge, _ => edge
  | .center, edge, extent => Rect.middle edge extent
  | .finish, edge, extent => Pixel.add edge extent

/-- How far the point is from the first edge, before it is rounded. -/
def distance : FlexAlign → Pixel → Binary64
  | .start, _ => .zero false
  | .center, extent => extent.toBinary64.div (.ofNat 2)
  | .finish, extent => extent.toBinary64

/-- A pixel at which an axis is anchored. It is the one nearest to the sum of an edge and a distance, it lies
between the edges, and it is halfway unless an edge is cut off. -/
structure Anchors (a : FlexAlign) (edge extent far p : Pixel) : Prop where
  nearest : p = .ofBinary64 (edge.toBinary64.add (a.distance extent))
  after : edge ≤ p
  before : p ≤ far
  start : a = .start → p = edge
  finish : a = .finish → p = far
  halfway : a = .center → edge.toInt + extent.toInt ≤ Int32.maxValue.toInt →
    |2 * (p.toInt - edge.toInt) - 2 * (far.toInt - p.toInt)| ≤ 2

/-- Twice that distance is a whole number. -/
def doubled : FlexAlign → Pixel → Int
  | .start, _ => 0
  | .center, extent => extent.toInt
  | .finish, extent => 2 * extent.toInt

theorem isHalf_distance (a : FlexAlign) (extent : Pixel) : IsHalf (a.distance extent) (a.doubled extent) := by
  have hlow := extent.le_toInt
  have hhigh := extent.toInt_lt
  have hpow : twoTo 53 = 9007199254740992 := by decide
  cases a with
  | start => exact isHalf_ofInt (i := 0) (by decide)
  | center => exact (Pixel.isHalf_toBinary64 extent).halve (by omega)
  | finish => exact Pixel.isHalf_toBinary64 extent

theorem natAbs_doubled_le (a : FlexAlign) (extent : Pixel) : (a.doubled extent).natAbs ≤ twoTo 52 := by
  have hlow := extent.le_toInt
  have hhigh := extent.toInt_lt
  have hpow : twoTo 52 = 4503599627370496 := by decide
  cases a <;> simp only [doubled] <;> omega

/-- Rounding the sum of an edge and a distance never meets a number that is not exact. -/
theorem point_eq_ofBinary64 (a : FlexAlign) (edge extent : Pixel) :
    a.point edge extent = .ofBinary64 (edge.toBinary64.add (a.distance extent)) := by
  rw [Pixel.ofBinary64_add edge (a.isHalf_distance extent) (a.natAbs_doubled_le extent)]
  cases a with
  | start =>
    rw [doubled, Int.add_zero, Pixel.half_two_mul, Pixel.clamp_toInt]
    rfl
  | center => rfl
  | finish =>
    rw [doubled, ← Int.mul_add, Pixel.half_two_mul]
    rfl

theorem middle_between (edge : Pixel) {extent : Pixel} (h : 0 ≤ extent) :
    edge ≤ Rect.middle edge extent ∧ Rect.middle edge extent ≤ Pixel.add edge extent := by
  obtain ⟨hafter, hbefore⟩ := Pixel.half_between edge.toInt (Int32.le_iff_toInt_le.mp h)
  refine ⟨?_, Pixel.clamp_mono hbefore⟩
  calc edge = Pixel.clamp edge.toInt := (Pixel.clamp_toInt edge).symm
    _ ≤ Rect.middle edge extent := Pixel.clamp_mono hafter

theorem middle_halfway {edge extent : Pixel} (h : 0 ≤ extent)
    (hfar : edge.toInt + extent.toInt ≤ Int32.maxValue.toInt) :
    |2 * ((Rect.middle edge extent).toInt - edge.toInt) -
      2 * ((Pixel.add edge extent).toInt - (Rect.middle edge extent).toInt)| ≤ 2 := by
  have hmax : Int32.maxValue.toInt = 2147483647 := by decide
  have hedge := edge.le_toInt
  obtain ⟨hafter, hbefore⟩ := Pixel.half_between edge.toInt (Int32.le_iff_toInt_le.mp h)
  have hmiddle : (Rect.middle edge extent).toInt = Pixel.half (2 * edge.toInt + extent.toInt) :=
    Pixel.clamp_of_inRange (by omega) (by omega)
  have hend : (Pixel.add edge extent).toInt = edge.toInt + extent.toInt := Pixel.clamp_of_inRange (by omega) (by omega)
  have hparts := abs_le.mp (Pixel.half_halfway edge.toInt extent.toInt)
  rw [hmiddle, hend, abs_le]
  omega

theorem anchors_point (a : FlexAlign) (edge : Pixel) {extent : Pixel} (h : 0 ≤ extent) :
    a.Anchors edge extent (Pixel.add edge extent) (a.point edge extent) := by
  obtain ⟨hafter, hbefore⟩ := middle_between edge h
  have hbetween : edge ≤ Pixel.add edge extent := Int32.le_trans hafter hbefore
  cases a with
  | start =>
    exact ⟨point_eq_ofBinary64 .start edge extent, Int32.le_refl edge, hbetween, fun _ => rfl, nofun, nofun⟩
  | center =>
    exact ⟨point_eq_ofBinary64 .center edge extent, hafter, hbefore, nofun, nofun, fun _ => middle_halfway h⟩
  | finish =>
    exact ⟨point_eq_ofBinary64 .finish edge extent, hbetween, Int32.le_refl _, nofun, fun _ => rfl, nofun⟩

end FlexAlign

theorem HAlign.point_eq (h : HAlign) (edge extent : Pixel) : h.point edge extent = h.flex.point edge extent := by
  cases h <;> rfl

theorem VAlign.point_eq (v : VAlign) (edge extent : Pixel) : v.point edge extent = v.flex.point edge extent := by
  cases v <;> rfl

/-- The anchor point of an alignment lies in the box on both axes, at the edge that the alignment names or halfway
between two edges. -/
theorem Alignment.anchorPoint_inside (a : Alignment) (r : Rect) (hwidth : 0 ≤ r.width) (hheight : 0 ≤ r.height) :
    a.horizontal.flex.Anchors r.x r.width r.right (a.anchorPoint r).1 ∧
      a.vertical.flex.Anchors r.y r.height r.bottom (a.anchorPoint r).2 := by
  rw [anchorPoint, HAlign.point_eq, VAlign.point_eq]
  exact ⟨FlexAlign.anchors_point _ r.x hwidth, FlexAlign.anchors_point _ r.y hheight⟩

/-- A box with a right edge past the range and an odd height across zero. -/
theorem Alignment.anchorPoint_inside_cut :
    let r : Rect := ⟨2147483000, -40, 1001, 31⟩
    (0 ≤ r.width ∧ 0 ≤ r.height ∧ r.right = Int32.maxValue) ∧
      HAlign.center.flex.Anchors r.x r.width r.right 2147483501 ∧
      VAlign.center.flex.Anchors r.y r.height r.bottom (-25) := by
  refine ⟨by decide, ?_⟩
  exact anchorPoint_inside ⟨.center, .center⟩ ⟨2147483000, -40, 1001, 31⟩ (by decide) (by decide)

/-! ## Stacked lines -/

namespace StackedLines

def slackAbove (s : StackedLines) (r : Rect) : Int := s.firstY.toInt - r.y.toInt

def slackBelow (s : StackedLines) (r : Rect) : Int := r.bottom.toInt - (s.firstY.toInt + s.blockHeight.toInt)

/-- Where the slack of a block goes. -/
def Balanced : VAlign → Int → Int → Prop
  | .top, above, _ => above = 0
  | .center, above, below => |above - below| ≤ 1
  | .bottom, _, below => below = 0

/-- Two lines with a gap of two pixels between them that lie in a box as one block. The top of a centered block is
the pixel nearest to the top of the box and half of the height that is left. -/
structure IsBlockIn (s : StackedLines) (r : Rect) (vertical : VAlign) (first second : Pixel) : Prop where
  blockHeight : s.blockHeight.toInt = first.toInt + second.toInt + 2
  secondY : s.secondY.toInt = s.firstY.toInt + first.toInt + 2
  nearest : vertical = .center → s.firstY = .ofBinary64
    (r.y.toBinary64.add ((r.height.toBinary64.sub s.blockHeight.toBinary64).div (.ofNat 2)))
  top : r.y.toInt ≤ s.firstY.toInt
  bottom : s.firstY.toInt + s.blockHeight.toInt ≤ r.bottom.toInt
  slack : Balanced vertical (s.slackAbove r) (s.slackBelow r)

variable {r : Rect} {block : Pixel}

/-- A size and the gap behind it are added exactly as long as both end within the range of pixels. -/
theorem toInt_add_gap {start size : Pixel} (hsize : 0 ≤ size.toInt)
    (h : start.toInt + size.toInt + 2 ≤ Int32.maxValue.toInt) :
    (Pixel.add (Pixel.add start size) gap).toInt = start.toInt + size.toInt + 2 := by
  have hmax : Int32.maxValue.toInt = 2147483647 := by decide
  have hgap : gap.toInt = 2 := by decide
  have hstart := start.le_toInt
  have hsum : (Pixel.add start size).toInt = start.toInt + size.toInt :=
    Pixel.clamp_of_inRange (by omega) (by omega)
  rw [Pixel.add, Pixel.clamp_of_inRange, hsum, hgap] <;> omega

theorem blockTop_center (r : Rect) (block : Pixel) : blockTop r block .center = .ofBinary64
    (r.y.toBinary64.add ((r.height.toBinary64.sub block.toBinary64).div (.ofNat 2))) := by
  have hheight := r.height.le_toInt
  have hheight' := r.height.toInt_lt
  have hblock := block.le_toInt
  have hblock' := block.toInt_lt
  have hpow : twoTo 52 = 4503599627370496 := by decide
  have hpow' : twoTo 53 = 9007199254740992 := by decide
  have hleft : IsHalf (r.height.toBinary64.sub block.toBinary64) (2 * (r.height.toInt - block.toInt)) := by
    rw [Int.mul_sub]
    exact (Pixel.isHalf_toBinary64 r.height).sub (Pixel.isHalf_toBinary64 block) (by omega)
  rw [Pixel.ofBinary64_add r.y (hleft.halve (by omega)) (by omega), ← Int.add_sub_assoc]
  rfl

/-- A block that is not higher than its box stays inside, with its slack where the alignment puts it. -/
theorem blockTop_inside (hblock : 0 ≤ block.toInt) (hfits : block.toInt ≤ r.height.toInt)
    (hbottom : r.y.toInt + r.height.toInt ≤ Int32.maxValue.toInt) (vertical : VAlign) :
    let top := (blockTop r block vertical).toInt
    r.y.toInt ≤ top ∧ top + block.toInt ≤ r.bottom.toInt ∧
      Balanced vertical (top - r.y.toInt) (r.bottom.toInt - (top + block.toInt)) := by
  have hmax : Int32.maxValue.toInt = 2147483647 := by decide
  have hy := r.y.le_toInt
  have hend : r.bottom.toInt = r.y.toInt + r.height.toInt := Pixel.clamp_of_inRange (by omega) (by omega)
  cases vertical with
  | top =>
    refine ⟨Int.le_refl _, ?_, Int.sub_self _⟩
    rw [hend]
    exact Int.add_le_add_left hfits _
  | center =>
    obtain ⟨hafter, hbefore⟩ := Pixel.half_between r.y.toInt (Int.sub_nonneg_of_le hfits)
    have htop : (blockTop r block .center).toInt = Pixel.half (2 * r.y.toInt + (r.height.toInt - block.toInt)) := by
      rw [blockTop, Int.add_sub_assoc]
      exact Pixel.clamp_of_inRange (by omega) (by omega)
    have hparts := abs_le.mp (Pixel.half_halfway r.y.toInt (r.height.toInt - block.toInt))
    simp only [htop, hend, Balanced, abs_le]
    omega
  | bottom =>
    have htop : (blockTop r block .bottom).toInt = r.bottom.toInt - block.toInt :=
      Pixel.clamp_of_inRange (by omega) (by omega)
    simp only [htop, Balanced]
    omega

/-- Two lines that fit into a box with the gap between them are placed inside of it as one block. At the top there
is no slack above the block, at the bottom there is none below it, and in the center both differ by a pixel at most. -/
theorem place_isBlockIn (r : Rect) (vertical : VAlign) (first second : Pixel) (hfirst : 0 ≤ first) (hsecond : 0 ≤ second)
    (hfits : first.toInt + second.toInt + 2 ≤ r.height.toInt)
    (hbottom : r.y.toInt + r.height.toInt ≤ Int32.maxValue.toInt) :
    (place r vertical first second).IsBlockIn r vertical first second := by
  have hfirst : 0 ≤ first.toInt := Int32.le_iff_toInt_le.mp hfirst
  have hsecond : 0 ≤ second.toInt := Int32.le_iff_toInt_le.mp hsecond
  have hheight : r.height.toInt ≤ Int32.maxValue.toInt := Int.le_of_lt_add_one r.height.toInt_lt
  have hend : r.bottom.toInt ≤ Int32.maxValue.toInt := Int.le_of_lt_add_one r.bottom.toInt_lt
  have hblock : (place r vertical first second).blockHeight.toInt = first.toInt + second.toInt + 2 :=
    toInt_add_gap hsecond (hfits.trans hheight)
  obtain ⟨hafter, hbefore, hslack⟩ := blockTop_inside (by omega) (hblock.le.trans hfits) hbottom vertical
  have hinside : (place r vertical first second).firstY.toInt + (place r vertical first second).blockHeight.toInt ≤
      r.bottom.toInt := hbefore
  refine ⟨hblock, toInt_add_gap hfirst ?_, ?_, hafter, hinside, hslack⟩
  · -- the second line starts before the block ends, and so within the range
    change (place r vertical first second).firstY.toInt + first.toInt + 2 ≤ Int32.maxValue.toInt
    omega
  · rintro rfl
    exact blockTop_center r _

/-- An odd height is left in a box across zero, so that one pixel more stays below the block. -/
theorem place_isBlockIn_odd :
    let r : Rect := ⟨0, -60, 100, 79⟩
    ((0 : Pixel) ≤ 28 ∧ (0 : Pixel) ≤ 16 ∧ (28 : Pixel).toInt + (16 : Pixel).toInt + 2 ≤ r.height.toInt ∧
      r.y.toInt + r.height.toInt ≤ Int32.maxValue.toInt) ∧
      IsBlockIn ⟨-44, -14, 46⟩ r .center 28 16 :=
  ⟨by decide, place_isBlockIn ⟨0, -60, 100, 79⟩ .center 28 16 (by decide) (by decide) (by decide) (by decide)⟩

end StackedLines

end Dashboard
