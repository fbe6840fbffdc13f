import Mathlib.Algebra.Order.Ring.Defs
import Mathlib.Tactic.Linarith
import Mathlib.Data.List.Pairwise

/-! Rectangles with sides along the axes, the second axis downwards: where they overlap, what
lies within what, and rectangles set one beside the other. -/
namespace Rects

structure Rect (K : Type) where
  x : K
  y : K
  width : K
  height : K

variable {K : Type} [CommRing K] [LinearOrder K]

namespace Rect

def right (r : Rect K) : K := r.x + r.width

def bottom (r : Rect K) : K := r.y + r.height

def shift (dx dy : K) (r : Rect K) : Rect K := { r with x := dx + r.x, y := dy + r.y }

/-- The two have an inner point in common. -/
def Overlap (a b : Rect K) : Prop :=
  ∃ x y, (a.x < x ∧ x < a.right ∧ a.y < y ∧ y < a.bottom) ∧ b.x < x ∧ x < b.right ∧ b.y < y ∧ y < b.bottom

/-- One lies to a side of the other. -/
def Apart (a b : Rect K) : Prop := a.right ≤ b.x ∨ b.right ≤ a.x ∨ a.bottom ≤ b.y ∨ b.bottom ≤ a.y

def Within (a b : Rect K) : Prop := b.x ≤ a.x ∧ b.y ≤ a.y ∧ a.right ≤ b.right ∧ a.bottom ≤ b.bottom

variable {a b c : Rect K} {dx dy : K}

theorem apartOverlap (apart : Apart a b) : ¬Overlap a b := by
  rintro ⟨x,y,inA,inB⟩
  rcases apart with left | right | above | below
  · exact absurd (inA.2.1.trans_le left) (not_lt.mpr inB.1.le)
  · exact absurd (inB.2.1.trans_le right) (not_lt.mpr inA.1.le)
  · exact absurd (inA.2.2.2.trans_le above) (not_lt.mpr inB.2.2.1.le)
  · exact absurd (inB.2.2.2.trans_le below) (not_lt.mpr inA.2.2.1.le)

theorem apartSymm (apart : Apart a b) : Apart b a := by
  rcases apart with left | right | above | below
  · exact .inr (.inl left)
  · exact .inl right
  · exact .inr (.inr (.inr above))
  · exact .inr (.inr (.inl below))

@[simp] theorem shiftRight : (a.shift dx dy).right = dx + a.right := by simp [shift,right,add_assoc]

@[simp] theorem shiftBottom : (a.shift dx dy).bottom = dy + a.bottom := by simp [shift,bottom,add_assoc]

theorem shiftApart [IsStrictOrderedRing K] (apart : Apart a b) : Apart (a.shift dx dy) (b.shift dx dy) := by
  simpa [Apart,shift,right,bottom,add_assoc] using apart

theorem withinTrans (ab : Within a b) (bc : Within b c) : Within a c :=
  ⟨bc.1.trans ab.1,bc.2.1.trans ab.2.1,ab.2.2.1.trans bc.2.2.1,ab.2.2.2.trans bc.2.2.2⟩

theorem apartWithin {p q : Rect K} (inP : Within a p) (inQ : Within b q) (apart : Apart p q) : Apart a b := by
  rcases apart with left | right | above | below
  · exact .inl (inP.2.2.1.trans (left.trans inQ.1))
  · exact .inr (.inl (inQ.2.2.1.trans (right.trans inP.1)))
  · exact .inr (.inr (.inl (inP.2.2.2.trans (above.trans inQ.2.1))))
  · exact .inr (.inr (.inr (inQ.2.2.2.trans (below.trans inP.2.1))))

theorem shiftWithin [IsStrictOrderedRing K] (within : Within a ⟨0,0,b.width,b.height⟩) : Within (a.shift b.x b.y) b := by
  obtain ⟨left,top,right_,bottom_⟩ := within
  simp only [right,bottom,zero_add] at left top right_ bottom_
  refine ⟨?_,?_,?_,?_⟩ <;> simp only [shiftRight,shiftBottom,shift,right,bottom] <;> linarith

end Rect

end Rects
