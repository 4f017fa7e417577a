import Mathlib.Data.Fin.Rev
import Mathlib.Dynamics.PeriodicPts.Defs

/-!
# Pictures that are turned and mirrored

A picture is shown turned by quarter turns, and then mirrored or not (`Picture.turned`). Only the number of quarter turns
modulo four matters (`turned_congr`).
-/

/-- A picture, row by row. -/
@[ext]
structure Picture (α : Type) where
  height : ℕ
  width : ℕ
  pixel : Fin height → Fin width → α

namespace Picture

variable {α : Type}

/-- A quarter turn to the left: the last column becomes the first row. -/
def turnLeft (p : Picture α) : Picture α := ⟨p.width, p.height, fun r c => p.pixel c r.rev⟩

/-- The mirror image, left and right exchanged. -/
def flip (p : Picture α) : Picture α := ⟨p.height, p.width, fun r c => p.pixel r c.rev⟩

theorem isPeriodicPt_turnLeft (p : Picture α) : Function.IsPeriodicPt turnLeft 4 p := by
  show p.turnLeft.turnLeft.turnLeft.turnLeft = p
  simp [turnLeft]

/-- `n` quarter turns to the left, and then the mirror image if it is to be mirrored. -/
def turned (p : Picture α) (n : ℕ) (mirrored : Bool) : Picture α :=
  if mirrored then (turnLeft^[n] p).flip else turnLeft^[n] p

theorem turned_congr (p : Picture α) {n n' : ℕ} (h : n % 4 = n' % 4) (mirrored : Bool) :
    p.turned n mirrored = p.turned n' mirrored := by
  have hiterate : turnLeft^[n] p = turnLeft^[n'] p := by
    rw [← p.isPeriodicPt_turnLeft.iterate_mod_apply n, h, p.isPeriodicPt_turnLeft.iterate_mod_apply n']
  rw [turned, turned, hiterate]

end Picture
