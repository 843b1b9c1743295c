import Mathlib

/-!
# Apportionment

A total is divided among weights: every part first gets its share rounded down, and what the
rounding lost is handed out again, one to each part from the front. The parts sum to the total.
-/

namespace Bifurcation.Apportion

/-- The shares rounded down, of a total over weights that sum to `whole`. -/
def floors (total whole : Int) (weights : List Int) : List Int :=
  weights.map fun w => total * w / whole

/-- One more for each part from the front, as long as something remains. -/
def handOut : Int → List Int → List Int
  | _, [] => []
  | remainder, part :: parts =>
    if remainder = 0 then part :: parts else (part + 1) :: handOut (remainder - 1) parts

section Floors

variable {total whole : Int} {weights : List Int}

/-- Rounding loses less than one for each part. -/
theorem floors_bounds (total : Int) (weights : List Int) (hwhole : 0 < whole) :
    whole * (floors total whole weights).sum ≤ total * weights.sum ∧
      total * weights.sum ≤ whole * ((floors total whole weights).sum + weights.length) := by
  induction weights with
  | nil => simp [floors]
  | cons w ws ih =>
    have hlow := Int.mul_ediv_self_le (x := total * w) hwhole.ne'
    have hhigh := Int.lt_mul_ediv_self_add (x := total * w) hwhole
    simp only [floors, List.map_cons, List.sum_cons, List.length_cons] at ih ⊢
    push_cast
    constructor
    · calc whole * (total * w / whole + (ws.map fun w => total * w / whole).sum)
          = whole * (total * w / whole) + whole * (ws.map fun w => total * w / whole).sum := by ring
        _ ≤ total * w + total * ws.sum := by omega
        _ = total * (w + ws.sum) := by ring
    · calc total * (w + ws.sum)
          = total * w + total * ws.sum := by ring
        _ ≤ (whole * (total * w / whole) + whole) +
            whole * ((ws.map fun w => total * w / whole).sum + ws.length) := by omega
        _ = whole * (total * w / whole + (ws.map fun w => total * w / whole).sum +
            (ws.length + 1)) := by ring

/-- What is left for handing out is at most one for each part. -/
theorem remainder_bounds (total : Int) (hwhole : 0 < whole) (hsum : weights.sum = whole) :
    0 ≤ total - (floors total whole weights).sum ∧
      total - (floors total whole weights).sum ≤ weights.length := by
  obtain ⟨hlow, hhigh⟩ := floors_bounds total weights hwhole
  rw [hsum, mul_comm total] at hlow hhigh
  have hle := le_of_mul_le_mul_left hlow hwhole
  have hge := le_of_mul_le_mul_left hhigh hwhole
  omega

end Floors

section HandOut

variable {remainder : Int} {parts : List Int}

/-- A remainder of at most one for each part is handed out in full. -/
theorem sum_handOut (hlow : 0 ≤ remainder) (hhigh : remainder ≤ parts.length) :
    (handOut remainder parts).sum = parts.sum + remainder := by
  induction parts generalizing remainder with
  | nil =>
    rw [List.length_nil] at hhigh
    rw [handOut, List.sum_nil]
    omega
  | cons p ps ih =>
    rw [List.length_cons] at hhigh
    push_cast at hhigh
    rw [handOut]
    by_cases hzero : remainder = 0
    · rw [if_pos hzero, hzero, add_zero]
    · rw [if_neg hzero, List.sum_cons, List.sum_cons, ih (by omega) (by omega)]
      omega

end HandOut

end Bifurcation.Apportion
