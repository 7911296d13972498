import Mathlib.Algebra.Order.Ring.Int
import Mathlib.Tactic.Linarith

/-!
# Windows on a periodic clock

Time is an integer `T`; period `j` starts at `P * j`. In every period that is `enabled` a window
opens `start` after the beginning of the period and lasts for `dur`, possibly into the next one.
A time lies in a window of its own period or of the one before, so membership can be read off the
quotient and the remainder of `T` by `P` (`inWindow_iff`).
-/

namespace Window

/-- `T` lies in the window of some enabled period. -/
def InWindow (P start dur : Int) (enabled : Int → Prop) (T : Int) : Prop :=
  ∃ j, start + P * j ≤ T ∧ T < start + P * j + dur ∧ enabled j

variable {P start dur : Int} {enabled : Int → Prop}

theorem inWindow_iff (hstart : 0 ≤ start ∧ start < P) (hdur : 0 < dur ∧ dur < P) (T : Int) :
    InWindow P start dur enabled T ↔
      (start ≤ T % P ∧ T % P < start + dur ∧ enabled (T / P)) ∨
        (T % P < start + dur - P ∧ enabled (T / P - 1)) := by
  have hP : 0 < P := by omega
  have hT : P * (T / P) + T % P = T := Int.mul_ediv_add_emod T P
  have hr0 : 0 ≤ T % P := Int.emod_nonneg T (by omega)
  have hr1 : T % P < P := Int.emod_lt_of_pos T hP
  constructor
  · rintro ⟨j, hlo, hhi, hen⟩
    -- the period is the current one or the one before
    have hle : j ≤ T / P := by
      have : P * j < P * (T / P + 1) := by linarith
      have := lt_of_mul_lt_mul_left this (by omega)
      omega
    have hge : T / P - 1 ≤ j := by
      have : P * (T / P) < P * (j + 2) := by linarith
      have := lt_of_mul_lt_mul_left this (by omega)
      omega
    rcases (by omega : j = T / P ∨ j = T / P - 1) with rfl | rfl
    · exact Or.inl ⟨by linarith, by linarith, hen⟩
    · exact Or.inr ⟨by linarith, hen⟩
  · rintro (⟨hlo, hhi, hen⟩ | ⟨hhi, hen⟩)
    · exact ⟨T / P, by linarith, by linarith, hen⟩
    · exact ⟨T / P - 1, by linarith, by linarith, hen⟩

end Window
