import Mathlib.Algebra.Group.Int.Defs
import Mathlib.Algebra.Group.Nat.Defs

/-!
# Fixed-width integers of C

A C integer is its value, an `Int`; an operation that can leave the range of its type is followed
by the reduction to that type (`i32`, `u32`, `i8`, `u8`). On a value that is in range the reduction
does nothing (`i32_eq`), so in-range arithmetic is arithmetic of `Int` and goes to `omega`.
-/

namespace CInt

/-- Reduction to a 32-bit `int`, two's complement. -/
def i32 (x : Int) : Int := x.bmod (2 ^ 32)

def u32 (x : Int) : Int := x % 2 ^ 32

def i8 (x : Int) : Int := x.bmod (2 ^ 8)

def u8 (x : Int) : Int := x % 2 ^ 8

def InI32 (x : Int) : Prop := -2 ^ 31 ≤ x ∧ x < 2 ^ 31

def InI8 (x : Int) : Prop := -2 ^ 7 ≤ x ∧ x < 2 ^ 7

instance (x : Int) : Decidable (InI32 x) := inferInstanceAs (Decidable (_ ∧ _))

instance (x : Int) : Decidable (InI8 x) := inferInstanceAs (Decidable (_ ∧ _))

theorem i32_eq {x : Int} (h : InI32 x) : i32 x = x := by
  unfold InI32 at h
  exact Int.bmod_eq_of_le (by omega) (by omega)

theorem i8_eq {x : Int} (h : InI8 x) : i8 x = x := by
  unfold InI8 at h
  exact Int.bmod_eq_of_le (by omega) (by omega)

theorem InI8.inI32 {x : Int} (h : InI8 x) : InI32 x := by
  unfold InI8 at h
  unfold InI32
  omega

theorem inI8_i8 (x : Int) : InI8 (i8 x) :=
  ⟨Int.le_bmod (by decide), Int.bmod_lt (by decide)⟩

theorem inI32_i32 (x : Int) : InI32 (i32 x) :=
  ⟨Int.le_bmod (by decide), Int.bmod_lt (by decide)⟩

/-- The difference of two readings of a 32-bit counter, taken as an `int`, depends on the
readings modulo `2 ^ 32` only. -/
theorem i32_sub_of_emod {a b : Int} : i32 (i32 a - i32 b) = i32 (a - b) := by
  unfold i32
  rw [Int.bmod_sub_bmod, Int.sub_bmod_bmod]

theorem i32_add_i32 (a b : Int) : i32 (i32 a + b) = i32 (a + b) := Int.bmod_add_bmod

theorem u32_i32 (x : Int) : u32 (i32 x) = u32 x := Int.bmod_emod

theorem u32_u32 (x : Int) : u32 (u32 x) = u32 x := Int.emod_emod_of_dvd x (Int.dvd_refl _)

theorem i32_u32 (x : Int) : i32 (u32 x) = i32 x := by
  unfold i32 u32
  exact Int.emod_bmod x (2 ^ 32)

theorem i32_sub_u32 (a b : Int) : i32 (a - u32 b) = i32 (a - b) := by
  unfold i32 u32
  exact Int.sub_emod_bmod a (2 ^ 32)

theorem u32_sub (a b : Int) : u32 (u32 a - b) = u32 (a - b) := Int.emod_sub_emod a (2 ^ 32) b

end CInt
