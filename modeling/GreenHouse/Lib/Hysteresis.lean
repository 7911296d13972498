import GreenHouse.Lib.Mealy
import Mathlib.Order.Lattice

/-!
# The hysteresis automaton

Two thresholds `off < on` and a level: a value that reaches `on` switches on, one that falls to
`off` switches off, and in between the level stays. The two lemmas say which inputs keep the level
constant along a run.
-/

namespace Hysteresis

variable {α : Type*} [LinearOrder α]

def next (off on : α) (level : Bool) (x : α) : Bool :=
  if on ≤ x then true else if x ≤ off then false else level

/-- The automaton; its output is the level after each value. -/
def machine (off on : α) : Mealy Bool α Bool where
  step level x := (next off on level x, next off on level x)

variable {off on : α}

theorem next_false_eq_false_iff {x : α} : next off on false x = false ↔ x < on := by
  unfold next
  by_cases h : on ≤ x
  · simp [h]
  · simp [h, not_le.1 h]

theorem next_false_eq_true_iff {x : α} : next off on false x = true ↔ on ≤ x := by
  unfold next
  by_cases h : on ≤ x <;> simp [h]

theorem next_true_eq_true_iff (hlt : off < on) {x : α} : next off on true x = true ↔ off < x := by
  unfold next
  by_cases h : on ≤ x
  · simp [h, lt_of_lt_of_le hlt h]
  · by_cases h' : x ≤ off <;> simp [h, h', not_le.1, not_lt.2]

/-- The level stays off exactly when no value reaches the upper threshold. -/
theorem run_false_iff (xs : List α) :
    (∀ b ∈ (machine off on).run false xs, b = false) ↔ ∀ x ∈ xs, x < on := by
  induction xs with
  | nil => simp
  | cons x xs ih =>
    rw [Mealy.run_cons, List.forall_mem_cons, List.forall_mem_cons]
    show next off on false x = false ∧ _ ↔ _
    rw [next_false_eq_false_iff]
    refine and_congr_right fun hx => ?_
    show (∀ b ∈ (machine off on).run (next off on false x) xs, _) ↔ _
    rw [next_false_eq_false_iff.2 hx, ih]

/-- A level that is on stays on exactly when no value falls to the lower threshold. -/
theorem run_true_iff (hlt : off < on) (xs : List α) :
    (∀ b ∈ (machine off on).run true xs, b = true) ↔ ∀ x ∈ xs, off < x := by
  induction xs with
  | nil => simp
  | cons x xs ih =>
    rw [Mealy.run_cons, List.forall_mem_cons, List.forall_mem_cons]
    show next off on true x = true ∧ _ ↔ _
    rw [next_true_eq_true_iff hlt]
    refine and_congr_right fun hx => ?_
    show (∀ b ∈ (machine off on).run (next off on true x) xs, _) ↔ _
    rw [(next_true_eq_true_iff hlt).2 hx, ih]

/-- From off, the level is on all along exactly when the first value switches on and none falls to
the lower threshold. -/
theorem run_false_all_true_iff (hlt : off < on) (xs : List α) :
    (∀ b ∈ (machine off on).run false xs, b = true) ↔
      (∀ x ∈ xs.head?, on ≤ x) ∧ ∀ x ∈ xs, off < x := by
  cases xs with
  | nil => simp
  | cons x xs =>
    have hfirst : (∀ y ∈ (x :: xs).head?, on ≤ y) ↔ on ≤ x := by simp
    rw [Mealy.run_cons, List.forall_mem_cons, List.forall_mem_cons, hfirst]
    show next off on false x = true ∧ _ ↔ _
    rw [next_false_eq_true_iff]
    refine and_congr_right fun hx => ?_
    show (∀ b ∈ (machine off on).run (next off on false x) xs, _) ↔ _
    rw [next_false_eq_true_iff.2 hx, run_true_iff hlt]
    exact ⟨fun h => ⟨lt_of_lt_of_le hlt hx, h⟩, fun h => h.2⟩

end Hysteresis
