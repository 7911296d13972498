import Mathlib.Data.Nat.Init

/-!
# Loops

A loop is a step function: a step goes on in a next state (`inl`) or leaves the loop with a value
(`inr`). `Ends step s n a` says that the loop entered in `s` leaves with `a` at its step `n`. There
is no fuel: what a proof of `Ends` says of a loop, it says of the loop as written.

`search p f` looks at one position after another until one meets `p`. It ends exactly if such a
position is still to come (`exists_ends_search_iff`), and it ends there (`Ends.of_search`), at the
first one (`ends_search_iff`).
-/

variable {σ α : Type*}

/-- The loop entered in `s` leaves with `a` at its `n`-th step. -/
inductive Ends (step : σ → σ ⊕ α) : σ → Nat → α → Prop where
  | leave {s : σ} {a : α} (h : step s = .inr a) : Ends step s 1 a
  | again {s s' : σ} {n : Nat} {a : α} (h : step s = .inl s') (rest : Ends step s' n a) :
      Ends step s (n + 1) a

/-- Look at position `k`: leave with its value, or go on with the next. -/
def search (p : Nat → Prop) [DecidablePred p] (f : Nat → α) (k : Nat) : Nat ⊕ α :=
  if p k then .inr (f k) else .inl (k + 1)

section Search

variable {p : Nat → Prop} [DecidablePred p] {f : Nat → α} {k : Nat}

/-- A search leaves with the value of a position that meets the condition. -/
theorem Ends.of_search {n : Nat} {a : α} (h : Ends (search p f) k n a) :
    ∃ j, k ≤ j ∧ p j ∧ a = f j := by
  induction h with
  | leave h =>
    rename_i k a
    unfold search at h
    split at h
    · next hp => exact ⟨k, Nat.le_refl _, hp, (Sum.inr.inj h).symm⟩
    · cases h
  | again h _ ih =>
    obtain ⟨j, hj, hp, ha⟩ := ih
    unfold search at h
    split at h
    · cases h
    · cases h
      exact ⟨j, Nat.le_of_succ_le hj, hp, ha⟩

theorem exists_ends_search_iff : (∃ n a, Ends (search p f) k n a) ↔ ∃ j, k ≤ j ∧ p j := by
  constructor
  · rintro ⟨n, a, h⟩
    obtain ⟨j, hj, hp, -⟩ := h.of_search
    exact ⟨j, hj, hp⟩
  · rintro ⟨j, hj, hp⟩
    -- backwards from the position that is still to come
    induction hj using Nat.decreasingInduction with
    | self => exact ⟨1, f j, .leave (if_pos hp)⟩
    | of_succ k _ ih =>
      by_cases hk : p k
      · exact ⟨1, f k, .leave (if_pos hk)⟩
      · obtain ⟨n, a, h⟩ := ih
        exact ⟨n + 1, a, .again (if_neg hk) h⟩

/-- A search leaves with the value of the first position that meets the condition. -/
theorem ends_search_iff {a : α} : (∃ n, Ends (search p f) k n a) ↔
    ∃ j, k ≤ j ∧ p j ∧ (∀ i, k ≤ i → i < j → ¬ p i) ∧ a = f j := by
  constructor
  · rintro ⟨n, h⟩
    induction h with
    | leave h =>
      rename_i k a
      unfold search at h
      split at h
      · next hp =>
        exact ⟨k, Nat.le_refl _, hp, fun i hki hik => absurd hik (Nat.not_lt.2 hki),
          (Sum.inr.inj h).symm⟩
      · cases h
    | again h _ ih =>
      rename_i k s' n a _
      obtain ⟨j, hj, hp, hfirst, ha⟩ := ih
      unfold search at h
      split at h
      · cases h
      · next hk =>
        cases h
        refine ⟨j, Nat.le_of_succ_le hj, hp, fun i hki hij => ?_, ha⟩
        rcases Nat.eq_or_lt_of_le hki with rfl | hlt
        · exact hk
        · exact hfirst i hlt hij
  · rintro ⟨j, hj, hp, hfirst, rfl⟩
    induction hj using Nat.decreasingInduction with
    | self => exact ⟨1, .leave (if_pos hp)⟩
    | of_succ k hk ih =>
      obtain ⟨n, h⟩ := ih fun i hki => hfirst i (Nat.le_of_succ_le hki)
      exact ⟨n + 1, .again (if_neg (hfirst k (Nat.le_refl _) hk)) h⟩

end Search
