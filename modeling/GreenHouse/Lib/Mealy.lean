import Mathlib.Data.List.Basic

/-!
# Runs of a machine with outputs

A `Mealy` machine turns a state and an input into the next state and an output. A run is the list of
its outputs. `Along P` says that every step of a run meets `P`, a condition on the state before the
step and the input. The rules below are the ones a proof about runs needs:

* `after_mem_run`: the last state of a run is among the states it puts out;
* `along_of_forall_mem`: a condition on the inputs alone holds along the run;
* `along_of_inv`: an invariant turns a condition on inputs into one on every step;
* `forall_run`: a step lemma under an invariant gives every output of the run;
* `forall_run_iff_of_along`, `forall_run_iff`: if under the invariant an output is good exactly when
  the step meets the condition, the run is good exactly when all its steps meet it;
* `run_eq_of_sim`: a simulation with equal outputs gives equal runs;
* `filterMap_run_filter`: inputs that a simulation does not see can be left out of a run.
-/

/-- A machine with states `σ`, inputs `ι` and outputs `ω`. -/
structure Mealy (σ ι ω : Type*) where
  step : σ → ι → σ × ω

namespace Mealy

variable {σ τ ι ω : Type*}

def run (M : Mealy σ ι ω) : σ → List ι → List ω
  | _, [] => []
  | s, i :: is => (M.step s i).2 :: M.run (M.step s i).1 is

/-- The state at the end of a run. -/
def after (M : Mealy σ ι ω) (s : σ) (is : List ι) : σ := is.foldl (fun s i => (M.step s i).1) s

/-- Every step of the run meets `P`. -/
def Along (M : Mealy σ ι ω) (P : σ → ι → Prop) : σ → List ι → Prop
  | _, [] => True
  | s, i :: is => P s i ∧ M.Along P (M.step s i).1 is

instance instDecidableAlong (M : Mealy σ ι ω) (P : σ → ι → Prop) [∀ s i, Decidable (P s i)] :
    ∀ (s : σ) (is : List ι), Decidable (M.Along P s is)
  | _, [] => isTrue trivial
  | s, i :: is =>
    have := instDecidableAlong M P (M.step s i).1 is
    inferInstanceAs (Decidable (P s i ∧ M.Along P (M.step s i).1 is))

variable {M : Mealy σ ι ω} {N : Mealy τ ι ω}

@[simp] theorem run_nil (s : σ) : M.run s [] = [] := rfl

@[simp] theorem run_cons (s : σ) (i : ι) (is : List ι) :
    M.run s (i :: is) = (M.step s i).2 :: M.run (M.step s i).1 is := rfl

@[simp] theorem length_run (s : σ) (is : List ι) : (M.run s is).length = is.length := by
  induction is generalizing s with
  | nil => rfl
  | cons i is ih => rw [run_cons, List.length_cons, List.length_cons, ih]

@[simp] theorem after_nil (s : σ) : M.after s [] = s := rfl

@[simp] theorem after_cons (s : σ) (i : ι) (is : List ι) :
    M.after s (i :: is) = M.after (M.step s i).1 is := rfl

theorem run_append (s : σ) (is js : List ι) :
    M.run s (is ++ js) = M.run s is ++ M.run (M.after s is) js := by
  induction is generalizing s with
  | nil => rfl
  | cons i is ih => rw [List.cons_append, run_cons, run_cons, ih, after_cons, List.cons_append]

/-- Of a machine that puts out the state it reaches, the last state is an output. -/
theorem after_mem_run {M : Mealy σ ι σ} (h : ∀ s i, (M.step s i).2 = (M.step s i).1) (s : σ)
    (i : ι) (is : List ι) : M.after s (i :: is) ∈ M.run s (i :: is) := by
  induction is generalizing s i with
  | nil =>
    rw [run_cons, h]
    exact List.mem_cons_self
  | cons j is ih =>
    rw [run_cons, after_cons]
    exact List.mem_cons_of_mem _ (ih (M.step s i).1 j)

@[simp] theorem along_nil {P : σ → ι → Prop} (s : σ) : M.Along P s [] := trivial

@[simp] theorem along_cons {P : σ → ι → Prop} (s : σ) (i : ι) (is : List ι) :
    M.Along P s (i :: is) ↔ P s i ∧ M.Along P (M.step s i).1 is := Iff.rfl

/-- An invariant kept by every step turns a condition on the inputs into one on the steps. -/
theorem along_of_inv {I : σ → Prop} {P : σ → ι → Prop}
    (hstep : ∀ s i, I s → I (M.step s i).1) (hP : ∀ s i, I s → P s i) :
    ∀ {s : σ} {is : List ι}, I s → M.Along P s is
  | _, [], _ => trivial
  | s, i :: _, h => ⟨hP s i h, along_of_inv hstep hP (hstep s i h)⟩

theorem along_of_forall_mem {P : ι → Prop} {is : List ι} (h : ∀ i ∈ is, P i) (s : σ) :
    M.Along (fun _ => P) s is := by
  induction is generalizing s with
  | nil => trivial
  | cons i is ih =>
    exact ⟨h i List.mem_cons_self, ih (fun j hj => h j (List.mem_cons_of_mem _ hj)) _⟩

/-- Along a run whose steps meet `P`, an invariant that such steps keep makes every output good. -/
theorem forall_run {I : σ → Prop} {P : σ → ι → Prop} {Q : ω → Prop}
    (hstep : ∀ s i, I s → P s i → I (M.step s i).1 ∧ Q (M.step s i).2) {s : σ} {is : List ι}
    (hs : I s) (h : M.Along P s is) : ∀ o ∈ M.run s is, Q o := by
  induction is generalizing s with
  | nil => intro o ho; cases ho
  | cons i is ih =>
    obtain ⟨hP, hrest⟩ := h
    obtain ⟨hinv, hQ⟩ := hstep s i hs hP
    intro o ho
    rcases List.mem_cons.1 ho with rfl | ho
    · exact hQ
    · exact ih hinv hrest o ho

/-- Where an output is good exactly when its step meets `P`, a run whose steps all meet `L` is good
exactly when they all meet `P`. -/
theorem forall_run_iff_of_along {I : σ → Prop} {L P : σ → ι → Prop} {Q : ω → Prop}
    (hstep : ∀ s i, I s → L s i → P s i → I (M.step s i).1)
    (hQ : ∀ s i, I s → L s i → (Q (M.step s i).2 ↔ P s i)) {s : σ} {is : List ι} (hs : I s)
    (hL : M.Along L s is) : (∀ o ∈ M.run s is, Q o) ↔ M.Along P s is := by
  induction is generalizing s with
  | nil => simp
  | cons i is ih =>
    obtain ⟨hi, hrest⟩ := hL
    rw [run_cons, along_cons, List.forall_mem_cons, hQ s i hs hi]
    refine and_congr_right fun hP => ?_
    exact ih (hstep s i hs hi hP) hrest

theorem forall_run_iff {I : σ → Prop} {P : σ → ι → Prop} {Q : ω → Prop}
    (hstep : ∀ s i, I s → P s i → I (M.step s i).1)
    (hQ : ∀ s i, I s → (Q (M.step s i).2 ↔ P s i)) {s : σ} {is : List ι} (hs : I s) :
    (∀ o ∈ M.run s is, Q o) ↔ M.Along P s is :=
  forall_run_iff_of_along (fun s i h _ => hstep s i h) (fun s i h _ => hQ s i h) hs
    (along_of_forall_mem (P := fun _ => True) (fun _ _ => trivial) s)

/-- A simulation along the steps that meet `P`, with equal outputs, gives equal runs. -/
theorem run_eq_of_sim {R : σ → τ → Prop} {P : σ → ι → Prop}
    (hstep : ∀ s t i, R s t → P s i →
      R (M.step s i).1 (N.step t i).1 ∧ (M.step s i).2 = (N.step t i).2)
    {s : σ} {t : τ} {is : List ι} (hst : R s t) (h : M.Along P s is) :
    M.run s is = N.run t is := by
  induction is generalizing s t with
  | nil => rfl
  | cons i is ih =>
    obtain ⟨hP, hrest⟩ := h
    obtain ⟨hR, hout⟩ := hstep s t i hst hP
    rw [run_cons, run_cons, hout, ih hR hrest]

/-- Inputs that keep a relation on one side alone and whose outputs are not observed can be left out
of a run. -/
theorem filterMap_run_filter {β : Type*} {R : σ → σ → Prop} {keep : ι → Bool} {f : ω → Option β}
    (hkeep : ∀ s t i, keep i = true → R s t →
      R (M.step s i).1 (M.step t i).1 ∧ f (M.step s i).2 = f (M.step t i).2)
    (hdrop : ∀ s t i, keep i = false → R s t → R (M.step s i).1 t ∧ f (M.step s i).2 = none)
    {s t : σ} (hst : R s t) (is : List ι) :
    (M.run s is).filterMap f = (M.run t (is.filter keep)).filterMap f := by
  induction is generalizing s t with
  | nil => rfl
  | cons i is ih =>
    cases hi : keep i with
    | true =>
      obtain ⟨hR, hout⟩ := hkeep s t i hi hst
      rw [List.filter_cons_of_pos hi, run_cons, run_cons, List.filterMap_cons,
        List.filterMap_cons, hout, ih hR]
    | false =>
      obtain ⟨hR, hout⟩ := hdrop s t i hi hst
      rw [List.filter_cons_of_neg (by simp [hi]), run_cons, List.filterMap_cons, hout, ih hR]

end Mealy
