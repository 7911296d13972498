import GreenHouse.Init
import GreenHouse.Lib.Mealy

/-!
# The two coils of a valve (`Control_Drip` from two tasks)

`app_loop` and the MQTT task both call `Control_Drip`, without a lock. Each is a sequence of
commands, each command a call that runs its statements one by one; a step of the system is one
statement of one task.

A call switches the opposite coil off, waits 100 ms, and then raises its own for 50 ms. What the
other task raised during the wait is still up at that moment. The invariant is that a coil is up
only inside a pulse (`Inv`); so both coils of a valve are up exactly after a step that raises
one of them inside a pulse of the other task on the opposite one (`coils_exclusive_iff`).
-/

namespace GreenHouse

namespace Coils

/-! ## The coils of a command -/

/-- The coil a command for drip `num + 1` pulses. The opposite command pulses the other one. -/
def coil (num : Fin 3) (on : Bool) : Pin :=
  if on then dripCloseCtrlPin num else dripOpenCtrlPin num

theorem coil_injective : ∀ {m n : Fin 3} {a b : Bool}, coil m a = coil n b → m = n ∧ a = b := by
  decide

def Quiet (i : Instr) : Prop := ∀ num on level, i ≠ .gpioSetLevel (coil num on) level

instance (i : Instr) : Decidable (Quiet i) :=
  inferInstanceAs (Decidable (∀ num on level, i ≠ .gpioSetLevel (coil num on) level))

theorem Quiet.gpio {i : Instr} (h : Quiet i) (w : World) (num : Fin 3) (on : Bool) :
    (i.exec w).gpio (coil num on) = w.gpio (coil num on) := by
  cases i with
  | gpioSetLevel pin level =>
    have hne : coil num on ≠ pin := by
      rintro rfl
      exact h num on level rfl
    exact Function.update_of_ne hne _ _
  | vTaskDelay ms => rfl
  | setDripState n state => rfl

/-- A command, as far as the coils go: it switches the opposite coil off, raises its own and lowers
it again. -/
theorem prog_eq (num : Fin 3) (on : Bool) : ∃ i₁ i₃ i₅ i₆,
    controlDripProg num on =
      [.gpioSetLevel (coil num (!on)) false, i₁, .gpioSetLevel (coil num on) true, i₃,
        .gpioSetLevel (coil num on) false, i₅, i₆] ∧
      Quiet i₁ ∧ Quiet i₃ ∧ Quiet i₅ ∧ Quiet i₆ := by
  match num, on with
  | 0, true | 1, true | 2, true | 0, false | 1, false | 2, false =>
    exact ⟨_, _, _, _, rfl, by decide, by decide, by decide, by decide⟩

/-! ## The two tasks -/

abbrev Cmd := Fin 3 × Bool

/-- The world and, for each of the two tasks, the commands to go (the first is the current one) and
the next statement of the current one. -/
structure State where
  world : World
  cmds : Bool → List Cmd
  pc : Bool → Nat

/-- One step of task `t`: the next statement of its current call, or the return from it. -/
def State.next (s : State) (t : Bool) : State :=
  match s.cmds t with
  | [] => s
  | (num, on) :: rest =>
    match (controlDripProg num on)[s.pc t]? with
    | some i => { s with world := i.exec s.world, pc := Function.update s.pc t (s.pc t + 1) }
    | none =>
      { s with cmds := Function.update s.cmds t rest, pc := Function.update s.pc t 0 }

/-- The system: an interleaving says which task takes the next step; the output is the world after
it. -/
def system : Mealy State Bool World where
  step s t := (s.next t, (s.next t).world)

def Exclusive (w : World) : Prop :=
  ∀ num, ¬ (w.gpio (dripOpenCtrlPin num) = true ∧ w.gpio (dripCloseCtrlPin num) = true)

def Raises (s : State) (t : Bool) (num : Fin 3) (on : Bool) : Prop :=
  (s.cmds t).head? = some (num, on) ∧ s.pc t = 2

/-- Task `t` is inside its pulse of the command `(num, on)`: it has raised the coil and not lowered
it. -/
def Pulsing (s : State) (t : Bool) (num : Fin 3) (on : Bool) : Prop :=
  (s.cmds t).head? = some (num, on) ∧ (s.pc t = 3 ∨ s.pc t = 4)

/-- The step of task `t` does not raise a coil inside a pulse of the other task on the opposite coil
of the same valve, unless that coil was switched off in the meantime. -/
def Clear (s : State) (t : Bool) : Prop :=
  ∀ num on, Raises s t num on → Pulsing s (!t) num (!on) → s.world.gpio (coil num (!on)) = false

instance (w : World) : Decidable (Exclusive w) := inferInstanceAs (Decidable (∀ _, ¬ (_ ∧ _)))

instance (s : State) (t : Bool) (num : Fin 3) (on : Bool) : Decidable (Raises s t num on) :=
  inferInstanceAs (Decidable (_ ∧ _))

instance (s : State) (t : Bool) (num : Fin 3) (on : Bool) : Decidable (Pulsing s t num on) :=
  inferInstanceAs (Decidable (_ ∧ (_ ∨ _)))

instance (s : State) (t : Bool) : Decidable (Clear s t) :=
  inferInstanceAs (Decidable (∀ num on, Raises s t num on → Pulsing s (!t) num (!on) → _ = _))

/-- A coil that is up is in a pulse, and no valve has both coils up. -/
structure Inv (s : State) : Prop where
  pulse : ∀ num on, s.world.gpio (coil num on) = true → ∃ t, Pulsing s t num on
  exclusive : Exclusive s.world

/-! ## What a step does -/

def State.ran (s : State) (t : Bool) (i : Instr) : State :=
  { s with world := i.exec s.world, pc := Function.update s.pc t (s.pc t + 1) }

/-- A step is idle (no command left, or a return), or it executes a statement of the current call:
one that writes no coil, or one of the three that do. -/
theorem next_cases (s : State) (t : Bool) :
    (((s.next t).world = s.world ∧ (∀ t', t' ≠ t → (s.next t).pc t' = s.pc t') ∧
        ∀ t', t' ≠ t → (s.next t).cmds t' = s.cmds t') ∧ ∀ num on, ¬ Pulsing s t num on) ∨
    ∃ num on, (s.cmds t).head? = some (num, on) ∧ ∃ i, s.next t = s.ran t i ∧
      ((s.pc t = 0 ∧ i = .gpioSetLevel (coil num (!on)) false) ∨
        (s.pc t = 2 ∧ i = .gpioSetLevel (coil num on) true) ∨
        (s.pc t = 4 ∧ i = .gpioSetLevel (coil num on) false) ∨
        (s.pc t ≠ 2 ∧ s.pc t ≠ 4 ∧ Quiet i)) := by
  unfold State.next
  cases hc : s.cmds t with
  | nil =>
    left
    refine ⟨⟨rfl, fun _ _ => rfl, fun _ _ => rfl⟩, fun num on h => ?_⟩
    unfold Pulsing at h
    rw [hc] at h
    exact absurd h.1 (by simp)
  | cons cmd rest =>
    obtain ⟨num, on⟩ := cmd
    obtain ⟨i₁, i₃, i₅, i₆, hprog, h₁, h₃, h₅, h₆⟩ := prog_eq num on
    dsimp only
    rw [hprog]
    match hpc : s.pc t with
    | 0 => exact Or.inr ⟨num, on, rfl, _, by simp [State.ran, hpc], Or.inl ⟨rfl, rfl⟩⟩
    | 1 => exact Or.inr ⟨num, on, rfl, i₁, by simp [State.ran, hpc], by simp [h₁]⟩
    | 2 => exact Or.inr ⟨num, on, rfl, _, by simp [State.ran, hpc], Or.inr (Or.inl ⟨rfl, rfl⟩)⟩
    | 3 => exact Or.inr ⟨num, on, rfl, i₃, by simp [State.ran, hpc], by simp [h₃]⟩
    | 4 =>
      exact Or.inr ⟨num, on, rfl, _, by simp [State.ran, hpc], Or.inr (Or.inr (Or.inl ⟨rfl, rfl⟩))⟩
    | 5 => exact Or.inr ⟨num, on, rfl, i₅, by simp [State.ran, hpc], by simp [h₅]⟩
    | 6 => exact Or.inr ⟨num, on, rfl, i₆, by simp [State.ran, hpc], by simp [h₆]⟩
    | pc + 7 =>
      left
      have hnone : ([.gpioSetLevel (coil num (!on)) false, i₁, .gpioSetLevel (coil num on) true, i₃,
          .gpioSetLevel (coil num on) false, i₅, i₆] : List Instr)[pc + 7]? = none := by simp
      rw [hnone]
      refine ⟨⟨rfl, fun t' h => Function.update_of_ne h _ _,
        fun t' h => Function.update_of_ne h _ _⟩,
        fun n o h => ?_⟩
      have := h.2
      omega

section Step

variable {s : State} {t : Bool}

theorem gpio_setLevel_self (w : World) (pin : Pin) (level : Bool) :
    ((Instr.gpioSetLevel pin level).exec w).gpio pin = level := Function.update_self _ _ _

theorem gpio_setLevel_ne {pin pin' : Pin} (h : pin' ≠ pin) (w : World) (level : Bool) :
    ((Instr.gpioSetLevel pin level).exec w).gpio pin' = w.gpio pin' := Function.update_of_ne h _ _

theorem pulsing_next {t' : Bool} {num : Fin 3} {on : Bool} (h : Pulsing s t' num on) :
    Pulsing (s.next t) t' num on ∨ (s.next t).world.gpio (coil num on) = false := by
  obtain ⟨hhead, hpc⟩ := h
  rcases next_cases s t with ⟨⟨-, hpcs, hcmds⟩, hidle⟩ | ⟨n, o, hcmd, i, hnext, hi⟩
  · have ht : t' ≠ t := by
      rintro rfl
      exact hidle num on ⟨hhead, hpc⟩
    left
    exact ⟨by rw [hcmds t' ht]; exact hhead, by rw [hpcs t' ht]; exact hpc⟩
  · rw [hnext]
    by_cases ht : t' = t
    · subst ht
      obtain ⟨rfl, rfl⟩ : n = num ∧ o = on := by
        rw [hcmd] at hhead
        simpa using hhead
      rcases hi with ⟨h0, -⟩ | ⟨h2, -⟩ | ⟨-, rfl⟩ | ⟨-, h4, -⟩
      · omega
      · omega
      · exact Or.inr (gpio_setLevel_self _ _ _)
      · left
        refine ⟨hhead, Or.inr ?_⟩
        show Function.update s.pc t' (s.pc t' + 1) t' = 4
        rw [Function.update_self]
        omega
    · left
      refine ⟨hhead, ?_⟩
      show Function.update s.pc t (s.pc t + 1) t' = 3 ∨ Function.update s.pc t (s.pc t + 1) t' = 4
      rw [Function.update_of_ne ht]
      exact hpc

/-- A coil that is up after a step was up before, or the step raised it and is now in its pulse. -/
theorem up_next {num : Fin 3} {on : Bool} (h : (s.next t).world.gpio (coil num on) = true) :
    s.world.gpio (coil num on) = true ∨ (Raises s t num on ∧ Pulsing (s.next t) t num on) := by
  rcases next_cases s t with ⟨⟨hw, -, -⟩, -⟩ | ⟨n, o, hcmd, i, hnext, hi⟩
  · rw [hw] at h
    exact Or.inl h
  · rw [hnext] at h ⊢
    -- a statement that lowers a coil leaves every other one as it was
    have hlower : ∀ p, i = .gpioSetLevel p false → s.world.gpio (coil num on) = true := by
      rintro p rfl
      by_cases hp : coil num on = p
      · subst hp
        exact absurd h (by rw [State.ran, gpio_setLevel_self]; decide)
      · rwa [State.ran, gpio_setLevel_ne hp] at h
    rcases hi with ⟨-, hi⟩ | ⟨h2, rfl⟩ | ⟨-, hi⟩ | ⟨-, -, hi⟩
    · exact Or.inl (hlower _ hi)
    · by_cases hp : coil num on = coil n o
      · obtain ⟨rfl, rfl⟩ := coil_injective hp
        refine Or.inr ⟨⟨hcmd, h2⟩, hcmd, Or.inl ?_⟩
        show Function.update s.pc t (s.pc t + 1) t = 3
        rw [Function.update_self, h2]
      · rw [State.ran, gpio_setLevel_ne hp] at h
        exact Or.inl h
    · exact Or.inl (hlower _ hi)
    · rw [State.ran, hi.gpio] at h
      exact Or.inl h

theorem raises_next {num : Fin 3} {on : Bool} (h : Raises s t num on) :
    (s.next t).world.gpio (coil num on) = true ∧
      (s.next t).world.gpio (coil num (!on)) = s.world.gpio (coil num (!on)) := by
  obtain ⟨hhead, hpc⟩ := h
  obtain ⟨i₁, i₃, i₅, i₆, hprog, -⟩ := prog_eq num on
  have hnext : s.next t = s.ran t (.gpioSetLevel (coil num on) true) := by
    cases hc : s.cmds t with
    | nil => rw [hc] at hhead; exact absurd hhead (by simp)
    | cons cmd rest =>
      obtain rfl : cmd = (num, on) := by
        rw [hc] at hhead
        simpa using hhead
      unfold State.next State.ran
      rw [hc]
      dsimp only
      rw [hprog, hpc]
      rfl
  have hne : coil num (!on) ≠ coil num on := fun e => by
    have := (coil_injective e).2
    cases on <;> simp at this
  rw [hnext]
  exact ⟨gpio_setLevel_self _ _ _, gpio_setLevel_ne hne _ _⟩

theorem exclusive_iff (w : World) :
    Exclusive w ↔ ∀ num on, w.gpio (coil num on) = true → w.gpio (coil num (!on)) = false := by
  constructor
  · intro h num on hon
    have hnum := h num
    cases on with
    | true => exact Bool.eq_false_iff.2 fun hoff => hnum ⟨hoff, hon⟩
    | false => exact Bool.eq_false_iff.2 fun hoff => hnum ⟨hon, hoff⟩
  · rintro h num ⟨hopen, hclose⟩
    have := h num false hopen
    exact absurd (this.symm.trans hclose) (by decide)

/-- **The step lemma**: under the invariant a step leaves the coils exclusive exactly when it is
clear. -/
theorem exclusive_next_iff (hinv : Inv s) : Exclusive (s.next t).world ↔ Clear s t := by
  rw [exclusive_iff]
  constructor
  · intro h num on hraise hpulse
    obtain ⟨hup, hopp⟩ := raises_next hraise
    rw [← hopp]
    exact h num on hup
  · intro hclear num on hup
    have hexcl := (exclusive_iff s.world).1 hinv.exclusive
    -- the opposite coil cannot be up as well: one of the two would have been raised by this step
    apply Bool.eq_false_iff.2
    intro hopp
    have key : ∀ o, Raises s t num o → s.world.gpio (coil num (!o)) = true → False := by
      intro o hraise hold
      obtain ⟨t', hpulse⟩ := hinv.pulse num (!o) hold
      have ht : t' = !t := by
        have hne : t' ≠ t := by
          rintro rfl
          have h2 := hraise.2
          have h34 := hpulse.2
          omega
        cases t <;> cases t' <;> simp_all
      subst ht
      exact absurd (hclear num o hraise hpulse) (by rw [hold]; decide)
    rcases up_next hup with hold | ⟨hraise, -⟩
    · rcases up_next hopp with hold' | ⟨hraise', -⟩
      · exact absurd (hexcl num on hold) (by rw [hold']; decide)
      · exact key _ hraise' (by simpa using hold)
    · rcases up_next hopp with hold' | ⟨hraise', -⟩
      · exact key _ hraise hold'
      · have := hraise.1.symm.trans hraise'.1
        cases on <;> simp at this

theorem inv_next (hinv : Inv s) (hclear : Clear s t) : Inv (s.next t) where
  pulse := by
    intro num on hup
    rcases up_next hup with hold | ⟨-, hpulse⟩
    · obtain ⟨t', hpulse⟩ := hinv.pulse num on hold
      rcases pulsing_next (t := t) hpulse with h | h
      · exact ⟨t', h⟩
      · exact absurd hup (by rw [h]; decide)
    · exact ⟨t, hpulse⟩
  exclusive := (exclusive_next_iff hinv).2 hclear

end Step

/-! ## Runs -/

def AllLow (w : World) : Prop := ∀ num on, w.gpio (coil num on) = false

theorem allLow_boot (flash : CText.Text → Option Int) : AllLow (boot flash) := by
  unfold AllLow
  rw [gpio_boot]
  decide

def start (w : World) (cmds : Bool → List Cmd) : State := ⟨w, cmds, fun _ => 0⟩

theorem inv_start {w : World} (h : AllLow w) (cmds : Bool → List Cmd) : Inv (start w cmds) where
  pulse := fun num on hup => absurd hup (by rw [show (start w cmds).world = w from rfl, h]; decide)
  exclusive := fun num hup => absurd hup.1 (by
    rw [show (start w cmds).world.gpio (dripOpenCtrlPin num) = false from h num false]; decide)

/-- **The two coils of a valve.** Whatever the commands of the two tasks and however their steps
interleave, no state of the run has both coils of a valve energised exactly when every step is
clear. -/
theorem coils_exclusive_iff {w : World} (hw : AllLow w) (cmds : Bool → List Cmd)
    (schedule : List Bool) :
    (∀ w' ∈ system.run (start w cmds) schedule, Exclusive w') ↔
      system.Along Clear (start w cmds) schedule :=
  Mealy.forall_run_iff (I := Inv) (fun _ _ hinv hclear => inv_next hinv hclear)
    (fun _ _ hinv => exclusive_next_iff hinv) (inv_start hw cmds)

def openAndClose : Bool → List Cmd
  | false => [(0, true)]
  | true => [(0, false)]

theorem coils_exclusive_in_turn :
    system.Along Clear (start (boot fun _ => none) openAndClose)
        (List.replicate 8 false ++ List.replicate 8 true) ∧
      ∀ w ∈ system.run (start (boot fun _ => none) openAndClose)
        (List.replicate 8 false ++ List.replicate 8 true), Exclusive w := by
  have hclear : system.Along Clear (start (boot fun _ => none) openAndClose)
      (List.replicate 8 false ++ List.replicate 8 true) := by decide +kernel
  exact ⟨hclear, (coils_exclusive_iff (allLow_boot _) _ _).2 hclear⟩

/-- `app_loop` has switched one coil off and waits; the MQTT task starts its pulse on that coil; and
`app_loop` raises the other one. -/
theorem coils_not_exclusive :
    ¬ ∀ w ∈ system.run (start (boot fun _ => none) openAndClose)
      [false, true, true, true, false, false], Exclusive w := by
  decide +kernel

end Coils

end GreenHouse
