import GreenHouse.Settings.Boot
import GreenHouse.Update
import GreenHouse.Lib.Hysteresis

/-!
# Automatic fan control (`update_fan` in `app_loop`)

What `update_fan` compares is `greenHouseInfo.temp`. `Update_Temperature` stores the reading in the
global `temp` of `update.c`, and nothing writes `greenHouseInfo.temp`, so the fans are driven by the
zero the startup code left there (`fan_appLoopFan`). The measured temperature never reaches the
relays; `fanLoop_follows_iff` says for which set points and readings this goes unnoticed.
-/

namespace GreenHouse

open CInt

/-! ## The part of the world the fans depend on -/

/-- The two control pins, the static of `update_fan`, and what it compares. -/
structure FanView where
  pins : Bool × Bool
  status : Bool
  temp : Int
  tempOn : Int

def World.fan (w : World) : FanView where
  pins := (w.gpio (fanCtrlPin 0), w.gpio (fanCtrlPin 1))
  status := w.fanStatus
  temp := w.info.temp
  tempOn := w.info.fanTempOn

theorem Keeps.fan {w w' : World} (h : Keeps w w') : w'.fan = w.fan := by
  unfold World.fan
  rw [h.gpio, h.fanStatus, h.temp, h.fanTempOn]

section Frame

variable (w : World)

theorem fan_controlDripNum (num : Fin 3) (on : Bool) : (controlDripNum num on w).fan = w.fan := by
  have hpin : ∀ (num : Fin 3) (on level : Bool) (fan : Fin 2),
      Instr.gpioSetLevel (fanCtrlPin fan) level ∉ controlDripProg num on := by decide
  have hgpio : ∀ fan, (controlDripNum num on w).gpio (fanCtrlPin fan) = w.gpio (fanCtrlPin fan) :=
    fun fan => execAll_gpio (fun level => hpin num on level fan) _
  have hcore := congrArg World.fanStatus (core_controlDripNum num on w)
  have hstatus : (controlDripNum num on w).fanStatus = w.fanStatus := hcore
  unfold World.fan
  rw [hgpio, hgpio, hstatus, controlDripNum_info]
  rfl

theorem fan_updateDrip (num : Fin 3) : (updateDrip num w).2.fan = w.fan := by
  rw [updateDrip_eq]
  cases w.nextAction num with
  | stay => rfl
  | «open» => exact fan_controlDripNum w num true
  | close => exact fan_controlDripNum w num false

theorem fan_updateDrips : (updateDrips w).fan = w.fan := by
  unfold updateDrips
  split
  · rw [fan_updateDrip, fan_updateDrip, fan_updateDrip]
  · rfl

end Frame

/-! ## What the fans do -/

def FanView.showing (status : Bool) (temp on : Int) : FanView :=
  ⟨(status, status), status, temp, on⟩

/-- The static of `update_fan` after a call, from its value before and what the call compares. -/
def fanNext (temp on : Int) (status : Bool) : Bool :=
  if temp ≥ on ∧ status = false then true
  else if temp ≤ i32 (on - fanOffTempHyst) ∧ status = true then false
  else status

theorem fan_updateFan {w : World} {s : Bool} {temp on : Int} (h : w.fan = .showing s temp on) :
    (updateFan w).fan = .showing (fanNext temp on s) temp on := by
  obtain rfl : w.info.temp = temp := congrArg FanView.temp h
  obtain rfl : w.info.fanTempOn = on := congrArg FanView.tempOn h
  obtain rfl : w.fanStatus = s := congrArg FanView.status h
  unfold updateFan fanNext
  split
  · rfl
  · split
    · rfl
    · exact h

/-- Up to `update_fan`: whatever was measured, the fans follow `greenHouseInfo.temp`. -/
theorem fan_appLoopFan {w : World} {s : Bool} {temp on : Int} (h : w.fan = .showing s temp on)
    (env : LoopEnv) : (appLoopFan env w).fan = .showing (fanNext temp on s) temp on := by
  obtain ⟨v, hv, hloop⟩ := keeps_appLoopFan w env
  rw [hloop]
  exact fan_updateFan (hv.fan.trans h)

/-- The loop, seen at the fan control pins right after `update_fan`. -/
def fanLoop : Mealy World LoopEnv (Bool × Bool) where
  step w env := (appLoop env w, (appLoopFan env w).fan.pins)

/-- The loop with the measured temperature gone: the pins follow a constant. -/
def blindFan (temp on : Int) : Mealy Bool LoopEnv (Bool × Bool) where
  step s _ := (fanNext temp on s, (fanNext temp on s, fanNext temp on s))

theorem fanLoop_run_eq {w : World} {s : Bool} {temp on : Int} (h : w.fan = .showing s temp on)
    (envs : List LoopEnv) : fanLoop.run w envs = (blindFan temp on).run s envs := by
  apply Mealy.run_eq_of_sim (R := fun w s => w.fan = .showing s temp on) (P := fun _ _ => True)
  · intro w s env hw _
    have hstep := fan_appLoopFan hw env
    refine ⟨?_, congrArg FanView.pins hstep⟩
    show (updateDrips (appLoopFan env w)).fan = _
    rw [fan_updateDrips, hstep]
    rfl
  · exact h
  · exact Mealy.along_of_forall_mem (fun _ _ => trivial) _

/-! ## When this is the hysteresis automaton on the readings -/

/-- The state of the fans at a boot: the pins low, the static OFF, and a zero to compare. -/
def FanBooted (w : World) : Prop := w.fan = .showing false 0 w.info.fanTempOn

theorem fanBooted_boot (flash : CText.Text → Option Int) : FanBooted (boot flash) := by
  have hpin : ∀ fan : Fin 2, initGpioLevels.foldl (fun g p => Function.update g p.1 p.2)
      (fun _ => false) (fanCtrlPin fan) = false := by decide
  unfold FanBooted World.fan FanView.showing
  rw [gpio_boot, hpin, hpin, fanStatus_boot, temp_boot]

def bothPins (levels : List Bool) : List (Bool × Bool) := levels.map fun b => (b, b)

theorem run_blindFan_of_stays {temp on : Int} {b : Bool} (h : fanNext temp on b = b)
    (envs : List LoopEnv) : (blindFan temp on).run b envs = List.replicate envs.length (b, b) := by
  induction envs with
  | nil => rfl
  | cons env envs ih =>
    rw [Mealy.run_cons]
    show (fanNext temp on b, fanNext temp on b) ::
      (blindFan temp on).run (fanNext temp on b) envs = _
    rw [h, ih]
    rfl

theorem bothPins_eq_replicate_iff {levels : List Bool} {n : Nat} (hn : levels.length = n)
    (b : Bool) :
    List.replicate n (b, b) = bothPins levels ↔ ∀ l ∈ levels, l = b := by
  unfold bothPins
  rw [eq_comm, List.eq_replicate_iff]
  simp [hn]

/-- The readings for which the automaton gives what the loop does: the fans are never to run and
the set point is positive; or they are to run all along and the set point is not. Below the last two
values of an `int` the lower threshold wraps and the fans toggle. -/
def Unnoticed (on : Int) (readings : List Int) : Prop :=
  (0 < on ∧ ∀ x ∈ readings, x < on) ∨
  (-2 ^ 31 + 2 ≤ on ∧ on ≤ 0 ∧ (∀ x ∈ readings.head?, on ≤ x) ∧ ∀ x ∈ readings, on - 2 < x) ∨
  (on < -2 ^ 31 + 2 ∧ readings.length ≤ 1)

instance (on : Int) (readings : List Int) : Decidable (Unnoticed on readings) :=
  inferInstanceAs (Decidable (_ ∨ _ ∨ _))

/-- The automaton of the fans: on at the set point, off two degrees below. -/
def fanAutomaton (on : Int) : Mealy Bool Int Bool := Hysteresis.machine (on - 2) on

theorem unnoticed_iff_of_pos {on : Int} (hpos : 0 < on) (envs : List LoopEnv) :
    (blindFan 0 on).run false envs =
      bothPins ((fanAutomaton on).run false (envs.map LoopEnv.temperature)) ↔
      ∀ x ∈ envs.map LoopEnv.temperature, x < on := by
  have hstay : fanNext 0 on false = false := by
    unfold fanNext
    simp [hpos]
  rw [run_blindFan_of_stays hstay, bothPins_eq_replicate_iff (by simp)]
  exact Hysteresis.run_false_iff _

theorem fanNext_true_of_nonpos {on : Int} (hlow : -2 ^ 31 + 2 ≤ on) (hon : on ≤ 0) :
    fanNext 0 on true = true := by
  have hsub : i32 (on - fanOffTempHyst) = on - 2 := by
    unfold fanOffTempHyst
    exact i32_eq (by unfold InI32; omega)
  unfold fanNext
  rw [hsub, if_neg (by simp), if_neg (by omega)]

theorem unnoticed_iff_of_nonpos {on : Int} (hlow : -2 ^ 31 + 2 ≤ on) (hon : on ≤ 0)
    (envs : List LoopEnv) :
    (blindFan 0 on).run false envs =
      bothPins ((fanAutomaton on).run false (envs.map LoopEnv.temperature)) ↔
      (∀ x ∈ (envs.map LoopEnv.temperature).head?, on ≤ x) ∧
        ∀ x ∈ envs.map LoopEnv.temperature, on - 2 < x := by
  have hup : fanNext 0 on false = true := by
    unfold fanNext
    simp [hon]
  have hrun : (blindFan 0 on).run false envs = List.replicate envs.length (true, true) := by
    cases envs with
    | nil => rfl
    | cons env envs =>
      rw [Mealy.run_cons]
      show (fanNext 0 on false, fanNext 0 on false) ::
        (blindFan 0 on).run (fanNext 0 on false) envs = _
      rw [hup, run_blindFan_of_stays (fanNext_true_of_nonpos hlow hon)]
      rfl
  rw [hrun, bothPins_eq_replicate_iff (by simp)]
  exact Hysteresis.run_false_all_true_iff (by omega) _

/-- Where the lower threshold wraps, the second iteration switches the fans off again, while every
reading an `int8_t` can hold is above the set point. -/
theorem unnoticed_iff_of_wrap {on : Int} (hon : InI32 on) (hlow : on < -2 ^ 31 + 2)
    {envs : List LoopEnv} (hread : ∀ env ∈ envs, InI8 env.temperature) :
    (blindFan 0 on).run false envs =
      bothPins ((fanAutomaton on).run false (envs.map LoopEnv.temperature)) ↔
      (envs.map LoopEnv.temperature).length ≤ 1 := by
  have hup : fanNext 0 on false = true := by
    unfold fanNext
    rw [if_pos ⟨by omega, rfl⟩]
  have hnext : ∀ level, ∀ env ∈ envs, Hysteresis.next (on - 2) on level env.temperature = true := by
    intro level env henv
    have hrange := hread env henv
    unfold InI8 at hrange
    unfold Hysteresis.next
    rw [if_pos (by omega)]
  match envs with
  | [] => simp [bothPins]
  | [env] =>
    have h1 := hnext false env (by simp)
    simp [bothPins, blindFan, fanAutomaton, Hysteresis.machine, hup, h1]
  | env :: env' :: envs =>
    have hdown : fanNext 0 on true = false := by
      have hsub : 0 ≤ i32 (on - fanOffTempHyst) := by
        unfold InI32 at hon
        have : on - fanOffTempHyst = -2 ^ 31 - 1 ∨ on - fanOffTempHyst = -2 ^ 31 - 2 := by
          unfold fanOffTempHyst; omega
        rcases this with h | h <;> rw [h] <;> decide
      unfold fanNext
      rw [if_neg (by simp), if_pos ⟨hsub, rfl⟩]
    have h2 := hnext (Hysteresis.next (on - 2) on false env.temperature) env' (by simp)
    simp [bothPins, blindFan, fanAutomaton, Hysteresis.machine, hup, hdown, h2]

/-- **Automatic fan control.** From a boot, for every sequence of readings and every set point, both
fan control pins follow the hysteresis automaton on the readings exactly when the readings are
`Unnoticed`. -/
theorem fanLoop_follows_iff {w : World} {on : Int} {envs : List LoopEnv} (hboot : FanBooted w)
    (hset : w.info.fanTempOn = on) (hon : InI32 on)
    (hread : ∀ env ∈ envs, InI8 env.temperature) :
    fanLoop.run w envs =
      bothPins ((fanAutomaton on).run false (envs.map LoopEnv.temperature)) ↔
      Unnoticed on (envs.map LoopEnv.temperature) := by
  subst hset
  rw [fanLoop_run_eq hboot]
  unfold Unnoticed
  by_cases hpos : 0 < w.info.fanTempOn
  · rw [unnoticed_iff_of_pos hpos]
    constructor
    · exact fun h => Or.inl ⟨hpos, h⟩
    · rintro (h | h | h)
      · exact h.2
      · omega
      · omega
  · by_cases hlow : -2 ^ 31 + 2 ≤ w.info.fanTempOn
    · rw [unnoticed_iff_of_nonpos hlow (by omega)]
      constructor
      · exact fun h => Or.inr (Or.inl ⟨hlow, by omega, h⟩)
      · rintro (h | h | h)
        · omega
        · exact h.2.2
        · omega
    · rw [unnoticed_iff_of_wrap hon (by omega) hread]
      constructor
      · exact fun h => Or.inr (Or.inr ⟨by omega, h⟩)
      · rintro (h | h | h)
        · omega
        · omega
        · exact h.2

def measuring (t : Int) : LoopEnv := ⟨t, 40, ⟨⟨fun _ => .reset, 0, 0, 0, 0⟩, 0, 0,
  ⟨fun _ => .reset, 0, 0, 0, 0⟩, 0, 0⟩⟩

theorem fanTempOn_boot_empty : (boot fun _ => none).info.fanTempOn = 95 :=
  Setting.get_boot (fun _ => none) .fanTempOn

theorem fanLoop_follows_cool :
    fanLoop.run (boot fun _ => none) [measuring 70, measuring 80] =
      bothPins ((fanAutomaton 95).run false [70, 80]) :=
  (fanLoop_follows_iff (fanBooted_boot _) fanTempOn_boot_empty (by decide) (by decide)).2
    (by decide)

/-- A reading of 100 does not switch the fans on. -/
theorem fanLoop_ignores_heat :
    fanLoop.run (boot fun _ => none) [measuring 100] ≠
      bothPins ((fanAutomaton 95).run false [100]) := by
  have hboot := fanBooted_boot fun _ => none
  unfold FanBooted at hboot
  rw [fanTempOn_boot_empty] at hboot
  rw [fanLoop_run_eq hboot]
  decide

end GreenHouse
