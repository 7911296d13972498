import GreenHouse.Update
import GreenHouse.Lib.Mealy

/-!
# One iteration of the scheduler

The three calls of `update_drip` in an iteration of `app_loop` read one clock sample and share two
statics. This file says what a call does to each part of the world that another call reads
(`updateDrip_*`), and sets up the machine whose inputs are clock samples and whose outputs are what
one drip did (`scheduler`).
-/

namespace GreenHouse

/-! ## Actions -/

namespace DripAction

def status : DripAction → Bool → Bool
  | stay, on => on
  | .open, _ => true
  | close, _ => false

def valves : DripAction → List Bool
  | stay => []
  | .open => [true]
  | close => [false]

/-- The roll-over flag after an action that found it at `roll`. -/
def roll : DripAction → Bool → Bool
  | .open, _ => false
  | _, roll => roll

end DripAction

/-- A drip that is off opens exactly under the test, and cannot close. -/
theorem dripAction_off (d : DripInfo) (curr day : Int) (roll : Bool) :
    dripAction false d curr day roll = if OpenTest d curr day then .open else .stay := rfl

theorem dripAction_on_ne_open (d : DripInfo) (curr day : Int) (roll : Bool) :
    dripAction true d curr day roll ≠ .open := by
  unfold dripAction
  rw [if_neg (by decide)]
  split
  · split <;> decide
  · split <;> decide

theorem dripAction_status_ne {on : Bool} {d : DripInfo} {curr day : Int} {roll : Bool} :
    (dripAction on d curr day roll).status on ≠ on ↔ dripAction on d curr day roll ≠ .stay := by
  cases on with
  | false =>
    rw [dripAction_off]
    split <;> decide
  | true =>
    have h := dripAction_on_ne_open d curr day roll
    cases ha : dripAction true d curr day roll with
    | stay => decide
    | «open» => exact absurd ha h
    | close => decide

/-- Only a window that crosses midnight makes the flag count. -/
theorem dripAction_roll {d : DripInfo} (h : ¬ offTimeInMin d < d.startTime) (on : Bool)
    (curr day : Int) (roll roll' : Bool) :
    dripAction on d curr day roll = dripAction on d curr day roll' := by
  unfold dripAction
  rw [if_neg h, if_neg h]

/-! ## What a call leaves behind -/

/-- The settings of a drip: all of its record but the reported state. -/
def DripInfo.setting (d : DripInfo) : DripInfo := { d with state := false }

theorem dripAction_setting (on : Bool) (d : DripInfo) (curr day : Int) (roll : Bool) :
    dripAction on d.setting curr day roll = dripAction on d curr day roll := rfl

theorem DripInfo.startTime_eq {d d' : DripInfo} (h : d'.setting = d.setting) :
    d'.startTime = d.startTime := by
  have := congrArg DripInfo.startTime h
  exact this

theorem DripInfo.duration_eq {d d' : DripInfo} (h : d'.setting = d.setting) :
    d'.duration = d.duration := by
  have := congrArg DripInfo.duration h
  exact this

theorem DripInfo.days_eq {d d' : DripInfo} (h : d'.setting = d.setting) : d'.days = d.days := by
  have := congrArg DripInfo.days h
  exact this

def valvesOf (k : Fin 3) (trace : List Event) : List Bool :=
  trace.filterMap fun
    | .valve n on => if n = k then some on else none
    | _ => none

theorem valvesOf_append (k : Fin 3) (s t : List Event) :
    valvesOf k (s ++ t) = valvesOf k s ++ valvesOf k t := List.filterMap_append

section Calls

variable (num : Fin 3) (w : World)

theorem updateDrip_result : (updateDrip num w).1 = decide (w.nextAction num ≠ .stay) := by
  rw [updateDrip_eq]

@[simp] theorem updateDrip_prevTimeInMin :
    (updateDrip num w).2.prevTimeInMin = currTimeInMin w.info := by
  rw [updateDrip_eq]

theorem updateDrip_timeRollOver :
    (updateDrip num w).2.timeRollOver = (w.nextAction num).roll w.rolled := by
  rw [updateDrip_eq]
  cases w.nextAction num <;> rfl

theorem updateDrip_dripStatus :
    (updateDrip num w).2.dripStatus =
      Function.update w.dripStatus num ((w.nextAction num).status (w.dripStatus num)) := by
  rw [updateDrip_eq]
  cases w.nextAction num with
  | stay => exact (Function.update_eq_self num w.dripStatus).symm
  | «open» => rfl
  | close => rfl

theorem updateDrip_info : ∃ s, (updateDrip num w).2.info = (w.setDripState num s).info := by
  rw [updateDrip_eq]
  cases w.nextAction num with
  | stay =>
    refine ⟨(w.info.dripInfo num).state, ?_⟩
    show w.info = _
    unfold World.setDripState World.modifyDrip
    rw [Function.update_eq_self]
  | «open» => exact ⟨true, controlDripNum_info num true w⟩
  | close => exact ⟨false, controlDripNum_info num false w⟩

@[simp] theorem updateDrip_currTimeInMin :
    currTimeInMin (updateDrip num w).2.info = currTimeInMin w.info := by
  obtain ⟨s, h⟩ := updateDrip_info num w
  rw [h]
  rfl

@[simp] theorem updateDrip_day : (updateDrip num w).2.info.day = w.info.day := by
  obtain ⟨s, h⟩ := updateDrip_info num w
  rw [h]
  rfl

@[simp] theorem updateDrip_timeIsValid :
    (updateDrip num w).2.info.timeIsValid = w.info.timeIsValid := by
  obtain ⟨s, h⟩ := updateDrip_info num w
  rw [h]
  rfl

@[simp] theorem setDripState_setting (s : Bool) (n : Fin 3) :
    ((w.setDripState num s).info.dripInfo n).setting = (w.info.dripInfo n).setting := by
  by_cases h : n = num
  · subst h; simp [World.setDripState, World.modifyDrip, DripInfo.setting]
  · simp [World.setDripState, World.modifyDrip, h]

@[simp] theorem updateDrip_setting (n : Fin 3) :
    ((updateDrip num w).2.info.dripInfo n).setting = (w.info.dripInfo n).setting := by
  obtain ⟨s, h⟩ := updateDrip_info num w
  rw [h, setDripState_setting]

theorem updateDrip_valves (k : Fin 3) :
    valvesOf k (updateDrip num w).2.trace =
      valvesOf k w.trace ++ if num = k then (w.nextAction num).valves else [] := by
  rw [updateDrip_eq]
  cases w.nextAction num with
  | stay =>
    show valvesOf k w.trace = _
    simp [DripAction.valves]
  | «open» =>
    show valvesOf k (controlDripNum num true w).trace = _
    rw [controlDripNum_trace, valvesOf_append]
    by_cases h : num = k <;> simp [valvesOf, DripAction.valves, h]
  | close =>
    show valvesOf k (controlDripNum num false w).trace = _
    rw [controlDripNum_trace, valvesOf_append]
    by_cases h : num = k <;> simp [valvesOf, DripAction.valves, h]

/-- After a call the flag is up to date: the clock it was tested against is the current one. -/
theorem updateDrip_rolled : (updateDrip num w).2.rolled = (w.nextAction num).roll w.rolled := by
  unfold World.rolled
  rw [updateDrip_prevTimeInMin, updateDrip_currTimeInMin, updateDrip_timeRollOver]
  simp [World.rolled]

end Calls

/-! ## The scheduler as a machine -/

/-- A clock sample, as `update_time` leaves it. -/
structure Sample where
  hour : Int
  min : Int
  day : Int
  deriving DecidableEq

def Sample.minute (c : Sample) : Int := c.min + c.hour * 60

/-- The world with a clock sample, at the start of the scheduler part of an iteration. -/
def World.atSample (c : Sample) (w : World) : World :=
  { w with
    info := { w.info with hour := c.hour, min := c.min, day := c.day }
    trace := [] }

/-- The world in which an iteration calls `update_drip(num)`. -/
def callWorld (num : Fin 3) (w : World) : World :=
  if num = 0 then w
  else if num = 1 then (updateDrip 0 w).2
  else (updateDrip 1 (updateDrip 0 w).2).2

/-- What one drip did in an iteration: its status before and after, the result of `update_drip` and
the valve commands. -/
structure DripOut where
  before : Bool
  on : Bool
  result : Bool
  valves : List Bool
  deriving DecidableEq

/-- The scheduler part of `app_loop` with a valid time, seen from drip `k`. -/
def scheduler (k : Fin 3) : Mealy World Sample DripOut where
  step w c :=
    let w₀ := w.atSample c
    let w₁ := updateDrips w₀
    (w₁, ⟨w.dripStatus k, w₁.dripStatus k, (updateDrip k (callWorld k w₀)).1, valvesOf k w₁.trace⟩)

/-- The statics at boot, and a valid time. -/
structure Booted (w : World) : Prop where
  dripStatus : ∀ n, w.dripStatus n = false
  prevTimeInMin : w.prevTimeInMin = 0
  timeRollOver : w.timeRollOver = false
  timeIsValid : w.info.timeIsValid = true

end GreenHouse
