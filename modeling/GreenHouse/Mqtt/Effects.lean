import GreenHouse.Mqtt.Handler

/-!
# What a branch does

Of a body only three things matter to the plant and to later runs: what it does to
`greenHouseInfo`, which GPIO and flash writes it makes, and whether it faults. All three depend on
the text the body reads and on nothing else of the world (`Branch.act_info`, `Branch.act_writes`,
`Branch.act_snd`). A request does none of them.
-/

namespace GreenHouse

open CInt CText

/-- A GPIO or flash write, as opposed to a published answer. -/
def Event.isWrite : Event → Bool
  | .gpio _ _ | .nvs _ _ => true
  | .publish _ _ | .valve _ _ => false

def World.writes (w : World) : List Event := w.trace.filter Event.isWrite

namespace Branch

/-- The state of both fans after a set-state command, where the text holds one. -/
def fanCommand (data : Text) : Option Bool :=
  if strstr data (ascii "ON") then some true
  else if strstr data (ascii "OFF") then some false else none

def changeDrip (num : Fin 3) (f : DripInfo → DripInfo) (i : GreenHouseInfo) : GreenHouseInfo :=
  { i with dripInfo := Function.update i.dripInfo num (f (i.dripInfo num)) }

/-- What the body does to `greenHouseInfo`. -/
def infoAfter (b : Branch) (data : Text) (i : GreenHouseInfo) : GreenHouseInfo :=
  match b with
  | fanSetState => (fanCommand data).elim i fun on => { i with fanState := fun _ => on }
  | fanSetTempOn => if i8 (atoi data) ≠ 0 then { i with fanTempOn := i8 (atoi data) } else i
  | dripCtrl num => changeDrip num ({ · with state := strstr data (ascii "ON") }) i
  | dripSetStartTime num =>
    (afterChr data 58).elim i fun minutes =>
      changeDrip num ({ · with startTime := startTimeOf data minutes }) i
  | dripSetDuration num => changeDrip num ({ · with duration := atoi data }) i
  | dripSetDays num => changeDrip num ({ · with days := atoi data }) i
  | _ => i

def writes (b : Branch) (data : Text) : List Event :=
  match b with
  | fanSetState =>
    (fanCommand data).elim [] fun on =>
      [.gpio (fanCtrlPin 0) on, .gpio (fanLedPin 0) (!on), .gpio (fanCtrlPin 1) on,
        .gpio (fanLedPin 1) (!on)]
  | dripCtrl num =>
    let on := strstr data (ascii "ON")
    [.gpio (if on then dripOpenCtrlPin num else dripCloseCtrlPin num) false,
      .gpio (if on then dripCloseCtrlPin num else dripOpenCtrlPin num) true,
      .gpio (if on then dripCloseCtrlPin num else dripOpenCtrlPin num) false,
      .gpio (solLedPin num) (!on)]
  | dripSetStartTime num =>
    (afterChr data 58).elim [] fun minutes => [.nvs (dripStartKey num) (startTimeOf data minutes)]
  | dripSetDuration num => [.nvs (dripDurKey num) (atoi data)]
  | dripSetDays num => [.nvs (dripDaysKey num) (atoi data)]
  | _ => []

def faultOf (b : Branch) (data : Text) : Option Fault :=
  match b with
  | dripSetStartTime _ => if 58 ∈ data then none else some .nullRead
  | _ => none

theorem controlFan_both_info (data : Text) (w : World) :
    (controlFan 1 data (controlFan 0 data w)).info = fanSetState.infoAfter data w.info := by
  have hboth : ∀ on, Function.update (Function.update w.info.fanState 0 on) 1 on = fun _ => on := by
    intro on
    funext k
    match k with
    | 0 => simp
    | 1 => simp
  unfold controlFan infoAfter fanCommand
  split
  · simp [World.gpioSetLevel, World.emit, hboth]
  · split
    · simp [World.gpioSetLevel, World.emit, hboth]
    · rfl

theorem controlFan_both_writes (data : Text) (w : World) :
    (controlFan 1 data (controlFan 0 data w)).writes = w.writes ++ fanSetState.writes data := by
  unfold controlFan writes fanCommand
  split
  · simp [World.writes, World.gpioSetLevel, World.emit, Event.isWrite]
  · split
    · simp [World.writes, World.gpioSetLevel, World.emit, Event.isWrite]
    · simp

theorem act_info (b : Branch) (data : Text) (w : World) :
    (b.act data w).1.info = b.infoAfter data w.info := by
  cases b with
  | fanSetState => exact controlFan_both_info data w
  | fanSetTempOn =>
    simp only [act, controlFanSetTempOn, infoAfter]
    split <;> rfl
  | dripCtrl num => rw [act, controlDrip_succ, controlDripNum_info]; rfl
  | dripSetStartTime num =>
    simp only [act, controlDripStartTime, infoAfter]
    cases afterChr data 58 <;> rfl
  | _ => rfl

/-- A message does not touch the validity of the time. -/
theorem act_timeIsValid (b : Branch) (data : Text) (w : World) :
    (b.act data w).1.info.timeIsValid = w.info.timeIsValid := by
  rw [act_info]
  cases b with
  | fanSetState =>
    simp only [infoAfter]
    cases fanCommand data <;> rfl
  | fanSetTempOn =>
    simp only [infoAfter]
    split <;> rfl
  | dripSetStartTime num =>
    simp only [infoAfter]
    cases afterChr data 58 <;> rfl
  | _ => rfl

theorem act_writes (b : Branch) (data : Text) (w : World) :
    (b.act data w).1.writes = w.writes ++ b.writes data := by
  cases b with
  | fanSetState => exact controlFan_both_writes data w
  | fanSetTempOn =>
    simp only [act, controlFanSetTempOn, writes, List.append_nil]
    split <;> rfl
  | dripCtrl num =>
    rw [act, controlDrip_succ]
    unfold World.writes
    rw [controlDripNum_trace, List.filter_append]
    rfl
  | dripSetStartTime num =>
    simp only [act, controlDripStartTime, writes]
    cases afterChr data 58 with
    | none => simp
    | some minutes =>
      simp [World.writes, storeStartTime, nvsWrite, World.emit, World.modifyDrip, Event.isWrite]
  | dripSetDuration num =>
    simp [act, writes, World.writes, controlDripDurationTime, storeDuration, nvsWrite, World.emit,
      World.modifyDrip, Event.isWrite]
  | dripSetDays num =>
    simp [act, writes, World.writes, controlDripDays, storeDays, nvsWrite, World.emit,
      World.modifyDrip, Event.isWrite]
  | _ => simp [act, writes, World.writes, World.emit, Event.isWrite]

theorem act_snd (b : Branch) (data : Text) (w : World) : (b.act data w).2 = b.faultOf data := by
  cases b with
  | dripSetStartTime num =>
    have hchr := afterChr_isSome (s := data) (c := 58)
    simp only [act, controlDripStartTime, faultOf]
    cases h : afterChr data 58 with
    | none => rw [h] at hchr; rw [if_neg (by simpa using hchr)]
    | some v => rw [h] at hchr; rw [if_pos (by simpa using hchr)]
  | _ => rfl

end Branch

end GreenHouse
