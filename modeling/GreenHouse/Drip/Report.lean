import GreenHouse.Drip.View

/-!
# The reported state of a drip

Within one power cycle the record of a drip, its LED, its last command and its last coil pulse say
the same: a command writes all of them, whatever they were (`DripView.reported_commanded`), and
nothing else writes any. The schedule does not read the record, so manual commands do not change
what it does.
-/

namespace GreenHouse

open CText

/-- The record of a drip is its last command, its last pulse and its LED, and no coil is on. -/
structure DripView.Reported (v : DripView) : Prop where
  command : v.state = true ↔ v.commands.getLast? = some true
  pulse : v.state = true ↔ v.pulses.getLast? = some true
  led : v.state = true ↔ v.led = false
  coils : v.openPin = false ∧ v.closePin = false

theorem DripView.reported_booted : booted.Reported := by
  constructor <;> decide

theorem DripView.reported_commanded (v : DripView) (on : Bool) : (v.commanded on).Reported where
  command := by simp [commanded]
  pulse := by simp [commanded]
  led := by simp [commanded]
  coils := ⟨rfl, rfl⟩

theorem DripView.Reported.foldl {v : DripView} (h : v.Reported) (cmds : List Bool) :
    (cmds.foldl commanded v).Reported := by
  induction cmds generalizing v with
  | nil => exact h
  | cons on cmds ih => exact ih (reported_commanded v on)

/-! ## Calls -/

/-- A whole call that may command a valve: `update_drip`, with the clock and the settings it finds,
or `Control_Drip` with the text of a message. -/
inductive ValveCall where
  | schedule (num : Fin 3) (clock : Sample) (startTime duration days : Int)
  | command (num : Fin 3) (cmd : Text)

namespace ValveCall

def num : ValveCall → Fin 3
  | schedule num _ _ _ _ => num
  | command num _ => num

def isSchedule : ValveCall → Bool
  | schedule _ _ _ _ _ => true
  | command _ _ => false

end ValveCall

/-- The world in which `update_drip(num)` finds a clock and settings. -/
def World.given (num : Fin 3) (clock : Sample) (startTime duration days : Int) (w : World) :
    World :=
  let w := w.modifyDrip num fun d => ⟨d.state, duration, startTime, days⟩
  { w with info := { w.info with hour := clock.hour, min := clock.min, day := clock.day } }

def ValveCall.exec : ValveCall → World → Option Bool × World
  | schedule num clock startTime duration days, w =>
    let (result, w) := updateDrip num (w.given num clock startTime duration days)
    (some result, w)
  | command num cmd, w => (none, controlDrip (num + 1) cmd w)

/-- A call with the worlds before and after it, and the result of `update_drip`. -/
structure ValveReport where
  call : ValveCall
  before : World
  after : World
  result : Option Bool

def valveCalls : Mealy World ValveCall ValveReport where
  step w c := ((c.exec w).2, ⟨c, w, (c.exec w).2, (c.exec w).1⟩)

namespace ValveReport

/-- The commands a call gives to its drip: that of the message, ON if its text contains `ON`; and
where `update_drip` returns true, the new status of the drip. -/
def issued (o : ValveReport) : List Bool :=
  match o.call with
  | .schedule num _ _ _ _ => if o.result = some true then [o.after.dripStatus num] else []
  | .command _ cmd => [strstr cmd (ascii "ON")]

structure Right (o : ValveReport) : Prop where
  reported : ∀ k, (o.after.drip k).Reported
  others : ∀ k, k ≠ o.call.num → o.after.drip k = o.before.drip k
  issued : (o.after.drip o.call.num).commands = (o.before.drip o.call.num).commands ++ o.issued
  status : o.call.isSchedule = false → o.after.dripStatus = o.before.dripStatus

/-- What the schedule shows of a call: the result of `update_drip` and the statuses behind it. -/
def schedule (o : ValveReport) : Option (Bool × (Fin 3 → Bool)) :=
  o.result.map fun r => (r, o.after.dripStatus)

end ValveReport

/-! ## What a call does -/

section Call

variable (num : Fin 3) (clock : Sample) (startTime duration days : Int) (w : World)

theorem drip_given (k : Fin 3) :
    (w.given num clock startTime duration days).drip k = w.drip k := by
  refine drip_eq_of_aside w (w.given num clock startTime duration days) []
    (List.append_nil _).symm (by simp) (fun _ => ⟨rfl, rfl, rfl⟩) (fun j => ?_) k
  by_cases h : j = num
  · subst h; simp [World.given, World.modifyDrip]
  · simp [World.given, World.modifyDrip, h]

theorem nextAction_given : (w.given num clock startTime duration days).nextAction num =
    dripAction (w.dripStatus num) ⟨false, duration, startTime, days⟩ clock.minute clock.day
      (w.timeRollOver || decide (clock.minute < w.prevTimeInMin)) := by
  have hdrip : (w.given num clock startTime duration days).info.dripInfo num =
      ⟨(w.info.dripInfo num).state, duration, startTime, days⟩ := by
    simp [World.given, World.modifyDrip]
  unfold World.nextAction
  rw [hdrip, ← dripAction_setting]
  rfl

/-- A call of `update_drip` that does something commands the status it arrives at. -/
theorem valves_nextAction : (w.nextAction num).valves =
    if w.nextAction num ≠ .stay then [(w.nextAction num).status (w.dripStatus num)] else [] := by
  cases w.nextAction num <;> rfl

end Call

/-- The statics of `update_drip`. -/
def World.dripStatics (w : World) : (Fin 3 → Bool) × Int × Bool :=
  (w.dripStatus, w.prevTimeInMin, w.timeRollOver)

theorem dripStatics_controlDrip (num : Fin 3) (cmd : Text) (w : World) :
    (controlDrip (num + 1) cmd w).dripStatics = w.dripStatics := by
  have hcore := congrArg World.dripStatics (core_controlDripNum num (strstr cmd (ascii "ON")) w)
  rw [controlDrip_succ]
  exact hcore

/-- A scheduled call depends on the statics, the clock and the settings only. -/
theorem dripStatics_schedule {w v : World} (h : w.dripStatics = v.dripStatics) (num : Fin 3)
    (clock : Sample) (startTime duration days : Int) :
    (updateDrip num (w.given num clock startTime duration days)).1 =
        (updateDrip num (v.given num clock startTime duration days)).1 ∧
      (updateDrip num (w.given num clock startTime duration days)).2.dripStatics =
        (updateDrip num (v.given num clock startTime duration days)).2.dripStatics := by
  obtain ⟨hstatus, hprev, hroll⟩ : w.dripStatus = v.dripStatus ∧
      w.prevTimeInMin = v.prevTimeInMin ∧ w.timeRollOver = v.timeRollOver := by
    unfold World.dripStatics at h
    simpa using h
  have haction : (w.given num clock startTime duration days).nextAction num =
      (v.given num clock startTime duration days).nextAction num := by
    rw [nextAction_given, nextAction_given, hstatus, hprev, hroll]
  have hrolled : (w.given num clock startTime duration days).rolled =
      (v.given num clock startTime duration days).rolled := by
    show (w.timeRollOver || decide (_ < w.prevTimeInMin)) =
      (v.timeRollOver || decide (_ < v.prevTimeInMin))
    rw [hroll, hprev]
    rfl
  refine ⟨?_, ?_⟩
  · rw [updateDrip_result, updateDrip_result, haction]
  · unfold World.dripStatics
    rw [updateDrip_dripStatus, updateDrip_dripStatus, updateDrip_prevTimeInMin,
      updateDrip_prevTimeInMin, updateDrip_timeRollOver, updateDrip_timeRollOver, haction, hrolled]
    show (Function.update w.dripStatus num (DripAction.status _ (w.dripStatus num)), _, _) = _
    rw [hstatus]
    rfl

/-! ## Runs -/

section Step

variable {w : World} (h : ∀ k, (w.drip k).Reported)

include h

theorem right_schedule (num : Fin 3) (clock : Sample) (startTime duration days : Int) :
    (valveCalls.step w (.schedule num clock startTime duration days)).2.Right := by
  let w₀ := w.given num clock startTime duration days
  have hdrip : ∀ k, (updateDrip num w₀).2.drip k =
      if num = k then (w₀.nextAction num).valves.foldl DripView.commanded (w.drip k)
      else w.drip k := by
    intro k
    rw [drip_updateDrip, drip_given]
  refine ⟨fun k => ?_, fun k hk => ?_, ?_, fun hs => by cases hs⟩
  · show ((updateDrip num w₀).2.drip k).Reported
    rw [hdrip]
    split
    · exact (h k).foldl _
    · exact h k
  · have hne : num ≠ k := Ne.symm hk
    show (updateDrip num w₀).2.drip k = w.drip k
    rw [hdrip, if_neg hne]
  · show ((updateDrip num w₀).2.drip num).commands = (w.drip num).commands ++
      if some (updateDrip num w₀).1 = some true then [(updateDrip num w₀).2.dripStatus num]
      else []
    rw [hdrip, if_pos rfl, DripView.commands_foldl, valves_nextAction, updateDrip_result,
      updateDrip_dripStatus, Function.update_self]
    simp

theorem right_command (num : Fin 3) (cmd : Text) :
    (valveCalls.step w (.command num cmd)).2.Right := by
  have hdrip : ∀ k, (controlDrip (num + 1) cmd w).drip k =
      if num = k then (w.drip k).commanded (strstr cmd (ascii "ON")) else w.drip k := by
    intro k
    rw [controlDrip_succ, drip_controlDripNum]
  refine ⟨fun k => ?_, fun k hk => ?_, ?_, fun _ => ?_⟩
  · show ((controlDrip (num + 1) cmd w).drip k).Reported
    rw [hdrip]
    split
    · exact DripView.reported_commanded _ _
    · exact h k
  · have hne : num ≠ k := Ne.symm hk
    show (controlDrip (num + 1) cmd w).drip k = w.drip k
    rw [hdrip, if_neg hne]
  · show ((controlDrip (num + 1) cmd w).drip num).commands = _
    rw [hdrip, if_pos rfl]
    rfl
  · exact congrArg Prod.fst (dripStatics_controlDrip num cmd w)

/-- **The step lemma.** -/
theorem right_step (c : ValveCall) : (valveCalls.step w c).2.Right := by
  cases c with
  | schedule num clock startTime duration days =>
    exact right_schedule h num clock startTime duration days
  | command num cmd => exact right_command h num cmd

end Step

/-- **The reported state of the drips.** In every run of calls from a boot: after every call the
record of each drip is its last command, its last pulse and its LED; a call leaves the other drips
alone; and the schedule does what it does with the manual commands left out. -/
theorem valveCalls_reported (flash : Text → Option Int) (calls : List ValveCall) :
    (∀ k, ((boot flash).drip k).Reported) ∧
      (∀ o ∈ valveCalls.run (boot flash) calls, o.Right) ∧
      (valveCalls.run (boot flash) calls).filterMap ValveReport.schedule =
        (valveCalls.run (boot flash) (calls.filter ValveCall.isSchedule)).filterMap
          ValveReport.schedule := by
  have hboot : ∀ k, ((boot flash).drip k).Reported := by
    intro k
    rw [drip_boot]
    exact DripView.reported_booted
  refine ⟨hboot, ?_, ?_⟩
  · have hsteps : valveCalls.Along (fun _ _ => True) (boot flash) calls :=
      Mealy.along_of_forall_mem (fun _ _ => trivial) _
    exact Mealy.forall_run (I := fun w => ∀ k, (w.drip k).Reported)
      (fun w c hinv _ => ⟨(right_step hinv c).reported, right_step hinv c⟩) hboot hsteps
  · apply Mealy.filterMap_run_filter (R := fun w v => w.dripStatics = v.dripStatics)
    · intro w v c hc h
      cases c with
      | command num cmd => cases hc
      | schedule num clock startTime duration days =>
        obtain ⟨hresult, hstatics⟩ := dripStatics_schedule h num clock startTime duration days
        have hstatus := congrArg Prod.fst hstatics
        exact ⟨hstatics, congrArg some (Prod.ext hresult hstatus)⟩
    · intro w v c hc h
      cases c with
      | command num cmd => exact ⟨(dripStatics_controlDrip num cmd w).trans h, rfl⟩
      | schedule num clock startTime duration days => cases hc
    · rfl

end GreenHouse
