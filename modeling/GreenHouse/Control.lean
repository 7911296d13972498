import GreenHouse.World

/-!
# The command functions (`control.c`, `nvs.c`)

`Control_Drip` is a straight-line sequence of GPIO writes, delays and one RAM write, so it is a list
of instructions (`controlDripProg`), run at once by `controlDrip` and one instruction at a time
where two tasks interleave. `core_controlDripNum` says what a call leaves alone.

The flash driver is taken to work: `nvsWrite` stores and `nvsRead` finds what was stored.
-/

namespace GreenHouse

open CInt CText

/-! ## Flash (`nvs.c`) -/

def nvsWrite (key : Text) (val : Int) (w : World) : World :=
  { w.emit (.nvs key val) with flash := Function.update w.flash key (some val) }

/-- `NVS_Read`: the value, or `none` for an error, in which case the target is left as it was. -/
def nvsRead (key : Text) (w : World) : Option Int := w.flash key

/-! ## Fans -/

/-- `Control_Fan` for fan `num + 1`. -/
def controlFan (num : Fin 2) (cmd : Text) (w : World) : World :=
  if strstr cmd (ascii "ON") then
    let w := w.gpioSetLevel (fanCtrlPin num) true
    let w :=
      { w with info := { w.info with fanState := Function.update w.info.fanState num true } }
    w.gpioSetLevel (fanLedPin num) false
  else if strstr cmd (ascii "OFF") then
    let w := w.gpioSetLevel (fanCtrlPin num) false
    let w :=
      { w with info := { w.info with fanState := Function.update w.info.fanState num false } }
    w.gpioSetLevel (fanLedPin num) true
  else w

def controlFanSetTempOn (cmd : Text) (w : World) : World :=
  let tempVal := i8 (atoi cmd)
  if tempVal ≠ 0 then { w with info := { w.info with fanTempOn := tempVal } } else w

/-! ## Valves -/

/-- One statement of `Control_Drip`. -/
inductive Instr where
  | gpioSetLevel (pin : Pin) (level : Bool)
  | vTaskDelay (ms : Nat)
  | setDripState (num : Fin 3) (state : Bool)
  deriving DecidableEq

def Instr.exec : Instr → World → World
  | .gpioSetLevel pin level, w => w.gpioSetLevel pin level
  | .vTaskDelay _, w => w
  | .setDripState num state, w => w.setDripState num state

def execAll (prog : List Instr) (w : World) : World := prog.foldl (fun w i => i.exec w) w

/-- The statements of one command for drip `num + 1`: the opposite coil is switched off, and after
a delay the coil of the direction is pulsed. The first drip's OFF stores its state before it
switches the LED, the five others after it. -/
def controlDripProg : Fin 3 → Bool → List Instr
  | num, true =>
    [.gpioSetLevel (dripOpenCtrlPin num) false, .vTaskDelay 100,
      .gpioSetLevel (dripCloseCtrlPin num) true, .vTaskDelay 50,
      .gpioSetLevel (dripCloseCtrlPin num) false, .gpioSetLevel (solLedPin num) false,
      .setDripState num true]
  | 0, false =>
    [.gpioSetLevel (dripCloseCtrlPin 0) false, .vTaskDelay 100,
      .gpioSetLevel (dripOpenCtrlPin 0) true, .vTaskDelay 50,
      .gpioSetLevel (dripOpenCtrlPin 0) false, .setDripState 0 false,
      .gpioSetLevel (solLedPin 0) true]
  | num, false =>
    [.gpioSetLevel (dripCloseCtrlPin num) false, .vTaskDelay 100,
      .gpioSetLevel (dripOpenCtrlPin num) true, .vTaskDelay 50,
      .gpioSetLevel (dripOpenCtrlPin num) false, .gpioSetLevel (solLedPin num) true,
      .setDripState num false]

/-- The statements of the `default` case of `Control_Drip`. -/
def controlDripDefault : List Instr :=
  [.gpioSetLevel (dripCloseCtrlPin 0) false, .gpioSetLevel (dripCloseCtrlPin 1) false,
    .gpioSetLevel (dripCloseCtrlPin 2) false, .gpioSetLevel (dripOpenCtrlPin 0) false,
    .gpioSetLevel (dripOpenCtrlPin 1) false, .gpioSetLevel (dripOpenCtrlPin 2) false,
    .gpioSetLevel (solLedPin 0) true, .gpioSetLevel (solLedPin 1) true,
    .gpioSetLevel (solLedPin 2) true, .setDripState 0 false, .setDripState 1 false,
    .setDripState 2 false]

def controlDripNum (num : Fin 3) (on : Bool) (w : World) : World :=
  execAll (controlDripProg num on) (w.emit (.valve num on))

def controlDrip (id : Nat) (cmd : Text) (w : World) : World :=
  match id with
  | 1 => controlDripNum 0 (strstr cmd (ascii "ON")) w
  | 2 => controlDripNum 1 (strstr cmd (ascii "ON")) w
  | 3 => controlDripNum 2 (strstr cmd (ascii "ON")) w
  | _ => execAll controlDripDefault w

theorem controlDrip_succ (cmd : Text) (w : World) : ∀ num : Fin 3,
    controlDrip (num + 1) cmd w = controlDripNum num (strstr cmd (ascii "ON")) w
  | 0 => rfl
  | 1 => rfl
  | 2 => rfl

/-! ### What a valve command leaves alone -/

/-- Everything but the pins, the trace and the reported states of the drips. -/
def World.core (w : World) : World :=
  { w with
    gpio := fun _ => false
    trace := []
    info := { w.info with dripInfo := fun n => { w.info.dripInfo n with state := false } } }

theorem core_exec (i : Instr) (w : World) : (i.exec w).core = w.core := by
  cases i with
  | gpioSetLevel pin level => rfl
  | vTaskDelay ms => rfl
  | setDripState num state =>
    have hinfo : (fun n => { (w.setDripState num state).info.dripInfo n with state := false }) =
        fun n => { w.info.dripInfo n with state := false } := by
      funext n
      by_cases h : n = num
      · subst h; simp [World.setDripState, World.modifyDrip]
      · simp [World.setDripState, World.modifyDrip, h]
    unfold World.core Instr.exec
    rw [hinfo]
    rfl

theorem core_execAll (prog : List Instr) (w : World) : (execAll prog w).core = w.core := by
  unfold execAll
  induction prog generalizing w with
  | nil => rfl
  | cons i prog ih => rw [List.foldl_cons, ih, core_exec]

theorem core_controlDripNum (num : Fin 3) (on : Bool) (w : World) :
    (controlDripNum num on w).core = w.core := by
  unfold controlDripNum
  rw [core_execAll]
  rfl

theorem execAll_gpio {pin : Pin} {prog : List Instr}
    (h : ∀ level, Instr.gpioSetLevel pin level ∉ prog) (w : World) :
    (execAll prog w).gpio pin = w.gpio pin := by
  unfold execAll
  induction prog generalizing w with
  | nil => rfl
  | cons i prog ih =>
    have hi : (i.exec w).gpio pin = w.gpio pin := by
      cases i with
      | gpioSetLevel p level =>
        have hne : pin ≠ p := by
          rintro rfl
          exact h level List.mem_cons_self
        exact Function.update_of_ne hne _ _
      | vTaskDelay ms => rfl
      | setDripState num state => rfl
    rw [List.foldl_cons, ih (fun level hm => h level (List.mem_cons_of_mem _ hm)), hi]

section Frame

variable (num : Fin 3) (on : Bool) (w : World)

/-- A valve command writes the reported state of its own drip and no other field. -/
theorem controlDripNum_info :
    (controlDripNum num on w).info = (w.setDripState num on).info := by
  cases on with
  | true => rfl
  | false =>
    match num with
    | 0 => rfl
    | 1 => rfl
    | 2 => rfl

theorem setDripState_controlDripNum :
    (controlDripNum num on w).setDripState num on = controlDripNum num on w := by
  have hinfo : ((controlDripNum num on w).setDripState num on).info =
      (controlDripNum num on w).info := by
    show (World.setDripState num on _).info = _
    simp only [World.setDripState, World.modifyDrip, controlDripNum_info, Function.update_self,
      Function.update_idem]
  show { controlDripNum num on w with
    info := ((controlDripNum num on w).setDripState num on).info } = _
  rw [hinfo]

theorem controlDripNum_statics (status : Fin 3 → Bool) (roll : Bool) :
    controlDripNum num on { w with dripStatus := status, timeRollOver := roll } =
      { controlDripNum num on w with dripStatus := status, timeRollOver := roll } := by
  cases on with
  | true => rfl
  | false =>
    match num with
    | 0 => rfl
    | 1 => rfl
    | 2 => rfl

theorem setDripState_statics (status : Fin 3 → Bool) (roll : Bool) :
    World.setDripState num on { controlDripNum num on w with
      dripStatus := status, timeRollOver := roll } =
      { controlDripNum num on w with dripStatus := status, timeRollOver := roll } := by
  have h := setDripState_controlDripNum num on w
  show { (controlDripNum num on w).setDripState num on with
    dripStatus := status, timeRollOver := roll } = _
  rw [h]

theorem controlDripNum_trace :
    (controlDripNum num on w).trace = w.trace ++
      [.valve num on,
        .gpio (if on then dripOpenCtrlPin num else dripCloseCtrlPin num) false,
        .gpio (if on then dripCloseCtrlPin num else dripOpenCtrlPin num) true,
        .gpio (if on then dripCloseCtrlPin num else dripOpenCtrlPin num) false,
        .gpio (solLedPin num) (!on)] := by
  cases on with
  | true => simp [controlDripNum, execAll, controlDripProg, Instr.exec, World.gpioSetLevel,
      World.emit, World.setDripState, World.modifyDrip]
  | false =>
    match num with
    | 0 => simp [controlDripNum, execAll, controlDripProg, Instr.exec, World.gpioSetLevel,
        World.emit, World.setDripState, World.modifyDrip]
    | 1 => simp [controlDripNum, execAll, controlDripProg, Instr.exec, World.gpioSetLevel,
        World.emit, World.setDripState, World.modifyDrip]
    | 2 => simp [controlDripNum, execAll, controlDripProg, Instr.exec, World.gpioSetLevel,
        World.emit, World.setDripState, World.modifyDrip]

end Frame

/-! ## Schedules -/

/-- The text a `sprintf(key, "DRIP_%d_...", id)` builds for drip `num + 1`. -/
def dripKey (num : Fin 3) (field : String) : Text :=
  ascii "DRIP_" ++ itoa (num + 1 : Nat) ++ ascii "_" ++ ascii field

def dripStartKey (num : Fin 3) : Text := dripKey num "START"
def dripDurKey (num : Fin 3) : Text := dripKey num "DUR"
def dripDaysKey (num : Fin 3) : Text := dripKey num "DAYS"

def storeStartTime (num : Fin 3) (v : Int) (w : World) : World :=
  nvsWrite (dripStartKey num) v (w.modifyDrip num ({ · with startTime := v }))

def storeDuration (num : Fin 3) (v : Int) (w : World) : World :=
  nvsWrite (dripDurKey num) v (w.modifyDrip num ({ · with duration := v }))

def storeDays (num : Fin 3) (v : Int) (w : World) : World :=
  nvsWrite (dripDaysKey num) v (w.modifyDrip num ({ · with days := v }))

/-- The minutes `Control_Drip_Start_Time` computes from the text before and after the colon. -/
def startTimeOf (onTime minutes : Text) : Int :=
  let hour := i32 (atoi onTime * 60)
  let hour := if strstr onTime (ascii "PM") then i32 (hour + 12 * 60) else hour
  i32 (hour + atoi minutes)

/-- `Control_Drip_Start_Time` for drip `num + 1`. Without a colon `strchr` returns NULL and the text
behind it is read through the incremented NULL. -/
def controlDripStartTime (num : Fin 3) (onTime : Text) (w : World) : World × Option Fault :=
  match afterChr onTime 58 with
  | none => (w, some .nullRead)
  | some minutes => (storeStartTime num (startTimeOf onTime minutes) w, none)

def controlDripDurationTime (num : Fin 3) (duration : Text) (w : World) : World :=
  storeDuration num (atoi duration) w

def controlDripDays (num : Fin 3) (days : Text) (w : World) : World :=
  storeDays num (atoi days) w

end GreenHouse
