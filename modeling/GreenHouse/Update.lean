import GreenHouse.Control
import GreenHouse.Topics

/-!
# The update functions (`update.c`, `sntp.c`) and the loop (`main.c`)

What the functions read from the outside is their input: a sensor reading, the status polls and the
local time of a synchronisation, and the values of the millisecond counter at the places where the
code reads it. What a reading does to the pin of the sensor is left to `Call.sense`.

`updateDrip_eq` says once what a call of `update_drip` does: the roll-over flag is brought up to
date, and the drip stays, opens or closes (`dripAction`).
-/

namespace GreenHouse

open CInt CText

/-! ## Fans -/

def fanOffTempHyst : Int := 2

/-- The four pin writes of `update_fan`. -/
def setFans (on : Bool) (w : World) : World :=
  let w := w.gpioSetLevel (fanCtrlPin 0) on
  let w := w.gpioSetLevel (fanCtrlPin 1) on
  let w := w.gpioSetLevel (fanLedPin 0) (!on)
  w.gpioSetLevel (fanLedPin 1) (!on)

def updateFan (w : World) : World :=
  if w.info.temp ≥ w.info.fanTempOn ∧ w.fanStatus = false then
    setFans true { w with fanStatus := true }
  else if w.info.temp ≤ i32 (w.info.fanTempOn - fanOffTempHyst) ∧ w.fanStatus = true then
    setFans false { w with fanStatus := false }
  else w

/-! ## Valves -/

/-- `days & (1 << day)`. -/
def dayEnabled (days day : Int) : Bool :=
  BitVec.ofInt 32 days &&& (1#32 <<< day.toNat) != 0#32

def currTimeInMin (info : GreenHouseInfo) : Int := info.min + info.hour * 60

def offTimeInMin (d : DripInfo) : Int := (i32 (d.startTime + d.duration)).tmod (60 * 24)

/-- The test under which `update_drip` opens a drip that is off. -/
def OpenTest (d : DripInfo) (curr day : Int) : Prop :=
  curr ≥ d.startTime ∧ curr < i32 (d.startTime + d.duration) ∧ dayEnabled d.days day = true

instance (d : DripInfo) (curr day : Int) : Decidable (OpenTest d curr day) :=
  inferInstanceAs (Decidable (_ ∧ _ ∧ _))

def updateDrip (num : Fin 3) (w : World) : Bool × World :=
  let drip := w.info.dripInfo num
  let curr := currTimeInMin w.info
  let off := offTimeInMin drip
  let w := if curr < w.prevTimeInMin then { w with timeRollOver := true } else w
  let (result, w) :=
    if w.dripStatus num = false then
      if OpenTest drip curr w.info.day then
        let w := { w with dripStatus := Function.update w.dripStatus num true }
        let w := controlDrip (num + 1) (ascii "ON") w
        let w := { w with timeRollOver := false }
        (true, w.setDripState num true)
      else (false, w)
    else if off < drip.startTime then
      if curr ≥ off ∧ w.timeRollOver = true then
        let w := { w with dripStatus := Function.update w.dripStatus num false }
        let w := controlDrip (num + 1) (ascii "Off") w
        (true, w.setDripState num false)
      else (false, w)
    else if curr ≥ off then
      let w := { w with dripStatus := Function.update w.dripStatus num false }
      let w := controlDrip (num + 1) (ascii "Off") w
      (true, w.setDripState num false)
    else (false, w)
  (result, { w with prevTimeInMin := curr })

/-! ## Time -/

def sntpUpdateIntervalMsec : Int := 1000 * 60 * 60 * 1

inductive SyncStatus where
  | reset
  | completed
  | inProgress
  deriving DecidableEq

/-- What one call of `sntp_get_time` meets: the answers to its status polls and the local time it
finds at the end. -/
structure SntpReply where
  poll : Nat → SyncStatus
  tmSec : Int
  tmMin : Int
  tmHour : Int
  tmWday : Int

def retryCount : Nat := 15

/-- The wait loop of `sntp_get_time`: the value of `retry` at its end. The poll at `retry = n`
is `poll n`. -/
def sntpWait (poll : Nat → SyncStatus) : Nat → Nat → Nat
  | 0, retry => retry
  | fuel + 1, retry =>
    if poll retry = .reset then
      if retry + 1 < retryCount then sntpWait poll fuel (retry + 1) else retry + 1
    else retry

/-- `sntp_get_time`: whether it passed, and the stored base time, which is stored either way. -/
def sntpGetTime (r : SntpReply) (w : World) : Bool × World :=
  let retry := sntpWait r.poll retryCount 0
  let result := if retry = retryCount then false else true
  (result, { w with info := { w.info with
      sntpSec := r.tmSec, sntpMin := r.tmMin, sntpHour := r.tmHour, sntpDay := r.tmWday } })

/-- What one call of `update_time` meets: the two possible synchronisations and the four values of
`xTaskGetTickCount() * portTICK_PERIOD_MS` (a `uint32_t`). -/
structure TimeEnv where
  first : SntpReply
  msecFirst : Int
  msecTest : Int
  resync : SntpReply
  msecResync : Int
  msecNow : Int

/-- The first block of `update_time`: synchronise until it has worked once. -/
def updateTimeFirst (env : TimeEnv) (w : World) : World :=
  if w.info.timeIsValid = false then
    let (result, w) := sntpGetTime env.first w
    if result then
      { w with mSecLastSNTP := i32 env.msecFirst, info := { w.info with timeIsValid := true } }
    else { w with info := { w.info with timeIsValid := false } }
  else w

/-- The test of the second block: the counter is unsigned, so the sum is compared as unsigned. -/
def ResyncDue (env : TimeEnv) (w : World) : Prop :=
  u32 env.msecTest > u32 (i32 (w.mSecLastSNTP + sntpUpdateIntervalMsec))

instance (env : TimeEnv) (w : World) : Decidable (ResyncDue env w) :=
  inferInstanceAs (Decidable (_ < _))

def updateTimeResync (env : TimeEnv) (w : World) : World :=
  if ResyncDue env w then
    let w := (sntpGetTime env.resync w).2
    { w with mSecLastSNTP := i32 env.msecResync }
  else w

def updateTimeClock (env : TimeEnv) (w : World) : World :=
  let mSecCount := i32 (i32 env.msecNow - w.mSecLastSNTP)
  let secCount := mSecCount.tdiv 1000
  { w with info := { w.info with
      sec := (w.info.sntpSec + secCount).tmod 60
      min := (w.info.sntpMin + (w.info.sntpSec + secCount).tdiv 60).tmod 60
      hour := (w.info.sntpHour + (w.info.sntpSec + secCount).tdiv 3600).tmod 24
      day := w.info.sntpDay } }

def updateTime (env : TimeEnv) (w : World) : World :=
  updateTimeClock env (updateTimeResync env (updateTimeFirst env w))

/-! ## Measurements -/

def byteOf (v : Int) : UInt8 := UInt8.ofNat (v % 256).toNat

/-- The payload `esp_mqtt_client_publish(client, topic, result_string, 2, 0, 0)` sends after
`itoa(v, result_string, 10)`: two bytes of the zero-filled buffer. -/
def twoBytes (v : Int) : Text := (itoa v ++ [0]).take 2

/-- A history after a reading: the copy made before the reading goes back one slot further. -/
def pushHistory (history dummy : Text) (v : Int) : Text :=
  memcpy (history.set 0 (byteOf v)) 1 dummy (historyDepth - 1)

/-- `Update_Temperature`, with `Request_Temperature` returning `reading`. -/
def updateTemperature (reading : Int) (w : World) : World :=
  let dummy := memcpy w.dummyHistory 0 w.tempHistory historyDepth
  let temp := i8 reading
  let history := pushHistory w.tempHistory dummy temp
  let w := { w with dummyHistory := dummy, temp := temp, tempHistory := history }
  if history[0]? ≠ history[1]? then w.emit (.publish tempStatusTopic (twoBytes w.temp)) else w

/-- `Update_Humidity`, with `Request_Humidity` returning `reading`. It publishes `temp`. -/
def updateHumidity (reading : Int) (w : World) : World :=
  let dummy := memcpy w.dummyHistory 0 w.humidityHistory historyDepth
  let humidity := i8 reading
  let history := pushHistory w.humidityHistory dummy humidity
  let w := { w with dummyHistory := dummy, humidity := humidity, humidityHistory := history }
  if history[0]? ≠ history[1]? then w.emit (.publish humidityStatusTopic (twoBytes w.temp)) else w

/-! ## The loop (`main.c`) -/

structure LoopEnv where
  temperature : Int
  humidity : Int
  time : TimeEnv

/-- The scheduler part of an iteration of `app_loop`. -/
def updateDrips (w : World) : World :=
  if w.info.timeIsValid then
    (updateDrip 2 (updateDrip 1 (updateDrip 0 w).2).2).2
  else w

/-- An iteration of `app_loop` up to and including `update_fan`. -/
def appLoopFan (env : LoopEnv) (w : World) : World :=
  updateFan
    (updateTime env.time (updateHumidity env.humidity (updateTemperature env.temperature w)))

def appLoop (env : LoopEnv) (w : World) : World := updateDrips (appLoopFan env w)

/-! ## What a call of `update_drip` does -/

inductive DripAction where
  | stay
  | open
  | close
  deriving DecidableEq

/-- The decision of `update_drip`, from the status of the drip, its settings, the clock and the
roll-over flag. -/
def dripAction (on : Bool) (d : DripInfo) (curr day : Int) (roll : Bool) : DripAction :=
  if on = false then if OpenTest d curr day then .open else .stay
  else if offTimeInMin d < d.startTime then
    if curr ≥ offTimeInMin d ∧ roll = true then .close else .stay
  else if curr ≥ offTimeInMin d then .close else .stay

namespace World

/-- The roll-over flag as a call of `update_drip` finds it after its first test. -/
def rolled (w : World) : Bool := w.timeRollOver || decide (currTimeInMin w.info < w.prevTimeInMin)

def nextAction (num : Fin 3) (w : World) : DripAction :=
  dripAction (w.dripStatus num) (w.info.dripInfo num) (currTimeInMin w.info) w.info.day w.rolled

/-- The world after an action of `update_drip(num)`, all but the clock it remembers. -/
def act (num : Fin 3) : DripAction → World → World
  | .stay, w => { w with timeRollOver := w.rolled }
  | .open, w =>
    { controlDripNum num true w with
      dripStatus := Function.update w.dripStatus num true, timeRollOver := false }
  | .close, w =>
    { controlDripNum num false w with
      dripStatus := Function.update w.dripStatus num false, timeRollOver := w.rolled }

end World

/-- **`update_drip` in one equation**: it brings the roll-over flag up to date, takes the action and
remembers the clock; its result says whether it did something. -/
theorem updateDrip_eq (num : Fin 3) (w : World) :
    updateDrip num w = (decide (w.nextAction num ≠ .stay),
      { w.act num (w.nextAction num) with prevTimeInMin := currTimeInMin w.info }) := by
  have hflag : (if currTimeInMin w.info < w.prevTimeInMin then { w with timeRollOver := true }
      else w) = { w with timeRollOver := w.rolled } := by
    by_cases h : currTimeInMin w.info < w.prevTimeInMin <;> simp [World.rolled, h]
  have hon : strstr (ascii "ON") (ascii "ON") = true := by decide
  have hoff : strstr (ascii "Off") (ascii "ON") = false := by decide
  unfold updateDrip
  simp only [hflag, controlDrip_succ, hon, hoff, World.nextAction, dripAction]
  let remember : World → Bool × World := fun v =>
    (true, { v with prevTimeInMin := currTimeInMin w.info })
  have hopen := setDripState_statics num true w (Function.update w.dripStatus num true) false
  have hclose := setDripState_statics num false w (Function.update w.dripStatus num false) w.rolled
  -- the branches of the decision are the branches of the code
  split
  · split
    · rw [controlDripNum_statics num true w]
      exact congrArg remember hopen
    · rfl
  · split
    · split
      · rw [controlDripNum_statics num false w]
        exact congrArg remember hclose
      · rfl
    · split
      · rw [controlDripNum_statics num false w]
        exact congrArg remember hclose
      · rfl

/-! ## What the blocks of `update_time` do -/

/-- A synchronisation stores the local time it finds and the reading of the counter. -/
def World.rebase (r : SntpReply) (last : Int) (valid : Bool) (w : World) : World :=
  { w with
    mSecLastSNTP := last
    info := { w.info with
      sntpSec := r.tmSec, sntpMin := r.tmMin, sntpHour := r.tmHour, sntpDay := r.tmWday
      timeIsValid := valid } }

section Blocks

variable {w : World}

theorem updateTimeFirst_of_valid (h : w.info.timeIsValid = true) (env : TimeEnv) :
    updateTimeFirst env w = w := by
  unfold updateTimeFirst
  rw [if_neg (by rw [h]; decide)]

/-- The time is stored whether the call passed or not; the reading of the counter only if it did. -/
theorem updateTimeFirst_of_invalid (h : w.info.timeIsValid = false) (env : TimeEnv) :
    updateTimeFirst env w =
      w.rebase env.first
        (if (sntpGetTime env.first w).1 = true then i32 env.msecFirst else w.mSecLastSNTP)
        (sntpGetTime env.first w).1 := by
  unfold updateTimeFirst
  rw [if_pos h]
  show (if (sntpGetTime env.first w).1 = true then _ else _) = _
  cases (sntpGetTime env.first w).1 <;> rfl

theorem updateTimeResync_of_due {env : TimeEnv} (h : ResyncDue env w) :
    updateTimeResync env w =
      w.rebase env.resync (i32 env.msecResync) w.info.timeIsValid := if_pos h

theorem updateTimeResync_of_not_due {env : TimeEnv} (h : ¬ ResyncDue env w) :
    updateTimeResync env w = w := if_neg h

theorem timeIsValid_updateTimeResync (env : TimeEnv) (w : World) :
    (updateTimeResync env w).info.timeIsValid = w.info.timeIsValid := by
  by_cases h : ResyncDue env w
  · rw [updateTimeResync_of_due h]
    rfl
  · rw [updateTimeResync_of_not_due h]

end Blocks

/-! ## What the measurements and the clock leave alone -/

/-- `w'` differs from `w` at most in the readings, the histories, the clock and answers in the
trace. A valid time stays valid. -/
structure Keeps (w w' : World) : Prop where
  gpio : w'.gpio = w.gpio
  fanStatus : w'.fanStatus = w.fanStatus
  dripStatus : w'.dripStatus = w.dripStatus
  prevTimeInMin : w'.prevTimeInMin = w.prevTimeInMin
  timeRollOver : w'.timeRollOver = w.timeRollOver
  temp : w'.info.temp = w.info.temp
  fanTempOn : w'.info.fanTempOn = w.info.fanTempOn
  dripInfo : w'.info.dripInfo = w.info.dripInfo
  timeIsValid : w.info.timeIsValid = true → w'.info.timeIsValid = true
  trace : ∃ answers : List (Text × Text),
    w'.trace = w.trace ++ answers.map fun a => .publish a.1 a.2

theorem Keeps.refl (w : World) : Keeps w w :=
  ⟨rfl, rfl, rfl, rfl, rfl, rfl, rfl, rfl, id, [], (List.append_nil _).symm⟩

theorem Keeps.trans {w w' w'' : World} (h : Keeps w w') (h' : Keeps w' w'') : Keeps w w'' where
  gpio := h'.gpio.trans h.gpio
  fanStatus := h'.fanStatus.trans h.fanStatus
  dripStatus := h'.dripStatus.trans h.dripStatus
  prevTimeInMin := h'.prevTimeInMin.trans h.prevTimeInMin
  timeRollOver := h'.timeRollOver.trans h.timeRollOver
  temp := h'.temp.trans h.temp
  fanTempOn := h'.fanTempOn.trans h.fanTempOn
  dripInfo := h'.dripInfo.trans h.dripInfo
  timeIsValid := fun hv => h'.timeIsValid (h.timeIsValid hv)
  trace := by
    obtain ⟨as, ht⟩ := h.trace
    obtain ⟨bs, ht'⟩ := h'.trace
    exact ⟨as ++ bs, by rw [ht', ht, List.map_append, List.append_assoc]⟩

section Keeps

variable (w : World)

theorem keeps_publish (topic payload : Text) : Keeps w (w.emit (.publish topic payload)) :=
  ⟨rfl, rfl, rfl, rfl, rfl, rfl, rfl, rfl, id, [(topic, payload)], rfl⟩

theorem keeps_updateTemperature (reading : Int) : Keeps w (updateTemperature reading w) := by
  have hstored : ∀ dummy temp history, Keeps w
      { w with dummyHistory := dummy, temp := temp, tempHistory := history } := fun _ _ _ =>
    ⟨rfl, rfl, rfl, rfl, rfl, rfl, rfl, rfl, id, [], (List.append_nil _).symm⟩
  unfold updateTemperature
  dsimp only
  split
  · exact (hstored _ _ _).trans (keeps_publish _ _ _)
  · exact hstored _ _ _

theorem keeps_updateHumidity (reading : Int) : Keeps w (updateHumidity reading w) := by
  have hstored : ∀ dummy humidity history, Keeps w
      { w with dummyHistory := dummy, humidity := humidity, humidityHistory := history } :=
    fun _ _ _ => ⟨rfl, rfl, rfl, rfl, rfl, rfl, rfl, rfl, id, [], (List.append_nil _).symm⟩
  unfold updateHumidity
  dsimp only
  split
  · exact (hstored _ _ _).trans (keeps_publish _ _ _)
  · exact hstored _ _ _

theorem keeps_rebase (r : SntpReply) (last : Int) {valid : Bool}
    (hv : w.info.timeIsValid = true → valid = true) : Keeps w (w.rebase r last valid) :=
  ⟨rfl, rfl, rfl, rfl, rfl, rfl, rfl, rfl, hv, [], (List.append_nil _).symm⟩

theorem keeps_updateTimeFirst (env : TimeEnv) : Keeps w (updateTimeFirst env w) := by
  cases hv : w.info.timeIsValid with
  | true =>
    rw [updateTimeFirst_of_valid hv]
    exact Keeps.refl w
  | false =>
    rw [updateTimeFirst_of_invalid hv]
    exact keeps_rebase w _ _ fun h => absurd (hv.symm.trans h) (by decide)

theorem keeps_updateTimeResync (env : TimeEnv) : Keeps w (updateTimeResync env w) := by
  by_cases h : ResyncDue env w
  · rw [updateTimeResync_of_due h]
    exact keeps_rebase w _ _ id
  · rw [updateTimeResync_of_not_due h]
    exact Keeps.refl w

theorem keeps_updateTime (env : TimeEnv) : Keeps w (updateTime env w) := by
  have hclock : ∀ v, Keeps v (updateTimeClock env v) := fun v =>
    ⟨rfl, rfl, rfl, rfl, rfl, rfl, rfl, rfl, id, [], (List.append_nil _).symm⟩
  exact ((keeps_updateTimeFirst w env).trans (keeps_updateTimeResync _ env)).trans (hclock _)

/-- An iteration up to `update_fan` keeps all of that and then runs `update_fan`. -/
theorem keeps_appLoopFan (env : LoopEnv) : ∃ v, Keeps w v ∧ appLoopFan env w = updateFan v :=
  ⟨_, ((keeps_updateTemperature w env.temperature).trans
    (keeps_updateHumidity _ env.humidity)).trans (keeps_updateTime _ env.time), rfl⟩

theorem info_updateFan : (updateFan w).info = w.info := by
  unfold updateFan
  split
  · rfl
  · split <;> rfl

end Keeps

end GreenHouse
