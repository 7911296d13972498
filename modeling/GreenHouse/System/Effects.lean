import GreenHouse.Settings.Registers
import GreenHouse.System.Board

/-!
# What calls and messages do to the outside

Every change of a pin and of the flash is an event of the trace, and the events of a step say all
about the pins and the flash (`Emits`). `routine_exec`, `routine_sendStartSignal` and `routine_act`
say what a call of `app_loop` and a message can do: they are made of whole phrases (`Phrase`), with
no pin but those of the valves, the fans, their LEDs and the sensor, no key but the nine of the drip
settings, and nothing published but the answers (`Answer`).

`act_settings` is the inversion of a message: it sets one of the nine settings, in RAM and in flash,
or none.
-/

namespace GreenHouse

open CInt CText

/-! ## Events tell the pins and the flash -/

namespace Event

def applyPin (gpio : Pin → Bool) : Event → Pin → Bool
  | .gpio pin level => Function.update gpio pin level
  | _ => gpio

def pins : Event → List Pin
  | .gpio pin _ => [pin]
  | _ => []

def applyFlash (flash : Text → Option Int) : Event → Text → Option Int
  | .nvs key val => Function.update flash key (some val)
  | _ => flash

end Event

/-- From `w` to `w'` the events happened, and they alone wrote the pins and the flash. -/
structure Emits (es : List Event) (w w' : World) : Prop where
  trace : w'.trace = w.trace ++ es
  gpio : w'.gpio = es.foldl Event.applyPin w.gpio
  flash : w'.flash = es.foldl Event.applyFlash w.flash

section Emits

variable {es es' : List Event} {w w' w'' : World}

theorem Emits.of_eq (htrace : w'.trace = w.trace) (hgpio : w'.gpio = w.gpio)
    (hflash : w'.flash = w.flash) : Emits [] w w' :=
  ⟨htrace.trans (List.append_nil _).symm, hgpio, hflash⟩

theorem Emits.trans (h : Emits es w w') (h' : Emits es' w' w'') : Emits (es ++ es') w w'' where
  trace := by rw [h'.trace, h.trace, List.append_assoc]
  gpio := by rw [h'.gpio, h.gpio, List.foldl_append]
  flash := by rw [h'.flash, h.flash, List.foldl_append]

/-- A pin without an event keeps its level. -/
theorem Emits.gpio_eq (h : Emits es w w') {pin : Pin} (hpin : ∀ level, Event.gpio pin level ∉ es) :
    w'.gpio pin = w.gpio pin := by
  rw [h.gpio]
  generalize w.gpio = gpio
  clear h
  induction es generalizing gpio with
  | nil => rfl
  | cons e es ih =>
    have he : e.applyPin gpio pin = gpio pin := by
      cases e with
      | gpio p level =>
        have hne : pin ≠ p := by
          rintro rfl
          exact hpin level List.mem_cons_self
        exact Function.update_of_ne hne _ _
      | _ => rfl
    rw [List.foldl_cons, ih fun level hm => hpin level (List.mem_cons_of_mem _ hm), he]

end Emits

/-! ## What happens after `Init` -/

/-- What the firmware publishes, and on which topic. -/
inductive Answer : Text → Text → Prop
  | temp (v : Int) : Answer tempStatusTopic (twoBytes v)
  | tempHistory (history : Text) : Answer tempHistoryTopic (history.take historyDepth)
  | humidity (v : Int) : Answer humidityStatusTopic (twoBytes v)
  | humidityHistory (history : Text) : Answer humidityHistoryTopic (history.take historyDepth)
  | fanState (on : Bool) : Answer fanGetStatePubTopic (stateText on)
  | fanTempOn (v : Int) : Answer fanGetTempOnPubTopic (itoa v)
  | status (num : Fin 3) (on : Bool) : Answer (dripStatusTopic num) (stateText on)
  | startTime (num : Fin 3) (v : Int) : Answer (dripStartTimeTopic num) (convertTimeToString v)
  | duration (num : Fin 3) (v : Int) : Answer (dripDurationTopic num) (itoa v)
  | days (num : Fin 3) (v : Int) : Answer (dripDaysTopic num) (itoa v)

/-- The pins that the loop and the handler write: coils and LEDs of the valves, outputs and LEDs of
the fans, the line of the sensor. -/
def routinePins : List Pin :=
  [dht11CtrlPin, fanCtrlPin 0, fanCtrlPin 1, fanLedPin 0, fanLedPin 1] ++
  [0, 1, 2].flatMap fun num => [dripOpenCtrlPin num, dripCloseCtrlPin num, solLedPin num]

/-- The events of `Control_Drip`: the opposite coil off, the coil of the direction on and off, the
LED. -/
def commandEvents (num : Fin 3) (on : Bool) : List Event :=
  [.valve num on,
    .gpio (if on then dripOpenCtrlPin num else dripCloseCtrlPin num) false,
    .gpio (if on then dripCloseCtrlPin num else dripOpenCtrlPin num) true,
    .gpio (if on then dripCloseCtrlPin num else dripOpenCtrlPin num) false,
    .gpio (solLedPin num) (!on)]

/-- What the loop and the handler do to the outside, in one piece each: a valve command, the
switching of `update_fan` and of `Control_Fan`, a start signal of the sensor, a setting stored, an
answer. -/
inductive Phrase : List Event → Prop
  | command (num : Fin 3) (on : Bool) : Phrase (commandEvents num on)
  | fans (on : Bool) : Phrase [.gpio (fanCtrlPin 0) on, .gpio (fanCtrlPin 1) on,
      .gpio (fanLedPin 0) (!on), .gpio (fanLedPin 1) (!on)]
  | fan (fan : Fin 2) (on : Bool) : Phrase [.gpio (fanCtrlPin fan) on, .gpio (fanLedPin fan) (!on)]
  | start : Phrase [.gpio dht11CtrlPin false, .gpio dht11CtrlPin true]
  | store (r : Register) {val : Int} (hval : InI32 val) : Phrase [.nvs r.setting.key val]
  | answer {topic payload : Text} (h : Answer topic payload) : Phrase [.publish topic payload]

theorem Phrase.pin_mem {p : List Event} (h : Phrase p) {pin : Pin} {level : Bool}
    (hm : .gpio pin level ∈ p) : pin ∈ routinePins := by
  have hfan : ∀ fan, fanCtrlPin fan ∈ routinePins ∧ fanLedPin fan ∈ routinePins := by decide
  cases h with
  | command num on =>
    have hpins : ∀ num on, ∀ e ∈ commandEvents num on, ∀ p ∈ e.pins, p ∈ routinePins := by decide
    exact hpins num on _ hm pin List.mem_cons_self
  | fans on =>
    simp only [List.mem_cons, List.not_mem_nil, Event.gpio.injEq, or_false] at hm
    rcases hm with h | h | h | h
    · exact h.1 ▸ (hfan 0).1
    · exact h.1 ▸ (hfan 1).1
    · exact h.1 ▸ (hfan 0).2
    · exact h.1 ▸ (hfan 1).2
  | fan fan on =>
    simp only [List.mem_cons, List.not_mem_nil, Event.gpio.injEq, or_false] at hm
    rcases hm with h | h
    · exact h.1 ▸ (hfan fan).1
    · exact h.1 ▸ (hfan fan).2
  | start =>
    simp only [List.mem_cons, List.not_mem_nil, Event.gpio.injEq, or_false] at hm
    rcases hm with h | h <;> exact h.1 ▸ List.mem_cons_self
  | store r hval => simp at hm
  | answer h => simp at hm

/-- The step from `w` to `w'` is made of whole phrases. -/
def Routine (w w' : World) : Prop :=
  ∃ ps : List (List Event), Emits ps.flatten w w' ∧ ∀ p ∈ ps, Phrase p

section Routine

variable {w w' w'' : World}

theorem Routine.of_eq (htrace : w'.trace = w.trace) (hgpio : w'.gpio = w.gpio)
    (hflash : w'.flash = w.flash) : Routine w w' := ⟨[], .of_eq htrace hgpio hflash, nofun⟩

theorem Routine.refl (w : World) : Routine w w := .of_eq rfl rfl rfl

theorem Routine.trans (h : Routine w w') (h' : Routine w' w'') : Routine w w'' := by
  obtain ⟨ps, hps, hr⟩ := h
  obtain ⟨ps', hps', hr'⟩ := h'
  refine ⟨ps ++ ps', List.flatten_append ▸ hps.trans hps', fun p hp => ?_⟩
  rcases List.mem_append.1 hp with hp | hp
  · exact hr p hp
  · exact hr' p hp

/-- RAM does not count. -/
theorem Routine.of_ram (h : Routine w' w'') (htrace : w'.trace = w.trace) (hgpio : w'.gpio = w.gpio)
    (hflash : w'.flash = w.flash) : Routine w w'' :=
  (Routine.of_eq htrace hgpio hflash).trans h

theorem Phrase.routine {p : List Event} (hp : Phrase p) (h : Emits p w w') : Routine w w' :=
  ⟨[p], by rwa [List.flatten_singleton], fun q hq => by rwa [List.mem_singleton.1 hq]⟩

/-- A pin that is not listed keeps its level. -/
theorem Routine.gpio {pin : Pin} (h : Routine w w') (hpin : pin ∉ routinePins) :
    w'.gpio pin = w.gpio pin := by
  obtain ⟨ps, hps, hr⟩ := h
  refine hps.gpio_eq fun level hm => ?_
  obtain ⟨p, hp, hm⟩ := List.mem_flatten.1 hm
  exact hpin ((hr p hp).pin_mem hm)

theorem routine_publish {topic payload : Text} (h : Answer topic payload) (w : World) :
    Routine w (w.emit (.publish topic payload)) := (Phrase.answer h).routine ⟨rfl, rfl, rfl⟩

theorem emits_controlDripNum (num : Fin 3) (on : Bool) (w : World) :
    Emits (commandEvents num on) w (controlDripNum num on w) where
  trace := controlDripNum_trace num on w
  gpio := by
    cases on with
    | true => rfl
    | false =>
      match num with
      | 0 => rfl
      | 1 => rfl
      | 2 => rfl
  flash := by
    have hcore := congrArg World.flash (core_controlDripNum num on w)
    exact hcore

theorem routine_controlDripNum (num : Fin 3) (on : Bool) (w : World) :
    Routine w (controlDripNum num on w) := (Phrase.command num on).routine (emits_controlDripNum ..)

theorem routine_sendStartSignal (w : World) : Routine w (sendStartSignal w) :=
  Phrase.start.routine ⟨by simp [sendStartSignal, World.gpioSetLevel, World.emit], rfl, rfl⟩

theorem routine_setFans (on : Bool) (w : World) : Routine w (setFans on w) :=
  (Phrase.fans on).routine ⟨by simp [setFans, World.gpioSetLevel, World.emit], rfl, rfl⟩

theorem routine_updateFan (w : World) : Routine w (updateFan w) := by
  unfold updateFan
  split
  · exact (routine_setFans true { w with fanStatus := true }).of_ram rfl rfl rfl
  · split
    · exact (routine_setFans false { w with fanStatus := false }).of_ram rfl rfl rfl
    · exact .refl w

theorem routine_updateDrip (num : Fin 3) (w : World) : Routine w (updateDrip num w).2 := by
  rw [updateDrip_eq]
  cases w.nextAction num with
  | stay => exact .of_eq rfl rfl rfl
  | «open» => exact (routine_controlDripNum num true w).trans (.of_eq rfl rfl rfl)
  | close => exact (routine_controlDripNum num false w).trans (.of_eq rfl rfl rfl)

theorem routine_updateTemperature (reading : Int) (w : World) :
    Routine w (updateTemperature reading w) := by
  unfold updateTemperature
  dsimp only
  split
  · exact (routine_publish (.temp _) _).of_ram rfl rfl rfl
  · exact .of_eq rfl rfl rfl

theorem routine_updateHumidity (reading : Int) (w : World) :
    Routine w (updateHumidity reading w) := by
  unfold updateHumidity
  dsimp only
  split
  · exact (routine_publish (.humidity _) _).of_ram rfl rfl rfl
  · exact .of_eq rfl rfl rfl

theorem routine_updateTime (env : TimeEnv) (w : World) : Routine w (updateTime env w) := by
  have hfirst : Routine w (updateTimeFirst env w) := by
    cases hv : w.info.timeIsValid with
    | true =>
      rw [updateTimeFirst_of_valid hv]
      exact .refl w
    | false =>
      rw [updateTimeFirst_of_invalid hv]
      exact .of_eq rfl rfl rfl
  have hresync : ∀ v, Routine v (updateTimeResync env v) := by
    intro v
    by_cases h : ResyncDue env v
    · rw [updateTimeResync_of_due h]
      exact .of_eq rfl rfl rfl
    · rw [updateTimeResync_of_not_due h]
      exact .refl v
  exact (hfirst.trans (hresync _)).trans (.of_eq rfl rfl rfl)

/-- **A call of the loop** is made of whole phrases. -/
theorem routine_exec (env : LoopEnv) (c : Call) (w : World) : Routine w (c.exec env w) := by
  cases c with
  | temperature => exact routine_updateTemperature env.temperature w
  | humidity => exact routine_updateHumidity env.humidity w
  | time => exact routine_updateTime env.time w
  | fan => exact routine_updateFan w
  | drip num => exact routine_updateDrip num w

end Routine

/-! ## Messages -/

theorem inI32_startTimeOf (onTime minutes : Text) : InI32 (startTimeOf onTime minutes) :=
  inI32_i32 _

theorem routine_controlFan (fan : Fin 2) (cmd : Text) (w : World) :
    Routine w (controlFan fan cmd w) := by
  have hset : ∀ (on : Bool) (record : Fin 2 → Bool), Routine w
      (({ w.gpioSetLevel (fanCtrlPin fan) on with
          info := { w.info with fanState := record } } : World).gpioSetLevel
        (fanLedPin fan) (!on)) := fun on record =>
    (Phrase.fan fan on).routine ⟨by simp [World.gpioSetLevel, World.emit], rfl, rfl⟩
  unfold controlFan
  split
  · exact hset true _
  · split
    · exact hset false _
    · exact .refl w

/-- **A message** is made of whole phrases. -/
theorem routine_act (b : Branch) (data : Text) (w : World) : Routine w (b.act data w).1 := by
  cases b with
  | tempRequest => exact routine_publish (.temp _) w
  | tempHistoryRequest => exact routine_publish (.tempHistory _) w
  | humidityRequest => exact routine_publish (.humidity _) w
  | humidityHistoryRequest => exact routine_publish (.humidityHistory _) w
  | fanSetState => exact (routine_controlFan 0 data w).trans (routine_controlFan 1 data _)
  | fanGetState => exact routine_publish (.fanState _) w
  | fanSetTempOn =>
    show Routine w (controlFanSetTempOn data w)
    unfold controlFanSetTempOn
    dsimp only
    split
    · exact .of_eq rfl rfl rfl
    · exact .refl w
  | fanGetTempOn => exact routine_publish (.fanTempOn _) w
  | dripCtrl num =>
    rw [Branch.act, controlDrip_succ]
    exact routine_controlDripNum num _ w
  | dripRequestStatus num => exact routine_publish (.status num _) w
  | dripRequestStartTime num => exact routine_publish (.startTime num _) w
  | dripSetStartTime num =>
    show Routine w (controlDripStartTime num data w).1
    unfold controlDripStartTime
    split
    · exact .refl w
    · exact (Phrase.store ⟨.startTime, num⟩ (inI32_startTimeOf _ _)).routine ⟨rfl, rfl, rfl⟩
  | dripRequestDuration num => exact routine_publish (.duration num _) w
  | dripSetDuration num =>
    exact (Phrase.store ⟨.duration, num⟩ (inI32_atoi data)).routine ⟨rfl, rfl, rfl⟩
  | dripRequestDays num => exact routine_publish (.days num _) w
  | dripSetDays num =>
    exact (Phrase.store ⟨.days, num⟩ (inI32_atoi data)).routine ⟨rfl, rfl, rfl⟩

/-! ## The settings -/

/-- The nine settings depend on the records of the drips without their states. -/
theorem Register.get_congr {i i' : GreenHouseInfo}
    (h : ∀ n, (i'.dripInfo n).setting = (i.dripInfo n).setting) (r : Register) :
    r.setting.get i' = r.setting.get i := by
  match r with
  | ⟨.startTime, num⟩ => exact DripInfo.startTime_eq (h num)
  | ⟨.duration, num⟩ => exact DripInfo.duration_eq (h num)
  | ⟨.days, num⟩ => exact DripInfo.days_eq (h num)

/-- What a step leaves of the settings in RAM. -/
structure KeepsSettings (w w' : World) : Prop where
  drips : ∀ n, (w'.info.dripInfo n).setting = (w.info.dripInfo n).setting
  fanTempOn : w'.info.fanTempOn = w.info.fanTempOn

theorem Keeps.settings {w w' : World} (h : Keeps w w') : KeepsSettings w w' :=
  ⟨fun n => by rw [h.dripInfo], h.fanTempOn⟩

/-- **A call of the loop** changes no setting. -/
theorem keepsSettings_exec (env : LoopEnv) (c : Call) (w : World) :
    KeepsSettings w (c.exec env w) := by
  cases c with
  | temperature => exact (keeps_updateTemperature w env.temperature).settings
  | humidity => exact (keeps_updateHumidity w env.humidity).settings
  | time => exact (keeps_updateTime w env.time).settings
  | fan =>
    have hinfo := info_updateFan w
    exact ⟨fun n => by rw [Call.exec, hinfo], by rw [Call.exec, hinfo]⟩
  | drip num =>
    refine ⟨updateDrip_setting num w, ?_⟩
    obtain ⟨s, hinfo⟩ := updateDrip_info num w
    show (updateDrip num w).2.info.fanTempOn = _
    rw [hinfo]
    rfl

/-- A message sets one of the nine settings. -/
structure Sets (r : Register) (v : Int) (w w' : World) : Prop where
  inI32 : InI32 v
  info : w'.info = (r.setting.set v w).info
  flash : w'.flash = Function.update w.flash r.setting.key (some v)

/-- A message sets none of the nine settings; it may set the fan point. -/
structure SetsNone (w w' : World) : Prop where
  drips : ∀ n, (w'.info.dripInfo n).setting = (w.info.dripInfo n).setting
  fanTempOn : w'.info.fanTempOn = w.info.fanTempOn ∨ InI8 w'.info.fanTempOn
  flash : w'.flash = w.flash

theorem sets_of_parse {r : Register} {data : Text} {v : Int} (h : r.parse data = some v)
    (hv : InI32 v) (w : World) : Sets r v w (r.setBranch.act data w).1 :=
  have hact := act_of_parse h w
  ⟨hv, hact.2.1, hact.2.2⟩

theorem setsNone_of_eq {w w' : World} (hinfo : w'.info = w.info) (hflash : w'.flash = w.flash) :
    SetsNone w w' :=
  ⟨fun n => by rw [hinfo], Or.inl (by rw [hinfo]), hflash⟩

theorem setsNone_fanSetState (data : Text) (w : World) :
    SetsNone w (Branch.act .fanSetState data w).1 := by
  have hinfo : (Branch.act .fanSetState data w).1.info = _ := Branch.controlFan_both_info data w
  have hflash : ∀ (fan : Fin 2) (v : World), (controlFan fan data v).flash = v.flash := by
    intro fan v
    unfold controlFan
    split
    · rfl
    · split <;> rfl
  have hfan : ((Branch.fanSetState.infoAfter data w.info).dripInfo = w.info.dripInfo) ∧
      (Branch.fanSetState.infoAfter data w.info).fanTempOn = w.info.fanTempOn := by
    unfold Branch.infoAfter
    dsimp only
    cases Branch.fanCommand data <;> exact ⟨rfl, rfl⟩
  refine ⟨fun n => by rw [hinfo, hfan.1], Or.inl (by rw [hinfo, hfan.2]), ?_⟩
  exact (hflash 1 _).trans (hflash 0 w)

/-- **A message in one statement**: it sets one of the nine settings, in RAM and in flash, or
none. -/
theorem act_settings (b : Branch) (data : Text) (w : World) :
    (∃ r v, Sets r v w (b.act data w).1) ∨ SetsNone w (b.act data w).1 := by
  cases b with
  | fanSetState => exact Or.inr (setsNone_fanSetState data w)
  | fanSetTempOn =>
    refine Or.inr ?_
    show SetsNone w (controlFanSetTempOn data w)
    unfold controlFanSetTempOn
    dsimp only
    split
    · exact ⟨fun _ => rfl, Or.inr (inI8_i8 _), rfl⟩
    · exact setsNone_of_eq rfl rfl
  | dripCtrl num =>
    refine Or.inr ?_
    rw [Branch.act, controlDrip_succ]
    dsimp only
    refine ⟨fun n => ?_, Or.inl ?_, ?_⟩
    · rw [controlDripNum_info, setDripState_setting]
    · rw [controlDripNum_info]
      rfl
    · have hcore := congrArg World.flash (core_controlDripNum num (strstr data (ascii "ON")) w)
      exact hcore
  | dripSetStartTime num =>
    cases h : Register.parse ⟨.startTime, num⟩ data with
    | some v =>
      refine Or.inl ⟨⟨.startTime, num⟩, v, sets_of_parse h ?_ w⟩
      obtain ⟨minutes, -, rfl⟩ := Option.map_eq_some_iff.1 h
      exact inI32_startTimeOf _ _
    | none =>
      have hcolon : afterChr data 58 = none := Option.map_eq_none_iff.1 h
      refine Or.inr ?_
      show SetsNone w (controlDripStartTime num data w).1
      unfold controlDripStartTime
      rw [hcolon]
      exact setsNone_of_eq rfl rfl
  | dripSetDuration num =>
    have hparse : Register.parse ⟨.duration, num⟩ data = some (atoi data) := rfl
    exact Or.inl ⟨⟨.duration, num⟩, _, sets_of_parse hparse (inI32_atoi data) w⟩
  | dripSetDays num =>
    have hparse : Register.parse ⟨.days, num⟩ data = some (atoi data) := rfl
    exact Or.inl ⟨⟨.days, num⟩, _, sets_of_parse hparse (inI32_atoi data) w⟩
  | _ => exact Or.inr (setsNone_of_eq rfl rfl)

/-- A call of the loop writes nothing to flash. -/
theorem flash_exec (env : LoopEnv) (c : Call) (w : World) : (c.exec env w).flash = w.flash := by
  cases c with
  | temperature =>
    show (updateTemperature env.temperature w).flash = _
    unfold updateTemperature
    dsimp only
    split <;> rfl
  | humidity =>
    show (updateHumidity env.humidity w).flash = _
    unfold updateHumidity
    dsimp only
    split <;> rfl
  | time =>
    have hfirst : (updateTimeFirst env.time w).flash = w.flash := by
      cases hv : w.info.timeIsValid with
      | true => rw [updateTimeFirst_of_valid hv]
      | false =>
        rw [updateTimeFirst_of_invalid hv]
        rfl
    have hresync : ∀ v, (updateTimeResync env.time v).flash = v.flash := by
      intro v
      by_cases h : ResyncDue env.time v
      · rw [updateTimeResync_of_due h]
        rfl
      · rw [updateTimeResync_of_not_due h]
    exact (hresync _).trans hfirst
  | fan =>
    show (updateFan w).flash = _
    unfold updateFan
    split
    · rfl
    · split <;> rfl
  | drip num =>
    have hcore : ∀ on, (controlDripNum num on w).flash = w.flash := fun on => by
      have h := congrArg World.flash (core_controlDripNum num on w)
      exact h
    show (updateDrip num w).2.flash = _
    rw [updateDrip_eq]
    cases w.nextAction num with
    | stay => rfl
    | «open» => exact hcore true
    | close => exact hcore false

/-! ## The measurements -/

/-- A message leaves the stored measurements alone. -/
theorem measured_act (b : Branch) (data : Text) (w : World) :
    (b.act data w).1.temp = w.temp ∧ (b.act data w).1.humidity = w.humidity := by
  cases b with
  | fanSetState =>
    have hfan : ∀ (fan : Fin 2) (v : World), (controlFan fan data v).temp = v.temp ∧
        (controlFan fan data v).humidity = v.humidity := by
      intro fan v
      unfold controlFan
      split
      · exact ⟨rfl, rfl⟩
      · split <;> exact ⟨rfl, rfl⟩
    exact ⟨(hfan 1 _).1.trans (hfan 0 w).1, (hfan 1 _).2.trans (hfan 0 w).2⟩
  | fanSetTempOn =>
    show (controlFanSetTempOn data w).temp = _ ∧ (controlFanSetTempOn data w).humidity = _
    unfold controlFanSetTempOn
    dsimp only
    split <;> exact ⟨rfl, rfl⟩
  | dripCtrl num =>
    have hcore := core_controlDripNum num (strstr data (ascii "ON")) w
    have htemp := congrArg World.temp hcore
    have hhumidity := congrArg World.humidity hcore
    rw [Branch.act, controlDrip_succ]
    exact ⟨htemp, hhumidity⟩
  | dripSetStartTime num =>
    show (controlDripStartTime num data w).1.temp = _ ∧
      (controlDripStartTime num data w).1.humidity = _
    unfold controlDripStartTime
    split <;> exact ⟨rfl, rfl⟩
  | _ => exact ⟨rfl, rfl⟩

end GreenHouse
