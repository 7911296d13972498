import GreenHouse.Buffers
import GreenHouse.Drip.Report
import GreenHouse.FanState
import GreenHouse.Settings.FanPoint
import GreenHouse.System.Board
import GreenHouse.System.Effects
import GreenHouse.Telemetry

/-!
# What holds in every state of the board

Each result is one instance of `Stable`: a boot establishes it, every call of the loop and every
message keep it. They hold whatever the messages are, on whichever branch they end up and with
whatever the buffer holds, and over restarts; all but that of the settings also over an erasure of
the flash.
-/

namespace GreenHouse

open CInt CText

/-! ## Fields in range -/

def FlashInRange (flash : Text → Option Int) : Prop := ∀ key v, flash key = some v → InI32 v

theorem FlashInRange.update {flash : Text → Option Int} (h : FlashInRange flash) (key : Text)
    {v : Int} (hv : InI32 v) : FlashInRange (Function.update flash key (some v)) := by
  intro key' v' hkey'
  by_cases heq : key' = key
  · subst heq
    rw [Function.update_self, Option.some_inj] at hkey'
    rwa [← hkey']
  · rw [Function.update_of_ne heq] at hkey'
    exact h key' v' hkey'

theorem flashInRange_none : FlashInRange fun _ => none := fun _ _ h => by cases h

theorem flashInRange_boot {flash : Text → Option Int} (h : FlashInRange flash) :
    FlashInRange (boot flash).flash := by
  have hstored : ∀ s ∈ Setting.all, InI32 (initBlock s).stored := by decide
  have hall : ∀ (l : List Setting) (w : World), FlashInRange w.flash →
      FlashInRange (initAll l w).flash := by
    intro l
    unfold initAll
    induction l with
    | nil => exact fun w hw => hw
    | cons s l ih =>
      intro w hw
      refine ih _ ?_
      rw [flash_initSetting]
      refine hw.update s.key ?_
      cases hkey : w.flash s.key with
      | none => exact hstored s (Setting.mem_all s)
      | some v => exact hw s.key v hkey
  have hram : (initStates (initGpio (cleared flash))).flash = flash := by
    show (initGpio (cleared flash)).flash = flash
    unfold initGpio
    rw [foldl_gpioSetLevel]
    rfl
  unfold boot init initSettings
  exact hall Setting.all _ (hram ▸ h)

theorem fieldsInRange_exec {w : World} (h : w.FieldsInRange) (env : LoopEnv) (c : Call) :
    (c.exec env w).FieldsInRange := by
  obtain ⟨hdrips, hfan⟩ := keepsSettings_exec env c w
  have hmeasured : InI8 (c.exec env w).temp ∧ InI8 (c.exec env w).humidity := by
    have hsame : (c.exec env w).sensors = w.sensors →
        InI8 (c.exec env w).temp ∧ InI8 (c.exec env w).humidity := by
      intro hs
      have htemp : (c.exec env w).temp = w.temp := congrArg Sensors.temp hs
      have hhumidity : (c.exec env w).humidity = w.humidity := congrArg Sensors.humidity hs
      rw [htemp, hhumidity]
      exact ⟨h.temp, h.humidity⟩
    cases c with
    | temperature =>
      show InI8 (updateTemperature env.temperature w).temp ∧
        InI8 (updateTemperature env.temperature w).humidity
      unfold updateTemperature
      dsimp only
      split <;> exact ⟨inI8_i8 _, h.humidity⟩
    | humidity =>
      show InI8 (updateHumidity env.humidity w).temp ∧ InI8 (updateHumidity env.humidity w).humidity
      unfold updateHumidity
      dsimp only
      split <;> exact ⟨h.temp, inI8_i8 _⟩
    | time => exact hsame (sensors_updateTime w env.time)
    | fan => exact hsame (sensors_updateFan w)
    | drip num => exact hsame (sensors_updateDrip w num)
  refine ⟨hmeasured.1, hmeasured.2, by rw [hfan]; exact h.fanTempOn, fun num => ?_, fun num => ?_,
    fun num => ?_⟩
  · rw [DripInfo.startTime_eq (hdrips num)]
    exact h.startTime num
  · rw [DripInfo.duration_eq (hdrips num)]
    exact h.duration num
  · rw [DripInfo.days_eq (hdrips num)]
    exact h.days num

theorem fieldsInRange_act {w : World} (h : w.FieldsInRange) (b : Branch) (data : Text) :
    (b.act data w).1.FieldsInRange := by
  obtain ⟨htemp, hhumidity⟩ := measured_act b data w
  have htemp' : InI8 (b.act data w).1.temp := htemp ▸ h.temp
  have hhumidity' : InI8 (b.act data w).1.humidity := hhumidity ▸ h.humidity
  rcases act_settings b data w with ⟨r, v, hset⟩ | hnone
  · have hget : ∀ s : Setting, InI32 (s.get w.info) → InI32 (s.get (b.act data w).1.info) := by
      intro s hs
      rw [hset.info, Setting.get_set]
      split
      · exact hset.inI32
      · exact hs
    exact ⟨htemp', hhumidity', hget .fanTempOn h.fanTempOn,
      fun num => hget (.startTime num) (h.startTime num),
      fun num => hget (.duration num) (h.duration num), fun num => hget (.days num) (h.days num)⟩
  · refine ⟨htemp', hhumidity', ?_, fun num => ?_, fun num => ?_, fun num => ?_⟩
    · rcases hnone.fanTempOn with heq | hin
      · rw [heq]
        exact h.fanTempOn
      · exact hin.inI32
    · rw [DripInfo.startTime_eq (hnone.drips num)]
      exact h.startTime num
    · rw [DripInfo.duration_eq (hnone.drips num)]
      exact h.duration num
    · rw [DripInfo.days_eq (hnone.drips num)]
      exact h.days num

theorem flashInRange_act {w : World} (h : FlashInRange w.flash) (b : Branch) (data : Text) :
    FlashInRange (b.act data w).1.flash := by
  rcases act_settings b data w with ⟨r, v, hset⟩ | hnone
  · rw [hset.flash]
    exact h.update _ hset.inI32
  · rwa [hnone.flash]

theorem stable_inRange :
    Stable FlashInRange fun w => w.FieldsInRange ∧ FlashInRange w.flash where
  boot := fun flash h => ⟨fieldsInRange_boot h, flashInRange_boot h⟩
  call := fun env c w h =>
    ⟨fieldsInRange_exec h.1 env c, by rw [flash_exec]; exact h.2⟩
  start := fun w h => ⟨⟨h.1.temp, h.1.humidity, h.1.fanTempOn, h.1.startTime, h.1.duration,
    h.1.days⟩, h.2⟩
  message := fun b data w h => ⟨fieldsInRange_act h.1 b data, flashInRange_act h.2 b data⟩
  led := fun w h => ⟨⟨h.1.temp, h.1.humidity, h.1.fanTempOn, h.1.startTime, h.1.duration,
    h.1.days⟩, h.2⟩
  flash := fun w h => h.2

/-- **Fields in range.** From any flash whose values are `int`s, in every state of the board: each
value in flash and each field that is printed is in the range of its type, and every text that the
handler prints fits its buffer. -/
theorem board_inRange {flash : Text → Option Int} (h : FlashInRange flash)
    (inputs : List Board.Input) : ∀ s ∈ board.run (.booted flash) inputs,
      FlashInRange s.world.flash ∧ s.world.FieldsInRange ∧
        ∀ b, ∀ p ∈ Printer.prints s.world (.branch b), p.Fits := by
  intro s hs
  obtain ⟨hfields, hflash⟩ := stable_inRange.run h (fun _ _ _ => flashInRange_none) s hs
  exact ⟨hflash, hfields, fits_of_branch hfields⟩

/-- A flash with a schedule, an address, a measurement at the second try and a restart. -/
theorem board_inRange_morning :
    FlashInRange morningFlash ∧ ∀ s ∈ board.run (.booted morningFlash)
        [.gotIp wifiTag, .call halfPastSix 1, .reset false],
      FlashInRange s.world.flash ∧ s.world.FieldsInRange ∧
        ∀ b, ∀ p ∈ Printer.prints s.world (.branch b), p.Fits := by
  have hflash : FlashInRange morningFlash := by
    intro key v hv
    unfold morningFlash at hv
    split at hv
    · cases hv; decide
    · split at hv
      · cases hv; decide
      · split at hv
        · cases hv; decide
        · cases hv
  exact ⟨hflash, board_inRange hflash _⟩

/-! ## RAM and flash -/

/-- What a board holds whose flash held all keys when it booted, with `on` and `off` for the fan:
the nine settings of the drips are the same in RAM and in flash, and the keys of the fan are as they
were. -/
structure SettingsKept (on off : Int) (w : World) : Prop where
  drips : ∀ r : Register, w.flash r.setting.key = some (r.setting.get w.info)
  fanTempOn : w.flash Setting.fanTempOn.key = some on
  fanTempOff : w.flash Setting.fanTempOff.key = some off

/-- All keys are in flash. -/
structure KeysPresent (on off : Int) (flash : Text → Option Int) : Prop where
  drips : ∀ r : Register, flash r.setting.key ≠ none
  fanTempOn : flash Setting.fanTempOn.key = some on
  fanTempOff : flash Setting.fanTempOff.key = some off

theorem Register.setting_ne_fan (r : Register) :
    r.setting ≠ .fanTempOn ∧ r.setting ≠ .fanTempOff := by
  match r with
  | ⟨.startTime, _⟩ | ⟨.duration, _⟩ | ⟨.days, _⟩ => exact ⟨nofun, nofun⟩

/-- The key of every other setting is left alone. -/
theorem Sets.flash_of_ne {r : Register} {v : Int} {w w' : World} (h : Sets r v w w') {s : Setting}
    (hs : s ≠ r.setting) : w'.flash s.key = w.flash s.key := by
  rw [h.flash]
  exact Function.update_of_ne (fun e => hs (Setting.key_injective e)) _ _

section Settings

variable {on off : Int} {w w' : World}

theorem settingsKept_boot {flash : Text → Option Int} (h : KeysPresent on off flash) :
    SettingsKept on off (boot flash) := by
  choose v hv using fun r => Option.ne_none_iff_exists'.1 (h.drips r)
  refine ⟨fun r => ?_, ?_, ?_⟩
  · rw [flash_boot, hv r, get_boot_register hv]
    rfl
  · rw [flash_boot, h.fanTempOn]
    rfl
  · rw [flash_boot, h.fanTempOff]
    rfl

/-- Nothing else is written when one of the nine is set. -/
theorem SettingsKept.set {r : Register} {v : Int} (h : SettingsKept on off w)
    (hset : Sets r v w w') : SettingsKept on off w' := by
  obtain ⟨hon, hoff⟩ := r.setting_ne_fan
  refine ⟨fun r' => ?_, (hset.flash_of_ne hon.symm).trans h.fanTempOn,
    (hset.flash_of_ne hoff.symm).trans h.fanTempOff⟩
  by_cases heq : r'.setting = r.setting
  · rw [hset.info, hset.flash, Setting.get_set, heq, Function.update_self, if_pos rfl]
  · rw [hset.flash_of_ne heq, hset.info, Setting.get_set, if_neg heq]
    exact h.drips r'

theorem SettingsKept.of_same (h : SettingsKept on off w)
    (hdrips : ∀ n, (w'.info.dripInfo n).setting = (w.info.dripInfo n).setting)
    (hflash : w'.flash = w.flash) : SettingsKept on off w' where
  drips := fun r => by rw [hflash, Register.get_congr hdrips, h.drips r]
  fanTempOn := by rw [hflash, h.fanTempOn]
  fanTempOff := by rw [hflash, h.fanTempOff]

theorem stable_settingsKept (on off : Int) : Stable (KeysPresent on off) (SettingsKept on off) where
  boot := fun flash h => settingsKept_boot h
  call := fun env c w h => h.of_same (keepsSettings_exec env c w).drips (flash_exec env c w)
  start := fun w h => h.of_same (fun _ => rfl) rfl
  message := fun b data w h => by
    rcases act_settings b data w with ⟨r, v, hset⟩ | hnone
    · exact h.set hset
    · exact h.of_same hnone.drips hnone.flash
  led := fun w h => h.of_same (fun _ => rfl) rfl
  flash := fun w h =>
    ⟨fun r => by rw [h.drips r]; exact Option.some_ne_none _, h.fanTempOn, h.fanTempOff⟩

/-- The values of the keys of the fan after a boot. -/
structure FanKeys (on off : Int) (flash : Text → Option Int) : Prop where
  fanTempOn : (flash Setting.fanTempOn.key).getD 95 = on
  fanTempOff : (flash Setting.fanTempOff.key).getD 90 = off

theorem keysPresent_boot {flash : Text → Option Int} (h : FanKeys on off flash) :
    KeysPresent on off (boot flash).flash where
  drips := fun r => by rw [flash_boot]; exact Option.some_ne_none _
  fanTempOn := by
    rw [flash_boot, ← h.fanTempOn]
    rfl
  fanTempOff := by
    rw [flash_boot, ← h.fanTempOff]
    rfl

theorem KeysPresent.set {r : Register} {v : Int} (h : KeysPresent on off w.flash)
    (hset : Sets r v w w') : KeysPresent on off w'.flash := by
  obtain ⟨hon, hoff⟩ := r.setting_ne_fan
  refine ⟨fun r' => ?_, (hset.flash_of_ne hon.symm).trans h.fanTempOn,
    (hset.flash_of_ne hoff.symm).trans h.fanTempOff⟩
  by_cases heq : r'.setting = r.setting
  · rw [hset.flash, heq, Function.update_self]
    exact Option.some_ne_none _
  · rw [hset.flash_of_ne heq]
    exact h.drips r'

theorem stable_keysPresent (on off : Int) :
    Stable (FanKeys on off) fun w => KeysPresent on off w.flash where
  boot := fun flash h => keysPresent_boot h
  call := fun env c w h => by rw [flash_exec]; exact h
  start := fun w h => h
  message := fun b data w h => by
    rcases act_settings b data w with ⟨r, v, hset⟩ | hnone
    · exact h.set hset
    · rwa [hnone.flash]
  led := fun w h => h
  flash := fun w h => ⟨by rw [h.fanTempOn]; rfl, by rw [h.fanTempOff]; rfl⟩

end Settings

/-- **Settings over restarts.** From any flash, in every state of the board as long as no restart
erases the flash: all keys are in flash, and those of the fan hold what they held at the first boot,
so that a restart sets the fan point to the one for switching off. In every state behind a further
boot, without an erasure, the nine settings of the drips are the same in RAM and in flash, whatever
messages came and wherever the board was restarted. -/
theorem board_settings (flash : Text → Option Int) {inputs : List Board.Input}
    (h : ∀ i ∈ inputs, i.erases = false) :
    let on := (flash Setting.fanTempOn.key).getD 95
    let off := (flash Setting.fanTempOff.key).getD 90
    ∀ s ∈ board.run (.booted flash) inputs,
      KeysPresent on off s.world.flash ∧ (boot s.world.flash).info.fanTempOn = off ∧
        ∀ inputs' : List Board.Input, (∀ i ∈ inputs', i.erases = false) →
          ∀ t ∈ board.run (.booted s.world.flash) inputs', SettingsKept on off t.world := by
  intro on off s hs
  have hkept : ∀ {F : (Text → Option Int) → Prop} {is : List Board.Input},
      (∀ i ∈ is, i.erases = false) → ∀ i ∈ is, i.erases = true → F fun _ => none :=
    fun hno i hi herases => absurd ((hno i hi).symm.trans herases) (by decide)
  have hkeys := (stable_keysPresent on off).run ⟨rfl, rfl⟩ (hkept h) s hs
  exact ⟨hkeys, fanTempOn_boot hkeys.fanTempOff, fun inputs' h' =>
    (stable_settingsKept on off).run hkeys (hkept h')⟩

/-- What the first boot stored is what the second reads. -/
theorem board_settings_dawn :
    (∀ i ∈ dawn, i.erases = false) ∧ KeysPresent 95 90 Board.atDawn.world.flash ∧
      (boot Board.atDawn.world.flash).info.fanTempOn = 90 ∧
        SettingsKept 95 90
          ((Board.booted Board.atDawn.world.flash).after (.gotIp wifiTag)).world := by
  have hdawn : ∀ i ∈ dawn, i.erases = false := by decide
  have hone : ∀ i ∈ [Board.Input.gotIp wifiTag], i.erases = false :=
    List.forall_mem_singleton.2 rfl
  obtain ⟨hkeys, hfan, hkept⟩ := board_settings morningFlash hdawn _ atDawn_mem_run
  exact ⟨hdawn, hkeys, hfan, hkept _ hone _ (List.mem_singleton_self _)⟩

/-! ## Pins -/

/-- The levels that `Init_GPIO` sets. -/
def initLevels : Pin → Bool :=
  initGpioLevels.foldl (fun g p => Function.update g p.1 p.2) fun _ => false

/-- Both fans are at one level, with their LEDs at the other. -/
def FansAlike (gpio : Pin → Bool) : Prop :=
  ∃ on, ∀ fan, gpio (fanCtrlPin fan) = on ∧ gpio (fanLedPin fan) = !on

/-- The pins between two steps: the record of every drip is its last command, its last pulse and its
LED, and no coil is on; the fans are alike; every pin that neither the loop, with the start signals
of the sensor, nor the network writes is as `Init_GPIO` left it. -/
structure OutputsSound (w : World) : Prop where
  drips : ∀ k, (w.drip k).Reported
  fans : FansAlike w.gpio
  others : ∀ pin, pin ∉ statusLedPin :: routinePins → w.gpio pin = initLevels pin

theorem FansAlike.of_eq {gpio gpio' : Pin → Bool} (h : FansAlike gpio)
    (hctrl : ∀ fan, gpio' (fanCtrlPin fan) = gpio (fanCtrlPin fan))
    (hled : ∀ fan, gpio' (fanLedPin fan) = gpio (fanLedPin fan)) : FansAlike gpio' := by
  obtain ⟨on, hon⟩ := h
  exact ⟨on, fun fan => ⟨(hctrl fan).trans (hon fan).1, (hled fan).trans (hon fan).2⟩⟩

section Pins

variable {w : World}

theorem fansAlike_controlDripNum (h : FansAlike w.gpio) (num : Fin 3) (on : Bool) :
    FansAlike (controlDripNum num on w).gpio := by
  have hpins : ∀ fan, ∀ e ∈ commandEvents num on, fanCtrlPin fan ∉ e.pins ∧
      fanLedPin fan ∉ e.pins := by
    revert num on
    decide
  have hemits := emits_controlDripNum num on w
  refine h.of_eq (fun fan => hemits.gpio_eq fun level hm => ?_)
    fun fan => hemits.gpio_eq fun level hm => ?_
  · exact (hpins fan _ hm).1 List.mem_cons_self
  · exact (hpins fan _ hm).2 List.mem_cons_self

theorem fansAlike_exec (h : FansAlike w.gpio) (env : LoopEnv) (c : Call) :
    FansAlike (c.exec env w).gpio := by
  have hsame : ∀ {v : World}, v.gpio = w.gpio → FansAlike v.gpio := fun hv => hv ▸ h
  cases c with
  | temperature => exact hsame (keeps_updateTemperature w env.temperature).gpio
  | humidity => exact hsame (keeps_updateHumidity w env.humidity).gpio
  | time => exact hsame (keeps_updateTime w env.time).gpio
  | fan =>
    show FansAlike (updateFan w).gpio
    unfold updateFan
    split
    · exact ⟨true, setFans_gpio true _⟩
    · split
      · exact ⟨false, setFans_gpio false _⟩
      · exact h
  | drip num =>
    show FansAlike (updateDrip num w).2.gpio
    rw [updateDrip_eq]
    cases w.nextAction num with
    | stay => exact h
    | «open» => exact fansAlike_controlDripNum h num true
    | close => exact fansAlike_controlDripNum h num false

theorem fansAlike_act (h : FansAlike w.gpio) (b : Branch) (data : Text) :
    FansAlike (b.act data w).1.gpio := by
  cases b with
  | fanSetState =>
    show FansAlike (controlFan 1 data (controlFan 0 data w)).gpio
    cases hcmd : Branch.fanCommand data with
    | some on =>
      have hshow := fansShow_controlFan on w data hcmd
      exact ⟨on, fun fan => ⟨hshow.ctrl fan, hshow.led fan⟩⟩
    | none =>
      have hkept : ∀ (fan : Fin 2) (v : World), controlFan fan data v = v := by
        intro fan v
        unfold Branch.fanCommand at hcmd
        split at hcmd
        · cases hcmd
        · next hon =>
          split at hcmd
          · cases hcmd
          · next hoff =>
            unfold controlFan
            rw [if_neg hon, if_neg hoff]
      rw [hkept, hkept]
      exact h
  | fanSetTempOn =>
    show FansAlike (controlFanSetTempOn data w).gpio
    unfold controlFanSetTempOn
    dsimp only
    split <;> exact h
  | dripCtrl num =>
    rw [Branch.act, controlDrip_succ]
    exact fansAlike_controlDripNum h num _
  | dripSetStartTime num =>
    show FansAlike (controlDripStartTime num data w).1.gpio
    unfold controlDripStartTime
    split <;> exact h
  | _ => exact h

theorem reported_exec (h : ∀ k, (w.drip k).Reported) (env : LoopEnv) (c : Call) (k : Fin 3) :
    ((c.exec env w).drip k).Reported := by
  cases c with
  | temperature =>
    rw [Call.exec, (keeps_updateTemperature w env.temperature).drip]
    exact h k
  | humidity =>
    rw [Call.exec, (keeps_updateHumidity w env.humidity).drip]
    exact h k
  | time =>
    rw [Call.exec, (keeps_updateTime w env.time).drip]
    exact h k
  | fan =>
    rw [Call.exec, drip_updateFan]
    exact h k
  | drip num =>
    rw [Call.exec, drip_updateDrip]
    split
    · exact (h k).foldl _
    · exact h k

/-- The status LED and the line of the sensor are no pins of a valve or a fan. -/
theorem OutputsSound.setLevel {pin : Pin} (h : OutputsSound w)
    (hpin : pin ∈ [statusLedPin, dht11CtrlPin]) (level : Bool) :
    OutputsSound (w.gpioSetLevel pin level) where
  drips := fun k => by
    have hdrip : ∀ p ∈ [statusLedPin, dht11CtrlPin], ∀ k, p ≠ solLedPin k ∧
        p ≠ dripOpenCtrlPin k ∧ p ≠ dripCloseCtrlPin k := by decide
    rw [drip_gpioSetLevel (hdrip pin hpin)]
    exact h.drips k
  fans := by
    have hfan : ∀ p ∈ [statusLedPin, dht11CtrlPin], ∀ fan, fanCtrlPin fan ≠ p ∧
        fanLedPin fan ≠ p := by decide
    exact h.fans.of_eq (fun fan => Function.update_of_ne (hfan pin hpin fan).1 _ _)
      fun fan => Function.update_of_ne (hfan pin hpin fan).2 _ _
  others := fun p hp => by
    have hlisted : ∀ q ∈ [statusLedPin, dht11CtrlPin], q ∈ statusLedPin :: routinePins := by decide
    have hne : p ≠ pin := by
      rintro rfl
      exact hp (hlisted p hpin)
    exact (Function.update_of_ne hne _ _).trans (h.others p hp)

theorem stable_outputsSound : Stable (fun _ => True) OutputsSound where
  boot := fun flash _ =>
    have hfans := fansShow_boot flash
    ⟨fun k => by rw [drip_boot]; exact DripView.reported_booted,
      ⟨false, fun fan => ⟨hfans.ctrl fan, hfans.led fan⟩⟩, fun pin _ => by rw [gpio_boot]; rfl⟩
  call := fun env c w h =>
    ⟨reported_exec h.drips env c, fansAlike_exec h.fans env c, fun pin hpin =>
      ((routine_exec env c w).gpio fun hm => hpin (List.mem_cons_of_mem _ hm)).trans
        (h.others pin hpin)⟩
  message := fun b data w h =>
    ⟨fun k => by rw [drip_message]; exact (h.drips k).foldl _, fansAlike_act h.fans b data,
      fun pin hpin => ((routine_act b data w).gpio fun hm => hpin (List.mem_cons_of_mem _ hm)).trans
        (h.others pin hpin)⟩
  start := fun w h => (h.setLevel (by decide) false).setLevel (by decide) true
  led := fun w h => h.setLevel (by decide) false
  flash := fun _ _ => trivial

end Pins

/-- **The pins of the board.** In every state, behind every whole call, message and restart, as long
as calls and messages do not overlap: no coil is energised, what the record says of a drip is what
its LED shows and what it was last commanded and pulsed to, the two fans are alike, and the supply
of 24 V, the vent and the spare output are as `Init_GPIO` left them. -/
theorem board_outputs (flash : Text → Option Int) (inputs : List Board.Input) :
    ∀ s ∈ board.run (.booted flash) inputs, OutputsSound s.world ∧
      s.world.gpio en24vPin = true ∧ s.world.gpio vent1CtrlPin = false ∧
        s.world.gpio vent1LedPin = true ∧ s.world.gpio misc1CtrlPin = false := by
  have hpins : ∀ pin ∈ [en24vPin, vent1CtrlPin, vent1LedPin, misc1CtrlPin],
      pin ∉ statusLedPin :: routinePins := by decide
  intro s hs
  have hsound := stable_outputsSound.run trivial (fun _ _ _ => trivial) s hs
  have hinit : ∀ pin ∈ [en24vPin, vent1CtrlPin, vent1LedPin, misc1CtrlPin],
      s.world.gpio pin = initLevels pin := fun pin hpin => hsound.others pin (hpins pin hpin)
  refine ⟨hsound, ?_, ?_, ?_, ?_⟩
  · exact hinit en24vPin (by decide)
  · exact hinit vent1CtrlPin (by decide)
  · exact hinit vent1LedPin (by decide)
  · exact hinit misc1CtrlPin (by decide)

/-- Behind the call that opened the valve of the first drip. -/
theorem board_outputs_dawn :
    (Board.atDawn.world.drip 0).commands.getLast? = some true ∧ OutputsSound Board.atDawn.world ∧
      Board.atDawn.world.gpio en24vPin = true ∧ Board.atDawn.world.gpio vent1CtrlPin = false ∧
        Board.atDawn.world.gpio vent1LedPin = true ∧
          Board.atDawn.world.gpio misc1CtrlPin = false :=
  ⟨by decide +kernel, board_outputs morningFlash dawn _ atDawn_mem_run⟩

end GreenHouse
