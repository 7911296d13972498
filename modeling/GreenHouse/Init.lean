import GreenHouse.Control

/-!
# Booting (`init.c`)

`Init_Settings` is eleven blocks, one for each setting: read the key, and where it is not in flash
store a default and put a default into RAM. A block is data (`InitBlock`): its key, where the value
read goes, the default stored and where the default of RAM goes. `flash_initAll` and `get_initAll`
say what any list of blocks leaves in flash and in RAM.
-/

namespace GreenHouse

open CText

/-! ## The settings -/

/-- The settings kept in flash. -/
inductive Setting where
  | fanTempOn
  | fanTempOff
  | startTime (num : Fin 3)
  | duration (num : Fin 3)
  | days (num : Fin 3)
  deriving DecidableEq

namespace Setting

def key : Setting → Text
  | fanTempOn => ascii "FAN_TEMP_ON"
  | fanTempOff => ascii "FAN_TEMP_OFF"
  | startTime num => dripStartKey num
  | duration num => dripDurKey num
  | days num => dripDaysKey num

def get : Setting → GreenHouseInfo → Int
  | fanTempOn, i => i.fanTempOn
  | fanTempOff, i => i.fanTempOff
  | startTime num, i => (i.dripInfo num).startTime
  | duration num, i => (i.dripInfo num).duration
  | days num, i => (i.dripInfo num).days

def set (v : Int) : Setting → World → World
  | fanTempOn, w => { w with info := { w.info with fanTempOn := v } }
  | fanTempOff, w => { w with info := { w.info with fanTempOff := v } }
  | startTime num, w => w.modifyDrip num ({ · with startTime := v })
  | duration num, w => w.modifyDrip num ({ · with duration := v })
  | days num, w => w.modifyDrip num ({ · with days := v })

def all : List Setting :=
  [fanTempOn, fanTempOff, startTime 0, startTime 1, startTime 2, duration 0, duration 1, duration 2,
    days 0, days 1, days 2]

theorem mem_all (s : Setting) : s ∈ all := by
  match s with
  | fanTempOn | fanTempOff => decide
  | startTime 0 | startTime 1 | startTime 2 => decide
  | duration 0 | duration 1 | duration 2 => decide
  | days 0 | days 1 | days 2 => decide

theorem key_injective : Function.Injective key := by
  have h : ∀ s ∈ all, ∀ t ∈ all, s.key = t.key → s = t := by decide +kernel
  intro s t
  exact h s (mem_all s) t (mem_all t)

theorem get_set (s t : Setting) (v : Int) (w : World) :
    s.get (t.set v w).info = if s = t then v else s.get w.info := by
  have hdrip : ∀ (m n : Fin 3) (f : DripInfo → Int) (g : DripInfo → DripInfo),
      f ((w.modifyDrip n g).info.dripInfo m) =
        if m = n then f (g (w.info.dripInfo m)) else f (w.info.dripInfo m) := by
    intro m n f g
    by_cases h : m = n
    · subst h; simp [World.modifyDrip]
    · simp [World.modifyDrip, h]
  cases t with
  | fanTempOn => cases s <;> rfl
  | fanTempOff => cases s <;> rfl
  | startTime n =>
    cases s with
    | startTime m =>
      simp only [startTime.injEq]
      exact hdrip m n DripInfo.startTime _
    | duration m => exact (hdrip m n DripInfo.duration _).trans (ite_self _)
    | days m => exact (hdrip m n DripInfo.days _).trans (ite_self _)
    | _ => rfl
  | duration n =>
    cases s with
    | duration m =>
      simp only [duration.injEq]
      exact hdrip m n DripInfo.duration _
    | startTime m => exact (hdrip m n DripInfo.startTime _).trans (ite_self _)
    | days m => exact (hdrip m n DripInfo.days _).trans (ite_self _)
    | _ => rfl
  | days n =>
    cases s with
    | days m =>
      simp only [days.injEq]
      exact hdrip m n DripInfo.days _
    | startTime m => exact (hdrip m n DripInfo.startTime _).trans (ite_self _)
    | duration m => exact (hdrip m n DripInfo.duration _).trans (ite_self _)
    | _ => rfl

@[simp] theorem flash_set (t : Setting) (v : Int) (w : World) : (t.set v w).flash = w.flash := by
  cases t <;> rfl

end Setting

/-! ## `Init_Settings` -/

/-- One block of `Init_Settings`. -/
structure InitBlock where
  key : Text
  -- where `NVS_Read` puts the value
  readInto : Setting
  -- what `NVS_Write` stores where the key is missing
  stored : Int
  -- what is then assigned in RAM, and where
  defaultInto : Setting
  default : Int

def initBlock : Setting → InitBlock
  | .fanTempOn => ⟨ascii "FAN_TEMP_ON", .fanTempOn, 95, .fanTempOn, 95⟩
  | .fanTempOff => ⟨ascii "FAN_TEMP_OFF", .fanTempOn, 90, .fanTempOff, 90⟩
  | .startTime 0 => ⟨ascii "DRIP_1_START", .startTime 0, 1 * 60 * 60, .startTime 0, 1 * 60 * 60⟩
  | .startTime 1 => ⟨ascii "DRIP_2_START", .startTime 1, 2 * 60 * 60, .startTime 1, 2 * 60 * 60⟩
  | .startTime 2 => ⟨ascii "DRIP_3_START", .startTime 2, 3 * 60 * 60, .startTime 0, 3 * 60 * 60⟩
  | .duration 0 => ⟨ascii "DRIP_1_DUR", .duration 0, 5 * 60, .startTime 0, 5 * 60⟩
  | .duration 1 => ⟨ascii "DRIP_2_DUR", .duration 1, 1 * 60 * 60, .startTime 1, 5 * 60⟩
  | .duration 2 => ⟨ascii "DRIP_3_DUR", .duration 2, 3 * 60 * 60, .startTime 2, 5 * 60⟩
  | .days 0 => ⟨ascii "DRIP_1_DAYS", .days 0, 0, .days 0, 0⟩
  | .days 1 => ⟨ascii "DRIP_2_DAYS", .days 1, 0, .days 1, 0⟩
  | .days 2 => ⟨ascii "DRIP_3_DAYS", .days 2, 0, .days 2, 0⟩

def initSetting (b : InitBlock) (w : World) : World :=
  match nvsRead b.key w with
  | some v => b.readInto.set v w
  | none => b.defaultInto.set b.default (nvsWrite b.key b.stored w)

def initAll (l : List Setting) (w : World) : World :=
  l.foldl (fun w s => initSetting (initBlock s) w) w

def initSettings (w : World) : World := initAll Setting.all w

/-- The pin writes of `Init_GPIO`, in order. -/
def initGpioLevels : List (Pin × Bool) :=
  [(en24vPin, true), (miscLedPin, true), (solLedPin 0, true), (solLedPin 1, true),
    (solLedPin 2, true), (fanLedPin 0, true), (fanLedPin 1, true), (statusLedPin, true),
    (vent1LedPin, true), (fanCtrlPin 0, false), (fanCtrlPin 1, false), (vent1CtrlPin, false),
    (misc1CtrlPin, false), (dripCloseCtrlPin 0, false), (dripOpenCtrlPin 0, false),
    (dripCloseCtrlPin 1, false), (dripOpenCtrlPin 1, false), (dripCloseCtrlPin 2, false),
    (dripOpenCtrlPin 2, false)]

def initGpio (w : World) : World := initGpioLevels.foldl (fun w p => w.gpioSetLevel p.1 p.2) w

/-- `Init` between `Init_GPIO` and `Init_Settings`. -/
def initStates (w : World) : World :=
  { w with info := { w.info with
      fanState := fun _ => false
      ventState := false
      dripInfo := fun n => { w.info.dripInfo n with state := false }
      timeIsValid := false } }

def init (w : World) : World := initSettings (initStates (initGpio w))

/-- A boot on a given flash: the startup code clears the RAM and `app_main` calls `Init`. -/
def boot (flash : Text → Option Int) : World := init (cleared flash)

/-! ## What a boot leaves behind -/

theorem initBlock_key (s : Setting) : (initBlock s).key = s.key := by
  have h : ∀ s ∈ Setting.all, (initBlock s).key = s.key := by decide +kernel
  exact h s (Setting.mem_all s)

/-- The assignment to RAM a block makes, given the flash. -/
def initAssign (flash : Text → Option Int) (s : Setting) : Setting × Int :=
  match flash s.key with
  | some v => ((initBlock s).readInto, v)
  | none => ((initBlock s).defaultInto, (initBlock s).default)

theorem get_initSetting (s t : Setting) (w : World) :
    t.get (initSetting (initBlock s) w).info =
      if t = (initAssign w.flash s).1 then (initAssign w.flash s).2 else t.get w.info := by
  unfold initSetting nvsRead initAssign
  rw [initBlock_key]
  cases w.flash s.key with
  | some v => exact Setting.get_set _ _ _ _
  | none => exact Setting.get_set _ _ _ _

theorem flash_initSetting (s : Setting) (w : World) :
    (initSetting (initBlock s) w).flash =
      Function.update w.flash s.key (some ((w.flash s.key).getD (initBlock s).stored)) := by
  unfold initSetting nvsRead
  rw [initBlock_key]
  cases h : w.flash s.key with
  | some v =>
    have hself : Function.update w.flash s.key (some v) = w.flash := by
      rw [← h, Function.update_eq_self]
    rw [Option.getD_some, hself]
    exact Setting.flash_set _ _ _
  | none => exact Setting.flash_set _ _ _

/-- In flash a boot adds the missing defaults. -/
theorem flash_initAll (s : Setting) {l : List Setting} (w : World) :
    (initAll l w).flash s.key =
      if s ∈ l then some ((w.flash s.key).getD (initBlock s).stored) else w.flash s.key := by
  unfold initAll
  induction l generalizing w with
  | nil => simp
  | cons t l ih =>
    rw [List.foldl_cons, ih, flash_initSetting]
    by_cases h : s = t
    · subst h; simp
    · have hkey : s.key ≠ t.key := fun e => h (Setting.key_injective e)
      simp [hkey, h]

/-- In RAM a boot makes the assignments of its blocks one after another, each from the flash the
boot found: no block changes the key of a later one. -/
theorem get_initAll (t : Setting) {l : List Setting} (hl : l.Nodup) (w : World) :
    t.get (initAll l w).info =
      l.foldl (fun x s => if t = (initAssign w.flash s).1 then (initAssign w.flash s).2 else x)
        (t.get w.info) := by
  unfold initAll
  induction l generalizing w with
  | nil => rfl
  | cons s l ih =>
    obtain ⟨hs, hl⟩ := List.nodup_cons.1 hl
    have hassign : ∀ r ∈ l, initAssign (initSetting (initBlock s) w).flash r =
        initAssign w.flash r := by
      intro r hr
      have hkey : r.key ≠ s.key := fun e => hs (Setting.key_injective e ▸ hr)
      unfold initAssign
      rw [flash_initSetting, Function.update_of_ne hkey]
    rw [List.foldl_cons, List.foldl_cons, ih hl, get_initSetting]
    refine List.foldl_ext _ _ _ fun x r hr => ?_
    rw [hassign r hr]

theorem foldl_gpioSetLevel (l : List (Pin × Bool)) (w : World) :
    l.foldl (fun w p => w.gpioSetLevel p.1 p.2) w =
      { w with
        gpio := l.foldl (fun g p => Function.update g p.1 p.2) w.gpio
        trace := w.trace ++ l.map fun p => .gpio p.1 p.2 } := by
  induction l generalizing w with
  | nil => simp
  | cons p l ih =>
    rw [List.foldl_cons, List.foldl_cons, ih, List.map_cons]
    simp [World.gpioSetLevel, World.emit]

/-! ### What `Init_Settings` leaves alone -/

/-- Everything but the settings, the flash and the trace. -/
def World.bare (w : World) : World :=
  { w with
    flash := fun _ => none
    trace := []
    info := { w.info with
      fanTempOn := 0
      fanTempOff := 0
      dripInfo := fun n => ⟨(w.info.dripInfo n).state, 0, 0, 0⟩ } }

theorem Setting.bare_set (t : Setting) (v : Int) (w : World) : (t.set v w).bare = w.bare := by
  have hstate : ∀ (num : Fin 3) (f : DripInfo → DripInfo), (∀ d, (f d).state = d.state) →
      (w.modifyDrip num f).bare = w.bare := by
    intro num f hf
    have hdrip : ∀ n, ((w.modifyDrip num f).info.dripInfo n).state = (w.info.dripInfo n).state := by
      intro n
      by_cases h : n = num
      · subst h; simp [World.modifyDrip, hf]
      · simp [World.modifyDrip, h]
    unfold World.bare
    simp only [hdrip]
    rfl
  cases t with
  | fanTempOn => rfl
  | fanTempOff => rfl
  | startTime num => exact hstate num _ fun _ => rfl
  | duration num => exact hstate num _ fun _ => rfl
  | days num => exact hstate num _ fun _ => rfl

theorem bare_initAll (l : List Setting) (w : World) : (initAll l w).bare = w.bare := by
  unfold initAll
  induction l generalizing w with
  | nil => rfl
  | cons s l ih =>
    have hs : (initSetting (initBlock s) w).bare = w.bare := by
      unfold initSetting
      split
      · exact Setting.bare_set _ _ _
      · exact Setting.bare_set _ _ _
    rw [List.foldl_cons, ih, hs]

/-- In the trace `Init_Settings` leaves flash writes only. -/
theorem trace_initAll (l : List Setting) (w : World) :
    ∃ stored : List (Text × Int),
      (initAll l w).trace = w.trace ++ stored.map fun p => .nvs p.1 p.2 := by
  unfold initAll
  induction l generalizing w with
  | nil => exact ⟨[], (List.append_nil _).symm⟩
  | cons s l ih =>
    have hset : ∀ (t : Setting) (v : Int) (w : World), (t.set v w).trace = w.trace := by
      intro t v w
      cases t <;> rfl
    have hs : ∃ stored : List (Text × Int), (initSetting (initBlock s) w).trace =
        w.trace ++ stored.map fun p => .nvs p.1 p.2 := by
      unfold initSetting
      split
      · exact ⟨[], by rw [hset, List.map_nil, List.append_nil]⟩
      · exact ⟨[((initBlock s).key, (initBlock s).stored)], by rw [hset]; rfl⟩
    obtain ⟨first, hfirst⟩ := hs
    obtain ⟨rest, hrest⟩ := ih (initSetting (initBlock s) w)
    refine ⟨first ++ rest, ?_⟩
    rw [List.foldl_cons, hrest, hfirst, List.map_append, List.append_assoc]

section Boot

variable (flash : Text → Option Int)

theorem bare_boot : (boot flash).bare = (initStates (initGpio (cleared flash))).bare :=
  bare_initAll _ _

theorem gpio_boot :
    (boot flash).gpio =
      initGpioLevels.foldl (fun g p => Function.update g p.1 p.2) fun _ => false := by
  have hbare := congrArg World.gpio (bare_boot flash)
  have h : (boot flash).gpio = (initGpio (cleared flash)).gpio := hbare
  unfold initGpio at h
  rw [h, foldl_gpioSetLevel]
  rfl

theorem trace_boot : ∃ stored : List (Text × Int), (boot flash).trace =
    initGpioLevels.map (fun p => .gpio p.1 p.2) ++ stored.map fun p => .nvs p.1 p.2 := by
  obtain ⟨stored, h⟩ := trace_initAll Setting.all (initStates (initGpio (cleared flash)))
  have hgpio : (initStates (initGpio (cleared flash))).trace =
      initGpioLevels.map fun p => .gpio p.1 p.2 := by
    show (initGpio (cleared flash)).trace = _
    unfold initGpio
    rw [foldl_gpioSetLevel]
    rfl
  exact ⟨stored, by rw [← hgpio]; exact h⟩

theorem fanStatus_boot : (boot flash).fanStatus = false :=
  congrArg World.fanStatus (bare_boot flash)

theorem dripStatus_boot : (boot flash).dripStatus = fun _ => false :=
  congrArg World.dripStatus (bare_boot flash)

theorem temp_boot : (boot flash).info.temp = 0 :=
  congrArg (fun w => w.info.temp) (bare_boot flash)

theorem fanState_boot : (boot flash).info.fanState = fun _ => false :=
  congrArg (fun w => w.info.fanState) (bare_boot flash)

theorem timeIsValid_boot : (boot flash).info.timeIsValid = false :=
  congrArg (fun w => w.info.timeIsValid) (bare_boot flash)

theorem state_boot (num : Fin 3) : ((boot flash).info.dripInfo num).state = false :=
  congrArg (fun w => (w.info.dripInfo num).state) (bare_boot flash)

end Boot

end GreenHouse
