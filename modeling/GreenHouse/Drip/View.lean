import GreenHouse.Drip.Calls
import GreenHouse.Init
import GreenHouse.Mqtt.Handler
import Mathlib.Tactic.FinCases

/-!
# A drip as the outside sees it

Of a drip the outside sees its reported state, its LED, its two coil pins, and the commands and coil
pulses so far (`DripView`). A valve command writes all of these for its own drip and none of them
for another one (`drip_controlDripNum`). From that equation follows what every call of the firmware
does to a drip: `update_drip` gives at most one command, a control message gives one, and everything
else gives none.
-/

namespace GreenHouse

open CText

/-- The pulses on the coils of drip `k + 1`: `true` for its CLOSE pin, which starts the water. -/
def pulsesOf (k : Fin 3) (trace : List Event) : List Bool :=
  trace.filterMap fun
    | .gpio pin true =>
      if pin = dripCloseCtrlPin k then some true
      else if pin = dripOpenCtrlPin k then some false else none
    | _ => none

theorem pulsesOf_append (k : Fin 3) (s t : List Event) :
    pulsesOf k (s ++ t) = pulsesOf k s ++ pulsesOf k t := List.filterMap_append

structure DripView where
  state : Bool
  led : Bool
  openPin : Bool
  closePin : Bool
  commands : List Bool
  pulses : List Bool
  deriving DecidableEq

def World.drip (k : Fin 3) (w : World) : DripView where
  state := (w.info.dripInfo k).state
  led := w.gpio (solLedPin k)
  openPin := w.gpio (dripOpenCtrlPin k)
  closePin := w.gpio (dripCloseCtrlPin k)
  commands := valvesOf k w.trace
  pulses := pulsesOf k w.trace

namespace DripView

/-- A drip after a command. -/
def commanded (v : DripView) (on : Bool) : DripView :=
  ⟨on, !on, false, false, v.commands ++ [on], v.pulses ++ [on]⟩

/-- A drip nothing was commanded to since the boot. -/
def booted : DripView := ⟨false, true, false, false, [], []⟩

theorem commands_foldl (v : DripView) (cmds : List Bool) :
    (cmds.foldl commanded v).commands = v.commands ++ cmds := by
  induction cmds generalizing v with
  | nil => exact (List.append_nil _).symm
  | cons on cmds ih => rw [List.foldl_cons, ih]; simp [commanded]

end DripView

/-! ## What a command does -/

theorem gpio_controlDripNum (num k : Fin 3) (on : Bool) (w : World) :
    ((controlDripNum num on w).gpio (solLedPin k) =
        if num = k then !on else w.gpio (solLedPin k)) ∧
      ((controlDripNum num on w).gpio (dripOpenCtrlPin k) =
        if num = k then false else w.gpio (dripOpenCtrlPin k)) ∧
      (controlDripNum num on w).gpio (dripCloseCtrlPin k) =
        if num = k then false else w.gpio (dripCloseCtrlPin k) := by
  fin_cases num <;> fin_cases k <;> cases on <;> exact ⟨rfl, rfl, rfl⟩

theorem pulsesOf_controlDripNum (num k : Fin 3) (on : Bool) (w : World) :
    pulsesOf k (controlDripNum num on w).trace =
      pulsesOf k w.trace ++ if num = k then [on] else [] := by
  rw [controlDripNum_trace, pulsesOf_append]
  congr 1
  fin_cases num <;> fin_cases k <;> cases on <;> rfl

theorem valvesOf_controlDripNum (num k : Fin 3) (on : Bool) (w : World) :
    valvesOf k (controlDripNum num on w).trace =
      valvesOf k w.trace ++ if num = k then [on] else [] := by
  rw [controlDripNum_trace, valvesOf_append]
  congr 1
  by_cases h : num = k <;> simp [valvesOf, h]

/-- **A valve command** writes its own drip, and no other one. -/
theorem drip_controlDripNum (num k : Fin 3) (on : Bool) (w : World) :
    (controlDripNum num on w).drip k =
      if num = k then (w.drip k).commanded on else w.drip k := by
  obtain ⟨hled, hopen, hclose⟩ := gpio_controlDripNum num k on w
  have hstate : ((controlDripNum num on w).info.dripInfo k).state =
      if num = k then on else (w.info.dripInfo k).state := by
    rw [controlDripNum_info]
    by_cases h : num = k
    · subst h; simp [World.setDripState, World.modifyDrip]
    · simp [World.setDripState, World.modifyDrip, h, Ne.symm h]
  unfold World.drip
  rw [hled, hopen, hclose, hstate, pulsesOf_controlDripNum, valvesOf_controlDripNum]
  by_cases h : num = k <;> simp [h, DripView.commanded]

/-! ## What a call of `update_drip` does -/

theorem drip_act (num k : Fin 3) (a : DripAction) (w : World) :
    (w.act num a).drip k = if num = k then a.valves.foldl DripView.commanded (w.drip k)
      else w.drip k := by
  cases a with
  | stay =>
    show w.drip k = _
    simp [DripAction.valves]
  | «open» => exact drip_controlDripNum num k true w
  | close => exact drip_controlDripNum num k false w

/-- `update_drip` gives its own drip the commands of its action. -/
theorem drip_updateDrip (num k : Fin 3) (w : World) :
    (updateDrip num w).2.drip k =
      if num = k then (w.nextAction num).valves.foldl DripView.commanded (w.drip k)
      else w.drip k := by
  rw [updateDrip_eq, ← drip_act]
  rfl

/-! ## What leaves the drips alone -/

/-- The events that are no valve command and no pulse. -/
def Event.IsAside : Event → Prop
  | .gpio pin level => level = true → ∀ k, pin ≠ dripCloseCtrlPin k ∧ pin ≠ dripOpenCtrlPin k
  | .valve _ _ => False
  | _ => True

theorem valvesOf_aside {es : List Event} (h : ∀ e ∈ es, e.IsAside) (k : Fin 3) :
    valvesOf k es = [] := by
  unfold valvesOf
  rw [List.filterMap_eq_nil_iff]
  intro e he
  cases e with
  | valve num on => exact (h _ he).elim
  | _ => rfl

theorem pulsesOf_aside {es : List Event} (h : ∀ e ∈ es, e.IsAside) (k : Fin 3) :
    pulsesOf k es = [] := by
  unfold pulsesOf
  rw [List.filterMap_eq_nil_iff]
  intro e he
  cases e with
  | gpio pin level =>
    cases level with
    | false => rfl
    | true =>
      obtain ⟨hclose, hopen⟩ := h _ he rfl k
      show (if pin = dripCloseCtrlPin k then _ else _) = none
      rw [if_neg hclose, if_neg hopen]
  | _ => rfl

/-- A step that writes no pin and no state of a drip, and of whose events none is a command or a
pulse, leaves every drip as it was. -/
theorem drip_eq_of_aside (w w' : World) (es : List Event) (htrace : w'.trace = w.trace ++ es)
    (hes : ∀ e ∈ es, e.IsAside)
    (hgpio : ∀ k, w'.gpio (solLedPin k) = w.gpio (solLedPin k) ∧
      w'.gpio (dripOpenCtrlPin k) = w.gpio (dripOpenCtrlPin k) ∧
      w'.gpio (dripCloseCtrlPin k) = w.gpio (dripCloseCtrlPin k))
    (hstate : ∀ k, (w'.info.dripInfo k).state = (w.info.dripInfo k).state) (k : Fin 3) :
    w'.drip k = w.drip k := by
  obtain ⟨hled, hopen, hclose⟩ := hgpio k
  unfold World.drip
  rw [hled, hopen, hclose, hstate, htrace, valvesOf_append, pulsesOf_append, valvesOf_aside hes,
    pulsesOf_aside hes, List.append_nil, List.append_nil]

theorem drip_emit {e : Event} (he : e.IsAside) (w : World) (k : Fin 3) :
    (w.emit e).drip k = w.drip k :=
  drip_eq_of_aside w (w.emit e) [e] rfl (by simpa using he) (fun _ => ⟨rfl, rfl, rfl⟩)
    (fun _ => rfl) k

theorem Keeps.drip {w w' : World} (h : Keeps w w') (k : Fin 3) : w'.drip k = w.drip k := by
  obtain ⟨answers, htrace⟩ := h.trace
  refine drip_eq_of_aside w w' _ htrace ?_ (fun _ => by rw [h.gpio]; exact ⟨rfl, rfl, rfl⟩)
    (fun _ => by rw [h.dripInfo]) k
  intro e he
  obtain ⟨a, -, rfl⟩ := List.mem_map.1 he
  trivial

theorem drip_gpioSetLevel {pin : Pin} (h : ∀ k, pin ≠ solLedPin k ∧ pin ≠ dripOpenCtrlPin k ∧
    pin ≠ dripCloseCtrlPin k) (level : Bool) (w : World) (k : Fin 3) :
    (w.gpioSetLevel pin level).drip k = w.drip k := by
  refine drip_eq_of_aside w (w.gpioSetLevel pin level) [.gpio pin level] rfl ?_ (fun j => ?_)
    (fun _ => rfl) k
  · rw [List.forall_mem_singleton]
    exact fun _ j => ⟨(h j).2.2, (h j).2.1⟩
  · obtain ⟨hled, hopen, hclose⟩ := h j
    exact ⟨Function.update_of_ne hled.symm _ _, Function.update_of_ne hopen.symm _ _,
      Function.update_of_ne hclose.symm _ _⟩

theorem fanPin_ne (fan : Fin 2) (k : Fin 3) :
    (fanCtrlPin fan ≠ solLedPin k ∧ fanCtrlPin fan ≠ dripOpenCtrlPin k ∧
        fanCtrlPin fan ≠ dripCloseCtrlPin k) ∧
      fanLedPin fan ≠ solLedPin k ∧ fanLedPin fan ≠ dripOpenCtrlPin k ∧
        fanLedPin fan ≠ dripCloseCtrlPin k := by
  revert fan k
  decide

theorem drip_setFans (on : Bool) (w : World) (k : Fin 3) : (setFans on w).drip k = w.drip k := by
  unfold setFans
  rw [drip_gpioSetLevel fun k => (fanPin_ne 1 k).2, drip_gpioSetLevel fun k => (fanPin_ne 0 k).2,
    drip_gpioSetLevel fun k => (fanPin_ne 1 k).1, drip_gpioSetLevel fun k => (fanPin_ne 0 k).1]

theorem drip_updateFan (w : World) (k : Fin 3) : (updateFan w).drip k = w.drip k := by
  unfold updateFan
  split
  · exact drip_setFans true { w with fanStatus := true } k
  · split
    · exact drip_setFans false { w with fanStatus := false } k
    · rfl

theorem drip_controlFan (fan : Fin 2) (cmd : Text) (w : World) (k : Fin 3) :
    (controlFan fan cmd w).drip k = w.drip k := by
  have hset : ∀ (on : Bool) (record : Fin 2 → Bool),
      (({ w.gpioSetLevel (fanCtrlPin fan) on with
          info := { w.info with fanState := record } } : World).gpioSetLevel
        (fanLedPin fan) (!on)).drip k = w.drip k := by
    intro on record
    rw [drip_gpioSetLevel fun k => (fanPin_ne fan k).2]
    exact drip_gpioSetLevel (fun k => (fanPin_ne fan k).1) on w k
  unfold controlFan
  split
  · exact hset true _
  · split
    · exact hset false _
    · rfl

/-- Storing a setting in RAM and in flash. -/
theorem drip_store (f : DripInfo → DripInfo) (hf : ∀ d, (f d).state = d.state) (key : Text)
    (v : Int) (num : Fin 3) (w : World) (k : Fin 3) :
    (nvsWrite key v (w.modifyDrip num f)).drip k = w.drip k := by
  refine drip_eq_of_aside w (nvsWrite key v (w.modifyDrip num f)) [.nvs key v] rfl
    (by simp [Event.IsAside]) (fun _ => ⟨rfl, rfl, rfl⟩) (fun j => ?_) k
  show ((w.modifyDrip num f).info.dripInfo j).state = _
  by_cases h : j = num
  · subst h; simp [World.modifyDrip, hf]
  · simp [World.modifyDrip, h]

/-! ## What a message does -/

/-- A message gives a command only to the drip whose control branch it is. -/
def Branch.command (b : Branch) (data : Text) (k : Fin 3) : List Bool :=
  if b = .dripCtrl k then [strstr data (ascii "ON")] else []

theorem drip_message (b : Branch) (data : Text) (w : World) (k : Fin 3) :
    (b.act data w).1.drip k = (b.command data k).foldl DripView.commanded (w.drip k) := by
  unfold Branch.command
  cases b with
  | dripCtrl num =>
    rw [Branch.act, controlDrip_succ, drip_controlDripNum]
    by_cases h : num = k <;> simp [h]
  | fanSetState =>
    show (controlFan 1 data (controlFan 0 data w)).drip k = _
    rw [drip_controlFan, drip_controlFan]
    rfl
  | fanSetTempOn =>
    show (controlFanSetTempOn data w).drip k = w.drip k
    unfold controlFanSetTempOn
    dsimp only
    split <;> rfl
  | dripSetStartTime num =>
    show (controlDripStartTime num data w).1.drip k = w.drip k
    unfold controlDripStartTime
    split
    · rfl
    · next minutes _ =>
      exact drip_store ({ · with startTime := startTimeOf data minutes }) (fun _ => rfl) _ _ num w k
  | dripSetDuration num =>
    exact drip_store ({ · with duration := atoi data }) (fun _ => rfl) _ _ num w k
  | dripSetDays num =>
    exact drip_store ({ · with days := atoi data }) (fun _ => rfl) _ _ num w k
  | _ =>
    apply drip_emit
    trivial

/-! ## At a boot -/

theorem drip_boot (flash : Text → Option Int) (k : Fin 3) : (boot flash).drip k = .booted := by
  obtain ⟨stored, htrace⟩ := trace_boot flash
  have haside : ∀ e ∈ (boot flash).trace, e.IsAside := by
    rw [htrace]
    intro e he
    rcases List.mem_append.1 he with he | he
    · obtain ⟨p, hp, rfl⟩ := List.mem_map.1 he
      have hlow : ∀ p ∈ initGpioLevels, p.2 = true →
          ∀ k, p.1 ≠ dripCloseCtrlPin k ∧ p.1 ≠ dripOpenCtrlPin k := by decide
      exact hlow p hp
    · obtain ⟨p, -, rfl⟩ := List.mem_map.1 he
      trivial
  have hpins : ∀ k : Fin 3, (boot flash).gpio (solLedPin k) = true ∧
      (boot flash).gpio (dripOpenCtrlPin k) = false ∧
      (boot flash).gpio (dripCloseCtrlPin k) = false := by
    rw [gpio_boot]
    decide
  obtain ⟨hled, hopen, hclose⟩ := hpins k
  unfold World.drip
  rw [hled, hopen, hclose, state_boot, valvesOf_aside haside, pulsesOf_aside haside]
  rfl

end GreenHouse
