import GreenHouse.Fan
import GreenHouse.Mqtt.Effects

/-!
# The reported state of the fans

Two controllers write the fan pins and the fan LEDs. `Control_Fan` also writes
`greenHouseInfo.fanState`, which a get-state request is answered from; `update_fan` does not. So the
report is right as long as `update_fan` switches the fans only to where a command already had them
(`fanCalls_reported_iff`).
-/

namespace GreenHouse

open CInt CText

/-- A whole call that writes the fans: `update_fan`, at a temperature and a set point, or the two
calls of `Control_Fan` a set-state message makes. -/
inductive FanCall where
  | update (temp on : Int)
  | command (cmd : Text)

def FanCall.exec : FanCall → World → World
  | update temp on, w => updateFan { w with info := { w.info with temp := temp, fanTempOn := on } }
  | command cmd, w => (Branch.fanSetState.act cmd w).1

def fanCalls : Mealy World FanCall World where
  step w c := (c.exec w, c.exec w)

/-- The recorded state of each fan is that of its pin and its LED, and the answer to a get-state
request says so. -/
structure FansReported (w : World) : Prop where
  ctrl : ∀ fan, w.info.fanState fan = true ↔ w.gpio (fanCtrlPin fan) = true
  led : ∀ fan, w.info.fanState fan = true ↔ w.gpio (fanLedPin fan) = false
  answer : ∀ fan, (Branch.fanGetState.act [] w).1 =
    w.emit (.publish fanGetStatePubTopic (stateText (w.gpio (fanCtrlPin fan))))

/-- A call of `update_fan` switches the fans to the state both are recorded in. -/
def SwitchesRecorded (w : World) : FanCall → Prop
  | .update temp on =>
    (temp ≥ on ∧ w.fanStatus = false → ∀ fan, w.info.fanState fan = true) ∧
      (temp ≤ i32 (on - fanOffTempHyst) ∧ w.fanStatus = true → ∀ fan, w.info.fanState fan = false)
  | .command _ => True

instance (w : World) : ∀ c : FanCall, Decidable (SwitchesRecorded w c)
  | .update _ _ => inferInstanceAs (Decidable ((_ → _) ∧ (_ → _)))
  | .command _ => isTrue trivial

/-! ## Both fans in one state -/

/-- Pin, LED and record of both fans show `on`. -/
structure FansShow (on : Bool) (w : World) : Prop where
  state : ∀ fan, w.info.fanState fan = on
  ctrl : ∀ fan, w.gpio (fanCtrlPin fan) = on
  led : ∀ fan, w.gpio (fanLedPin fan) = !on

theorem FansShow.reported {on : Bool} {w : World} (h : FansShow on w) : FansReported w where
  ctrl := fun fan => by rw [h.state, h.ctrl]
  led := fun fan => by rw [h.state, h.led]; simp
  answer := fun fan => by
    rw [h.ctrl]
    show w.emit (.publish fanGetStatePubTopic (stateText (w.info.fanState 0))) = _
    rw [h.state]

theorem fansShow_boot (flash : Text → Option Int) : FansShow false (boot flash) where
  state := fun fan => by rw [fanState_boot]
  ctrl := by
    rw [gpio_boot]
    decide
  led := by
    rw [gpio_boot]
    decide

theorem setFans_gpio (on : Bool) (w : World) (fan : Fin 2) :
    (setFans on w).gpio (fanCtrlPin fan) = on ∧ (setFans on w).gpio (fanLedPin fan) = !on := by
  match fan with
  | 0 => exact ⟨rfl, rfl⟩
  | 1 => exact ⟨rfl, rfl⟩

theorem fansShow_setFans {on : Bool} {w : World} (h : ∀ fan, w.info.fanState fan = on) :
    FansShow on (setFans on w) :=
  ⟨h, fun fan => (setFans_gpio on w fan).1, fun fan => (setFans_gpio on w fan).2⟩

/-- After the switching of `update_fan` the report is right exactly when the record already was. -/
theorem reported_setFans_iff (on : Bool) (w : World) :
    FansReported (setFans on w) ↔ ∀ fan, w.info.fanState fan = on := by
  constructor
  · intro h fan
    have hctrl := h.ctrl fan
    rw [(setFans_gpio on w fan).1] at hctrl
    exact Bool.eq_iff_iff.2 hctrl
  · intro h
    exact (fansShow_setFans h).reported

theorem fansShow_controlFan (on : Bool) (w : World) (cmd : Text)
    (h : Branch.fanCommand cmd = some on) :
    FansShow on (controlFan 1 cmd (controlFan 0 cmd w)) := by
  have hstate : ∀ fan, (controlFan 1 cmd (controlFan 0 cmd w)).info.fanState fan = on := by
    intro fan
    rw [Branch.controlFan_both_info]
    unfold Branch.infoAfter
    rw [h]
    rfl
  refine ⟨hstate, ?_, ?_⟩
  all_goals
    intro fan
    unfold Branch.fanCommand at h
    unfold controlFan
    split at h
    · next hon =>
      obtain rfl := Option.some.inj h
      rw [if_pos hon, if_pos hon]
      match fan with
      | 0 => rfl
      | 1 => rfl
    · next hon =>
      split at h
      · next hoff =>
        obtain rfl := Option.some.inj h
        rw [if_neg hon, if_pos hoff, if_neg hon, if_pos hoff]
        match fan with
        | 0 => rfl
        | 1 => rfl
      · cases h

/-- A set-state command brings both fans into one state, or leaves them as they were. -/
theorem fansShow_command {on : Bool} {w : World} (h : FansShow on w) (cmd : Text) :
    ∃ on', FansShow on' ((FanCall.command cmd).exec w) := by
  show ∃ on', FansShow on' (controlFan 1 cmd (controlFan 0 cmd w))
  cases hcmd : Branch.fanCommand cmd with
  | some on' => exact ⟨on', fansShow_controlFan on' w cmd hcmd⟩
  | none =>
    have hneg : ¬ strstr cmd (ascii "ON") = true ∧ ¬ strstr cmd (ascii "OFF") = true := by
      unfold Branch.fanCommand at hcmd
      split at hcmd
      · cases hcmd
      · next hon =>
        split at hcmd
        · cases hcmd
        · next hoff => exact ⟨hon, hoff⟩
    refine ⟨on, ?_⟩
    unfold controlFan
    rw [if_neg hneg.1, if_neg hneg.2, if_neg hneg.1, if_neg hneg.2]
    exact h

/-! ## Runs -/

section Step

variable {on : Bool} {w : World} (h : FansShow on w)

include h

/-- **The step lemma**: a call leaves the report right exactly when it switches to what is
recorded. -/
theorem reported_exec_iff (c : FanCall) : FansReported (c.exec w) ↔ SwitchesRecorded w c := by
  cases c with
  | command cmd =>
    obtain ⟨on', hshow⟩ := fansShow_command h cmd
    exact ⟨fun _ => trivial, fun _ => hshow.reported⟩
  | update temp setPoint =>
    unfold FanCall.exec updateFan SwitchesRecorded
    dsimp only
    split
    · next hup =>
      rw [reported_setFans_iff]
      refine ⟨fun hs => ⟨fun _ => hs, fun hdown => ?_⟩, fun hs => hs.1 hup⟩
      exact absurd (hup.2.symm.trans hdown.2) (by decide)
    · next hup =>
      split
      · next hdown =>
        rw [reported_setFans_iff]
        exact ⟨fun hs => ⟨fun hup' => absurd hup' hup, fun _ => hs⟩, fun hs => hs.2 hdown⟩
      · next hdown =>
        have hstill : FansShow on
            { w with info := { w.info with temp := temp, fanTempOn := setPoint } } :=
          ⟨h.state, h.ctrl, h.led⟩
        exact ⟨fun _ => ⟨fun hup' => absurd hup' hup, fun hdown' => absurd hdown' hdown⟩,
          fun _ => hstill.reported⟩

theorem fansShow_exec (c : FanCall) (hc : SwitchesRecorded w c) :
    ∃ on', FansShow on' (c.exec w) := by
  cases c with
  | command cmd => exact fansShow_command h cmd
  | update temp setPoint =>
    unfold FanCall.exec updateFan
    dsimp only
    split
    · next hup => exact ⟨true, fansShow_setFans (hc.1 hup)⟩
    · split
      · next hdown => exact ⟨false, fansShow_setFans (hc.2 hdown)⟩
      · exact ⟨on, h.state, h.ctrl, h.led⟩

end Step

/-- **The reported state of the fans.** In every run of calls from a boot, the record agrees with
pins and LEDs after every call exactly when every call of `update_fan` that switches the fans
switches them to the state both are recorded in. -/
theorem fanCalls_reported_iff (flash : Text → Option Int) (calls : List FanCall) :
    (∀ w ∈ fanCalls.run (boot flash) calls, FansReported w) ↔
      fanCalls.Along SwitchesRecorded (boot flash) calls :=
  Mealy.forall_run_iff (I := fun w => ∃ on, FansShow on w)
    (fun _ c hinv hc => fansShow_exec hinv.choose_spec c hc)
    (fun _ c hinv => reported_exec_iff hinv.choose_spec c) ⟨false, fansShow_boot flash⟩

/-- At 100 degrees and a set point of 95 `update_fan` switches both fans on and the record still
says OFF. -/
theorem fanCalls_not_reported :
    ¬ ∀ w ∈ fanCalls.run (boot fun _ => none) [.update 100 95], FansReported w := by
  intro h
  have hreported := h _ List.mem_cons_self
  have hrecorded := (reported_exec_iff (fansShow_boot fun _ => none) (.update 100 95)).1 hreported
  have hfan := hrecorded.1 ⟨by decide, fanStatus_boot _⟩ 0
  rw [fanState_boot] at hfan
  exact absurd hfan (by decide)

end GreenHouse
