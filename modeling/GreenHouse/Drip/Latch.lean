import GreenHouse.Sync

/-!
# Latching valves over a reboot

A valve keeps its position without power and moves on a coil pulse only. A reboot clears the statics
and the record of every drip and pulses no coil, so a valve that was open then is open behind it,
with the record saying OFF. Nothing but the schedule or a command finds out: `update_drip` pulses
the coil of such a drip only if the minute is inside of its window (`Covered`).

`plant` is the firmware with its valves: a step is one call of `app_loop`, one message, or a reboot,
at any point of an iteration.
-/

namespace GreenHouse

open CText

/-! ## Positions -/

namespace DripView

/-- The position of the valve, from the one it had at the boot: `true` is watering. -/
def position (v : DripView) (start : Bool) : Bool := v.pulses.getLast?.getD start

/-- If the valve is open, the record says ON. -/
def Noticed (v : DripView) (start : Bool) : Prop := v.position start = true → v.state = true

instance (v : DripView) (start : Bool) : Decidable (v.Noticed start) :=
  inferInstanceAs (Decidable (_ → _))

theorem noticed_commanded (v : DripView) (on start : Bool) : (v.commanded on).Noticed start := by
  intro h
  simpa [position, commanded] using h

theorem Noticed.foldl {v : DripView} {start : Bool} (h : v.Noticed start) (cmds : List Bool) :
    (cmds.foldl commanded v).Noticed start := by
  induction cmds generalizing v with
  | nil => exact h
  | cons on cmds ih => exact ih (noticed_commanded v on start)

end DripView

/-! ## The plant -/

structure Plant where
  world : World
  -- the positions of the valves at the last boot
  start : Fin 3 → Bool
  -- the next call of `app_loop`
  next : Call
  -- no iteration with a valid time has ended since the last boot
  fresh : Bool

namespace Plant

def position (s : Plant) (k : Fin 3) : Bool := (s.world.drip k).position (s.start k)

/-- Every valve that is open is recorded as ON. -/
def Noticed (s : Plant) : Prop :=
  ∀ k, s.position k = true → (s.world.info.dripInfo k).state = true

instance (s : Plant) : Decidable s.Noticed := inferInstanceAs (Decidable (∀ _, _ → _))

def call (env : LoopEnv) (s : Plant) : Plant :=
  let w := s.next.exec env s.world
  { s with world := w, next := s.next.next w, fresh := s.fresh && s.next != .drip 2 }

/-- A boot with the valves where they are. -/
def booted (flash : Text → Option Int) (start : Fin 3 → Bool) : Plant :=
  ⟨boot flash, start, .temperature, true⟩

inductive Input where
  | call (env : LoopEnv)
  | message (b : Branch) (data : Text)
  | reboot

def after (s : Plant) : Input → Plant
  | .call env => s.call env
  | .message b data => { s with world := (b.act data s.world).1 }
  | .reboot => booted s.world.flash s.position

/-- The step ends the first iteration with a valid time since the boot. -/
def endsFirst (s : Plant) : Input → Bool
  | .call _ => s.fresh && s.next == .drip 2
  | _ => false

/-- A call of `update_drip` in the first iteration with a valid time that finds its valve open and
the record OFF finds the minute in the window, on an enabled day. -/
def Covered (s : Plant) : Input → Prop
  | .call _ => ∀ num, s.next = .drip num → s.fresh = true → s.position num = true →
      (s.world.info.dripInfo num).state = false →
      OpenTest (s.world.info.dripInfo num) (currTimeInMin s.world.info) s.world.info.day
  | _ => True

instance (s : Plant) : ∀ i : Input, Decidable (s.Covered i)
  | .call _ => inferInstanceAs (Decidable (∀ _, _ → _ → _ → _ → _))
  | .message _ _ | .reboot => isTrue trivial

end Plant

/-- The plant; the output is the state at the end of the first iteration with a valid time since
each boot. -/
def plant : Mealy Plant Plant.Input (Option Plant) where
  step s i := (s.after i, if s.endsFirst i then some (s.after i) else none)

/-- The calls of a whole iteration, one after another, are `app_loop`. -/
theorem call_iterate_eq_appLoop (env : LoopEnv) (s : Plant) (hs : s.next = .temperature) :
    let n := ((Turn.quiet env).made s.world).length
    ((Plant.call env)^[n] s).world = appLoop env s.world ∧
      ((Plant.call env)^[n] s).next = .temperature := by
  intro n
  have hstep : Function.Semiconj (fun s : Plant => (s.next, s.world)) (Plant.call env)
      (Call.step env) := fun _ => rfl
  have hn := hstep.iterate_right n s
  rw [hs, step_iterate_eq_appLoop, Prod.mk.injEq] at hn
  exact ⟨hn.2, hn.1⟩

/-! ## What the steps do to the valves -/

theorem dripStatus_message (b : Branch) (data : Text) (w : World) :
    (b.act data w).1.dripStatus = w.dripStatus := by
  cases b with
  | dripCtrl num =>
    have hcore := congrArg World.dripStatus (core_controlDripNum num (strstr data (ascii "ON")) w)
    rw [Branch.act, controlDrip_succ]
    exact hcore
  | fanSetState =>
    have hfan : ∀ (fan : Fin 2) (v : World), (controlFan fan data v).dripStatus = v.dripStatus := by
      intro fan v
      unfold controlFan
      split
      · rfl
      · split <;> rfl
    exact (hfan 1 _).trans (hfan 0 w)
  | fanSetTempOn =>
    show (controlFanSetTempOn data w).dripStatus = _
    unfold controlFanSetTempOn
    dsimp only
    split <;> rfl
  | dripSetStartTime num =>
    show (controlDripStartTime num data w).1.dripStatus = _
    unfold controlDripStartTime
    split <;> rfl
  | _ => rfl

theorem dripStatus_exec_measure (env : LoopEnv) {c : Call} (hc : c ∈ Call.measure) (w : World) :
    (c.exec env w).dripStatus = w.dripStatus := by
  cases c with
  | temperature => exact (keeps_updateTemperature w env.temperature).dripStatus
  | humidity => exact (keeps_updateHumidity w env.humidity).dripStatus
  | time => exact (keeps_updateTime w env.time).dripStatus
  | fan =>
    show (updateFan w).dripStatus = _
    unfold updateFan
    split
    · rfl
    · split <;> rfl
  | drip num => simp [Call.measure] at hc

/-! ## Runs -/

/-- The drips whose call is still to come in the current iteration. -/
def Call.Pending : Call → Fin 3 → Prop
  | .drip num, k => num ≤ k
  | _, _ => True

/-- As long as no iteration with a valid time has ended: the schedule of a drip whose call is still
to come is OFF, and the valve of every other drip is noticed. -/
structure Plant.Inv (s : Plant) : Prop where
  pending : s.fresh = true → ∀ k, s.next.Pending k → s.world.dripStatus k = false
  noticed : s.fresh = true → ∀ k, ¬ s.next.Pending k → (s.world.drip k).Noticed (s.start k)

theorem Plant.inv_booted (flash : Text → Option Int) (start : Fin 3 → Bool) :
    (booted flash start).Inv where
  pending := fun _ k _ => congrFun (dripStatus_boot flash) k
  noticed := fun _ _ hk => absurd trivial hk

theorem Plant.Inv.message {s : Plant} (h : s.Inv) (b : Branch) (data : Text) :
    (s.after (.message b data)).Inv where
  pending := by
    intro hf k hk
    show (b.act data s.world).1.dripStatus k = false
    rw [dripStatus_message]
    exact h.pending hf k hk
  noticed := by
    intro hf k hk
    show ((b.act data s.world).1.drip k).Noticed (s.start k)
    rw [drip_message]
    exact (h.noticed hf k hk).foldl _

theorem pending_next_measure {c : Call} (hc : c ∈ Call.measure) (w : World) (k : Fin 3) :
    (c.next w).Pending k := by
  cases c with
  | fan =>
    show (if w.info.timeIsValid = true then Call.drip 0 else Call.temperature).Pending k
    split
    · exact Fin.zero_le k
    · trivial
  | drip num => simp [Call.measure] at hc
  | _ => trivial

theorem pending_next_drip {num : Fin 3} (h : num ≠ 2) (w : World) (k : Fin 3) :
    ((Call.drip num).next w).Pending k ↔ num < k := by
  match num with
  | 0 =>
    show 1 ≤ k ↔ 0 < k
    revert k
    decide
  | 1 =>
    show 2 ≤ k ↔ 1 < k
    revert k
    decide
  | 2 => exact absurd rfl h

theorem Plant.Inv.measure {s : Plant} (h : s.Inv) (hs : s.next ∈ Call.measure) (env : LoopEnv) :
    (s.call env).Inv where
  pending := by
    intro hf k _
    have hfresh : s.fresh = true := (Bool.and_eq_true_iff.1 hf).1
    have hall : s.next.Pending k := by
      cases hn : s.next with
      | drip num => rw [hn] at hs; simp [Call.measure] at hs
      | _ => trivial
    show (s.next.exec env s.world).dripStatus k = false
    rw [dripStatus_exec_measure env hs]
    exact h.pending hfresh k hall
  noticed := fun _ k hk => absurd (pending_next_measure hs _ k) hk

/-- A call of `update_drip` that is covered leaves its own valve noticed. -/
theorem noticed_updateDrip {s : Plant} {num : Fin 3} (hoff : s.world.dripStatus num = false)
    (hcov : s.position num = true → (s.world.info.dripInfo num).state = false →
      OpenTest (s.world.info.dripInfo num) (currTimeInMin s.world.info) s.world.info.day) :
    ((updateDrip num s.world).2.drip num).Noticed (s.start num) := by
  have haction : s.world.nextAction num =
      if OpenTest (s.world.info.dripInfo num) (currTimeInMin s.world.info) s.world.info.day
      then .open else .stay := by
    unfold World.nextAction
    rw [hoff, dripAction_off]
  rw [drip_updateDrip, if_pos rfl, haction]
  split
  · exact DripView.noticed_commanded _ _ _
  · next hclosed =>
    intro hopen
    by_contra hstate
    exact hclosed (hcov hopen (Bool.eq_false_iff.2 hstate))

/-- **The step lemma** for a call of `update_drip`. -/
theorem noticed_call {s : Plant} (h : s.Inv) {num : Fin 3} (hs : s.next = .drip num) (env : LoopEnv)
    (hcov : s.Covered (.call env)) (hfresh : s.fresh = true) (k : Fin 3) (hk : k ≤ num) :
    ((s.call env).world.drip k).Noticed (s.start k) := by
  have hpend : s.next.Pending num := by rw [hs]; exact Fin.le_refl num
  have hworld : (s.call env).world = (updateDrip num s.world).2 := by
    show s.next.exec env s.world = _
    rw [hs]
    rfl
  rw [hworld]
  by_cases hkn : k = num
  · subst hkn
    exact noticed_updateDrip (h.pending hfresh k hpend) (hcov k hs hfresh)
  · have hdone : ¬ s.next.Pending k := by
      rw [hs]
      exact fun hle => hkn (Fin.le_antisymm hk hle)
    rw [drip_updateDrip, if_neg (Ne.symm hkn)]
    exact h.noticed hfresh k hdone

theorem Plant.Inv.drip {s : Plant} (h : s.Inv) {num : Fin 3} (hs : s.next = .drip num)
    (env : LoopEnv) (hcov : s.Covered (.call env)) : (s.call env).Inv := by
  have hfresh : (s.call env).fresh = true → s.fresh = true ∧ num ≠ 2 := by
    intro hf
    have hand : (s.fresh && s.next != .drip 2) = true := hf
    rw [hs] at hand
    simpa using hand
  have hpend : ∀ k, num ≠ 2 → ((s.call env).next.Pending k ↔ num < k) := by
    intro k h2
    show (s.next.next _).Pending k ↔ _
    rw [hs]
    exact pending_next_drip h2 _ k
  constructor
  · intro hf k hk
    obtain ⟨hf', h2⟩ := hfresh hf
    have hlt := (hpend k h2).1 hk
    have hold : s.next.Pending k := by
      rw [hs]
      exact Fin.le_of_lt hlt
    show (s.next.exec env s.world).dripStatus k = false
    rw [hs]
    show (updateDrip num s.world).2.dripStatus k = false
    rw [updateDrip_dripStatus, Function.update_of_ne (Fin.ne_of_gt hlt)]
    exact h.pending hf' k hold
  · intro hf k hk
    obtain ⟨hf', h2⟩ := hfresh hf
    exact noticed_call h hs env hcov hf' k (Fin.not_lt.1 ((hpend k h2).not.1 hk))

theorem Plant.Inv.after {s : Plant} (h : s.Inv) {i : Input} (hcov : s.Covered i) :
    (s.after i).Inv := by
  cases i with
  | call env =>
    cases hs : s.next with
    | drip num => exact h.drip hs env hcov
    | _ => exact h.measure (by rw [hs]; decide) env
  | message b data => exact h.message b data
  | reboot => exact inv_booted _ _

theorem noticed_of_endsFirst {s : Plant} (h : s.Inv) {i : Plant.Input} (hcov : s.Covered i)
    (hi : s.endsFirst i = true) : (s.after i).Noticed := by
  cases i with
  | call env =>
    obtain ⟨hfresh, hnext⟩ := Bool.and_eq_true_iff.1 hi
    have hs : s.next = .drip 2 := by simpa using hnext
    intro k hopen
    exact noticed_call h hs env hcov hfresh k (Fin.le_last k) hopen
  | message b data => cases hi
  | reboot => cases hi

/-- **A reboot and the valves.** In every run of calls, messages and reboots in which the calls of
`update_drip` are covered: at the end of the first iteration with a valid time since each boot,
every valve that is open is recorded as ON. -/
theorem plant_noticed (flash : Text → Option Int) (start : Fin 3 → Bool)
    (inputs : List Plant.Input)
    (h : plant.Along Plant.Covered (Plant.booted flash start) inputs) :
    ∀ o ∈ plant.run (Plant.booted flash start) inputs, ∀ s ∈ o, s.Noticed := by
  refine Mealy.forall_run (I := Plant.Inv) ?_ (Plant.inv_booted flash start) h
  intro s i hinv hcov
  refine ⟨hinv.after hcov, ?_⟩
  show ∀ s' ∈ (if s.endsFirst i = true then some (s.after i) else none), s'.Noticed
  split
  · next hends =>
    intro s' hs'
    obtain rfl := Option.some.inj hs'
    exact noticed_of_endsFirst hinv hcov hends
  · intro s' hs'
    cases hs'

/-- An iteration that synchronises at 6:30 on a Monday. -/
def halfPastSix : LoopEnv :=
  ⟨70, 40, ⟨⟨fun _ => .completed, 0, 30, 6, 1⟩, 1000, 1000, ⟨fun _ => .reset, 0, 0, 0, 0⟩, 0, 1000⟩⟩

def openThenReboot : List Plant.Input :=
  [.message (.dripCtrl 0) (ascii "ON"), .reboot] ++ List.replicate 7 (.call halfPastSix)

/-- A flash with a schedule of drip 1 from 6:00 to 7:00 on every day. -/
def morningFlash (key : Text) : Option Int :=
  if key = dripStartKey 0 then some 360
  else if key = dripDurKey 0 then some 60
  else if key = dripDaysKey 0 then some 127
  else none

theorem plant_noticed_morning :
    plant.Along Plant.Covered (Plant.booted morningFlash fun _ => false) openThenReboot ∧
      ∀ o ∈ plant.run (Plant.booted morningFlash fun _ => false) openThenReboot,
        ∀ s ∈ o, s.Noticed := by
  have h : plant.Along Plant.Covered (Plant.booted morningFlash fun _ => false) openThenReboot := by
    decide +kernel
  exact ⟨h, plant_noticed _ _ _ h⟩

/-- With the schedule off, a valve opened by a command is open behind a reboot and recorded OFF. -/
theorem plant_not_noticed :
    ¬ ∀ o ∈ plant.run (Plant.booted (fun _ => none) fun _ => false) openThenReboot,
      ∀ s ∈ o, s.Noticed := by
  decide +kernel

end GreenHouse
