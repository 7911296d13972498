import GreenHouse.Drip.Calls

/-!
# The scheduler inside the loop

`scheduler` takes clock samples from outside. In the firmware a sample is what `update_time` leaves
in an iteration of `app_loop`, between the measurements, the fans and the three calls of
`update_drip`. Nothing else in an iteration touches what the drips depend on (`World.statics`), so a
run of the whole loop is a run of the scheduler on the samples it produced (`dripLoop_run_eq`).
-/

namespace GreenHouse

/-! ## What the drips depend on -/

/-- The statics of `update_drip`, the settings, and the valve commands so far. -/
structure DripStatics where
  status : Fin 3 → Bool
  prev : Int
  roll : Bool
  settings : Fin 3 → DripInfo
  valves : Fin 3 → List Bool

namespace World

def statics (w : World) : DripStatics where
  status := w.dripStatus
  prev := w.prevTimeInMin
  roll := w.timeRollOver
  settings := fun n => (w.info.dripInfo n).setting
  valves := fun k => valvesOf k w.trace

/-- The clock the drips read, and whether they are run at all. -/
def clock (w : World) : Int × Int × Bool := (currTimeInMin w.info, w.info.day, w.info.timeIsValid)

end World

section Calls

variable {w v : World} (hs : w.statics = v.statics) (hc : w.clock = v.clock)

include hs hc

/-- Calls in worlds that agree on statics and clock do the same and lead to such worlds. -/
theorem updateDrip_congr (num : Fin 3) :
    (updateDrip num w).1 = (updateDrip num v).1 ∧
      (updateDrip num w).2.statics = (updateDrip num v).2.statics ∧
      (updateDrip num w).2.clock = (updateDrip num v).2.clock := by
  have hstatus : w.dripStatus = v.dripStatus := congrArg DripStatics.status hs
  have hprev : w.prevTimeInMin = v.prevTimeInMin := congrArg DripStatics.prev hs
  have hroll : w.timeRollOver = v.timeRollOver := congrArg DripStatics.roll hs
  have hset : ∀ n, (w.info.dripInfo n).setting = (v.info.dripInfo n).setting := fun n =>
    congrFun (congrArg DripStatics.settings hs) n
  have hvalves : ∀ k, valvesOf k w.trace = valvesOf k v.trace := fun k =>
    congrFun (congrArg DripStatics.valves hs) k
  have hcurr : currTimeInMin w.info = currTimeInMin v.info := congrArg Prod.fst hc
  have hday : w.info.day = v.info.day := congrArg (fun c => c.2.1) hc
  have hvalid : w.info.timeIsValid = v.info.timeIsValid := congrArg (fun c => c.2.2) hc
  have hrolled : w.rolled = v.rolled := by
    unfold World.rolled
    rw [hroll, hcurr, hprev]
  have haction : w.nextAction num = v.nextAction num := by
    unfold World.nextAction
    rw [← dripAction_setting, hset, dripAction_setting, hstatus, hcurr, hday, hrolled]
  refine ⟨?_, ?_, ?_⟩
  · rw [updateDrip_result, updateDrip_result, haction]
  · unfold World.statics
    simp only [updateDrip_dripStatus, updateDrip_prevTimeInMin, updateDrip_timeRollOver,
      updateDrip_setting, updateDrip_valves, haction, hstatus, hcurr, hrolled, hset, hvalves]
  · unfold World.clock
    simp only [updateDrip_currTimeInMin, updateDrip_day, updateDrip_timeIsValid, hcurr, hday,
      hvalid]

theorem callWorld_congr (num : Fin 3) :
    (callWorld num w).statics = (callWorld num v).statics ∧
      (callWorld num w).clock = (callWorld num v).clock := by
  obtain ⟨-, hs0, hc0⟩ := updateDrip_congr hs hc 0
  unfold callWorld
  split
  · exact ⟨hs, hc⟩
  · split
    · exact ⟨hs0, hc0⟩
    · exact (updateDrip_congr hs0 hc0 1).2

theorem updateDrips_congr :
    (updateDrips w).statics = (updateDrips v).statics ∧
      (updateDrips w).clock = (updateDrips v).clock := by
  have hvalid : w.info.timeIsValid = v.info.timeIsValid := congrArg (fun c => c.2.2) hc
  unfold updateDrips
  rw [hvalid]
  split
  · obtain ⟨-, hs0, hc0⟩ := updateDrip_congr hs hc 0
    obtain ⟨-, hs1, hc1⟩ := updateDrip_congr hs0 hc0 1
    exact (updateDrip_congr hs1 hc1 2).2
  · exact ⟨hs, hc⟩

end Calls

/-! ## The rest of an iteration -/

theorem Keeps.statics {w w' : World} (h : Keeps w w') : w'.statics = w.statics := by
  obtain ⟨answers, htrace⟩ := h.trace
  have hvalves : ∀ k, valvesOf k (answers.map fun a => Event.publish a.1 a.2) = [] := by
    intro k
    unfold valvesOf
    rw [List.filterMap_eq_nil_iff]
    intro e he
    obtain ⟨a, -, rfl⟩ := List.mem_map.1 he
    rfl
  unfold World.statics
  simp only [h.dripStatus, h.prevTimeInMin, h.timeRollOver, h.dripInfo, htrace, valvesOf_append,
    hvalves, List.append_nil]

section Frame

variable (w : World)

theorem statics_setFans (on : Bool) : (setFans on w).statics = w.statics := by
  unfold setFans World.statics World.gpioSetLevel World.emit
  simp [valvesOf]

theorem statics_updateFan : (updateFan w).statics = w.statics := by
  unfold updateFan
  split
  · exact statics_setFans { w with fanStatus := true } true
  · split
    · exact statics_setFans { w with fanStatus := false } false
    · rfl

theorem statics_appLoopFan (env : LoopEnv) : (appLoopFan env w).statics = w.statics := by
  obtain ⟨v, hv, hloop⟩ := keeps_appLoopFan w env
  rw [hloop, statics_updateFan, hv.statics]

end Frame

theorem timeIsValid_appLoopFan {w : World} (h : w.info.timeIsValid = true) (env : LoopEnv) :
    (appLoopFan env w).info.timeIsValid = true := by
  obtain ⟨v, hv, hloop⟩ := keeps_appLoopFan w env
  rw [hloop, info_updateFan]
  exact hv.timeIsValid h

/-! ## The loop as a machine -/

def sampleOf (w : World) : Sample := ⟨w.info.hour, w.info.min, w.info.day⟩

def World.untraced (w : World) : World := { w with trace := [] }

/-- `app_loop`, seen from drip `k`. -/
def dripLoop (k : Fin 3) : Mealy World LoopEnv DripOut where
  step w env :=
    let w₀ := appLoopFan env w.untraced
    let w₁ := appLoop env w.untraced
    (w₁, ⟨w.dripStatus k, w₁.dripStatus k, (updateDrip k (callWorld k w₀)).1, valvesOf k w₁.trace⟩)

/-- The clock samples the iterations leave. -/
def clockOf : World → List LoopEnv → List Sample
  | _, [] => []
  | w, env :: envs =>
    sampleOf (appLoopFan env w.untraced) :: clockOf (appLoop env w.untraced) envs

/-- The `update_time` of the first iteration leaves a valid time. That of every later one then does
too. -/
def FirstValid (w : World) (envs : List LoopEnv) : Prop :=
  ∀ env ∈ envs.head?, (appLoopFan env w.untraced).info.timeIsValid = true

instance (w : World) (envs : List LoopEnv) : Decidable (FirstValid w envs) :=
  inferInstanceAs (Decidable (∀ env ∈ envs.head?, _))

theorem firstValid_of_timeIsValid {w : World} (h : w.info.timeIsValid = true)
    (envs : List LoopEnv) : FirstValid w envs :=
  fun env _ => timeIsValid_appLoopFan (w := w.untraced) h env

theorem untraced_statics {w v : World} (h : w.statics = v.statics) :
    w.untraced.statics = v.untraced.statics := by
  have hempty : ∀ u : World, u.untraced.statics = { u.statics with valves := fun _ => [] } :=
    fun _ => rfl
  rw [hempty, hempty, h]

theorem timeIsValid_updateDrips {w : World} (h : w.info.timeIsValid = true) :
    (updateDrips w).info.timeIsValid = true := by
  unfold updateDrips
  rw [if_pos h, updateDrip_timeIsValid, updateDrip_timeIsValid, updateDrip_timeIsValid, h]

theorem dripLoop_run_congr (k : Fin 3) {envs : List LoopEnv} {w v : World}
    (hs : w.untraced.statics = v.untraced.statics) (hw : FirstValid w envs)
    (hv : v.info.timeIsValid = true) :
    (dripLoop k).run w envs = (scheduler k).run v (clockOf w envs) := by
  induction envs generalizing w v with
  | nil => rfl
  | cons env envs ih =>
    have hbefore : w.dripStatus = v.dripStatus := congrArg DripStatics.status hs
    have hvalid : (appLoopFan env w.untraced).info.timeIsValid = true := hw env rfl
    -- an iteration arrives at `update_drip` in a world that agrees with the sampled one
    have hs₀ : (appLoopFan env w.untraced).statics =
        (v.atSample (sampleOf (appLoopFan env w.untraced))).statics := by
      rw [statics_appLoopFan, hs]
      rfl
    have hc₀ : (appLoopFan env w.untraced).clock =
        (v.atSample (sampleOf (appLoopFan env w.untraced))).clock := by
      show (_, _, (appLoopFan env w.untraced).info.timeIsValid) = (_, _, v.info.timeIsValid)
      rw [hvalid, hv]
      rfl
    obtain ⟨hs₁, -⟩ := updateDrips_congr hs₀ hc₀
    obtain ⟨hs₂, hc₂⟩ := callWorld_congr hs₀ hc₀ k
    have hresult := (updateDrip_congr hs₂ hc₂ k).1
    have hstatus := congrFun (congrArg DripStatics.status hs₁) k
    have hvalves := congrFun (congrArg DripStatics.valves hs₁) k
    have hnext : FirstValid (appLoop env w.untraced) envs :=
      firstValid_of_timeIsValid (timeIsValid_updateDrips hvalid) envs
    rw [clockOf, Mealy.run_cons, Mealy.run_cons]
    refine congrArg₂ List.cons ?_ (ih (untraced_statics hs₁) hnext (timeIsValid_updateDrips hv))
    show DripOut.mk _ _ _ _ = DripOut.mk _ _ _ _
    rw [DripOut.mk.injEq]
    exact ⟨congrFun hbefore k, hstatus, hresult, hvalves⟩

def World.withTime (w : World) : World :=
  { w with info := { w.info with timeIsValid := true } }

/-- **A run of the loop is a run of the scheduler** on the clock samples it produced, from the first
of them on. -/
theorem dripLoop_run_eq (k : Fin 3) {w : World} {envs : List LoopEnv} (hw : FirstValid w envs) :
    (dripLoop k).run w envs = (scheduler k).run w.withTime (clockOf w envs) :=
  dripLoop_run_congr k rfl hw rfl

end GreenHouse
