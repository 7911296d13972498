import GreenHouse.Drip.Calls
import Mathlib.Data.Fin.VecNotation

/-!
# One drip by itself, and when the others leave it alone

`Solo` is the abstract drip: the decision of `update_drip` with a previous minute and a roll-over
flag of its own. The firmware keeps one flag for three drips, set when the minute falls and cleared
whenever any drip opens. A call that opens another drip therefore takes the flag away from a drip
that is open over midnight and still needs it to close (`Disturbs`).

`scheduler_eq_solo`: along every run without such a call, the scheduler does with drip `k` what the
abstract drip does. So two runs that agree on the clock and on the settings of drip `k` agree on
drip `k` (`scheduler_run_eq_of_undisturbed`); without the condition they need not
(`not_independent`).
-/

namespace GreenHouse

/-! ## The abstract drip -/

/-- A drip with statics of its own. -/
structure Solo where
  on : Bool
  prev : Int
  roll : Bool
  deriving DecidableEq

namespace Solo

def boot : Solo := ⟨false, 0, false⟩

variable (d : DripInfo) (s : Solo) (c : Sample)

def rolled : Bool := s.roll || decide (c.minute < s.prev)

def action : DripAction := dripAction s.on d c.minute c.day (s.rolled c)

def next : Solo :=
  ⟨(s.action d c).status s.on, c.minute, (s.action d c).roll (s.rolled c)⟩

def machine : Mealy Solo Sample DripOut where
  step s c :=
    (s.next d c,
      ⟨s.on, (s.next d c).on, decide (s.action d c ≠ .stay), (s.action d c).valves⟩)

theorem machine_setting : machine d.setting = machine d := rfl

theorem next_rolled : (s.next d c).rolled c = (s.next d c).roll := by
  simp [rolled, next]

end Solo

/-! ## Disturbance -/

/-- In `w`, the call `update_drip(j)` opens drip `j`, and with that clears a roll-over flag that
drip `k` needs: `k` is on, its window crosses midnight and midnight has passed. -/
def Disturbs (k j : Fin 3) (w : World) : Prop :=
  (w.dripStatus j = false ∧ OpenTest (w.info.dripInfo j) (currTimeInMin w.info) w.info.day) ∧
    w.dripStatus k = true ∧ offTimeInMin (w.info.dripInfo k) < (w.info.dripInfo k).startTime ∧
    w.rolled = true

instance (k j : Fin 3) (w : World) : Decidable (Disturbs k j w) :=
  inferInstanceAs (Decidable ((_ ∧ _) ∧ _ ∧ _ ∧ _))

/-- None of the three calls of an iteration disturbs drip `k`. -/
def Undisturbed (k : Fin 3) (w : World) (c : Sample) : Prop :=
  ∀ j, ¬ Disturbs k j (callWorld j (w.atSample c))

instance (k : Fin 3) (w : World) (c : Sample) : Decidable (Undisturbed k w c) :=
  inferInstanceAs (Decidable (∀ j, ¬ Disturbs k j (callWorld j (w.atSample c))))

theorem nextAction_eq_open {num : Fin 3} {w : World} : w.nextAction num = .open ↔
    w.dripStatus num = false ∧
      OpenTest (w.info.dripInfo num) (currTimeInMin w.info) w.info.day := by
  unfold World.nextAction
  cases hs : w.dripStatus num with
  | false => rw [dripAction_off]; split <;> simp_all
  | true => simp [dripAction_on_ne_open]

/-! ## The simulation -/

/-- The call `update_drip(j)` does not take the flag away from an open drip `k` that may read it,
where `need` says that it may. -/
def Spares (need : Prop) (k j : Fin 3) (w : World) : Prop :=
  w.nextAction j = .open → w.dripStatus k = true → need → w.rolled = false

theorem spares_of_not_disturbs {k j : Fin 3} {w : World} (h : ¬ Disturbs k j w) :
    Spares (offTimeInMin (w.info.dripInfo k) < (w.info.dripInfo k).startTime) k j w := by
  intro hopen hon hx
  cases hr : w.rolled with
  | false => rfl
  | true => exact absurd ⟨nextAction_eq_open.1 hopen, hon, hx, hr⟩ h

/-- During an iteration at sample `c`, the world agrees with the abstract drip on drip `k`. The flag
need only agree where the drip may read it. -/
structure Sync (need : Prop) (k : Fin 3) (d : DripInfo) (c : Sample) (w : World) (s : Solo) :
    Prop where
  curr : currTimeInMin w.info = c.minute
  day : w.info.day = c.day
  setting : (w.info.dripInfo k).setting = d.setting
  on : w.dripStatus k = s.on
  roll : s.on = true → need → w.rolled = s.rolled c

namespace Sync

variable {need : Prop} {k : Fin 3} {d : DripInfo} {c : Sample} {w : World} {s : Solo}

theorem nextAction (h : Sync need k d c w s) (hneed : offTimeInMin d < d.startTime → need) :
    w.nextAction k = s.action d c := by
  unfold World.nextAction Solo.action
  rw [← dripAction_setting, h.setting, dripAction_setting, h.curr, h.day, h.on]
  cases hs : s.on with
  | false => rw [dripAction_off, dripAction_off]
  | true =>
    by_cases hx : offTimeInMin d < d.startTime
    · rw [h.roll hs (hneed hx)]
    · exact dripAction_roll hx _ _ _ _ _

/-- A call for another drip that spares `k` keeps the agreement. -/
theorem other (h : Sync need k d c w s) {j : Fin 3} (hj : j ≠ k) (hspare : Spares need k j w) :
    Sync need k d c (updateDrip j w).2 s where
  curr := by rw [updateDrip_currTimeInMin, h.curr]
  day := by rw [updateDrip_day, h.day]
  setting := by rw [updateDrip_setting, h.setting]
  on := by rw [updateDrip_dripStatus, Function.update_of_ne hj.symm, h.on]
  roll := by
    intro hon hn
    rw [updateDrip_rolled, ← h.roll hon hn]
    cases ha : w.nextAction j with
    | stay => rfl
    | close => rfl
    | «open» => exact (hspare ha (by rw [h.on, hon]) hn).symm

/-- The drip's own call is a step of the abstract drip. -/
theorem own (h : Sync need k d c w s) (hneed : offTimeInMin d < d.startTime → need) :
    Sync need k d c (updateDrip k w).2 (s.next d c) where
  curr := by rw [updateDrip_currTimeInMin, h.curr]
  day := by rw [updateDrip_day, h.day]
  setting := by rw [updateDrip_setting, h.setting]
  on := by
    rw [updateDrip_dripStatus, Function.update_self, h.nextAction hneed, h.on]
    rfl
  roll := by
    intro hon hn
    rw [updateDrip_rolled, Solo.next_rolled, h.nextAction hneed]
    cases ha : s.action d c with
    | «open» => simp [Solo.next, ha, DripAction.roll]
    | close => simp [Solo.next, ha, DripAction.status] at hon
    | stay =>
      have hson : s.on = true := by simpa [Solo.next, ha, DripAction.status] using hon
      simp [Solo.next, ha, DripAction.roll, h.roll hson hn]

end Sync

structure Agree (need : Prop) (k : Fin 3) (d : DripInfo) (w : World) (s : Solo) : Prop where
  timeIsValid : w.info.timeIsValid = true
  setting : (w.info.dripInfo k).setting = d.setting
  on : w.dripStatus k = s.on
  prev : w.prevTimeInMin = s.prev
  roll : s.on = true → need → w.timeRollOver = s.roll

theorem Agree.sync {need : Prop} {k : Fin 3} {d : DripInfo} {w : World} {s : Solo}
    (h : Agree need k d w s) (c : Sample) : Sync need k d c (w.atSample c) s where
  curr := rfl
  day := rfl
  setting := h.setting
  on := h.on
  roll := by
    intro hon hn
    unfold World.rolled Solo.rolled
    rw [← h.prev, ← h.roll hon hn]
    rfl

theorem Sync.agree {need : Prop} {k : Fin 3} {d : DripInfo} {c : Sample} {w : World} {s : Solo}
    (h : Sync need k d c w s) (hv : w.info.timeIsValid = true) (hp : w.prevTimeInMin = c.minute)
    (hsp : s.prev = c.minute) : Agree need k d w s where
  timeIsValid := hv
  setting := h.setting
  on := h.on
  prev := hp.trans hsp.symm
  roll := by
    intro hon hn
    have hr := h.roll hon hn
    simpa [World.rolled, Solo.rolled, hp, hsp, h.curr] using hr

/-! ## Iterations and runs -/

theorem callWorld_zero (w : World) : callWorld 0 w = w := if_pos rfl

theorem callWorld_one (w : World) : callWorld 1 w = (updateDrip 0 w).2 := by
  unfold callWorld
  rw [if_neg (by decide), if_pos rfl]

theorem callWorld_two (w : World) : callWorld 2 w = (updateDrip 1 (callWorld 1 w)).2 := by
  rw [callWorld_one]
  unfold callWorld
  rw [if_neg (by decide), if_neg (by decide)]

theorem updateDrips_eq {w : World} (h : w.info.timeIsValid = true) :
    updateDrips w = (updateDrip 2 (callWorld 2 w)).2 := by
  unfold updateDrips
  rw [if_pos h, callWorld_two, callWorld_one]

/-- The agreement in the world in which the drip's own call is made, and no command so far. -/
theorem Sync.beforeCall {need : Prop} {k : Fin 3} {d : DripInfo} {c : Sample} {w : World}
    {s : Solo} (h : Sync need k d c w s) (hu : ∀ j, Spares need k j (callWorld j w))
    (ht : w.trace = []) :
    Sync need k d c (callWorld k w) s ∧ valvesOf k (callWorld k w).trace = [] := by
  have ht' : valvesOf k w.trace = [] := by rw [ht]; rfl
  have h0 := hu 0
  have h1 := hu 1
  rw [callWorld_zero] at h0
  match k with
  | 0 =>
    rw [callWorld_zero]
    exact ⟨h, ht'⟩
  | 1 =>
    rw [callWorld_one]
    refine ⟨h.other (by decide) h0, ?_⟩
    rw [updateDrip_valves, ht', if_neg (by decide)]
    rfl
  | 2 =>
    rw [callWorld_one] at h1
    rw [callWorld_two, callWorld_one]
    refine ⟨(h.other (by decide) h0).other (by decide) h1, ?_⟩
    rw [updateDrip_valves, updateDrip_valves, ht', if_neg (by decide), if_neg (by decide)]
    rfl

theorem Sync.afterCall {need : Prop} {k : Fin 3} {d : DripInfo} {c : Sample} {w : World}
    {s : Solo} (h : Sync need k d c (updateDrip k (callWorld k w)).2 s)
    (hu : ∀ j, Spares need k j (callWorld j w)) :
    Sync need k d c (updateDrip 2 (callWorld 2 w)).2 s ∧
      valvesOf k (updateDrip 2 (callWorld 2 w)).2.trace =
        valvesOf k (updateDrip k (callWorld k w)).2.trace := by
  have h1 := hu 1
  have h2 := hu 2
  match k with
  | 0 =>
    rw [callWorld_one] at h1
    rw [callWorld_two, callWorld_one] at h2
    rw [callWorld_zero] at h
    rw [callWorld_two, callWorld_one, callWorld_zero]
    refine ⟨(h.other (by decide) h1).other (by decide) h2, ?_⟩
    rw [updateDrip_valves, updateDrip_valves, if_neg (by decide), if_neg (by decide),
      List.append_nil, List.append_nil]
  | 1 =>
    rw [callWorld_two] at h2 ⊢
    refine ⟨h.other (by decide) h2, ?_⟩
    rw [updateDrip_valves, if_neg (by decide), List.append_nil]
  | 2 => exact ⟨h, rfl⟩

theorem callWorld_timeIsValid (num : Fin 3) (w : World) :
    (callWorld num w).info.timeIsValid = w.info.timeIsValid := by
  unfold callWorld
  split
  · rfl
  · split <;> simp

theorem callWorld_setting (num n : Fin 3) (w : World) :
    ((callWorld num w).info.dripInfo n).setting = (w.info.dripInfo n).setting := by
  unfold callWorld
  split
  · rfl
  · split <;> simp

theorem callWorld_currTimeInMin (num : Fin 3) (w : World) :
    currTimeInMin (callWorld num w).info = currTimeInMin w.info := by
  unfold callWorld
  split
  · rfl
  · split <;> simp

/-- **An iteration of the scheduler that spares drip `k` is one step of the abstract drip.** -/
theorem scheduler_step {need : Prop} {k : Fin 3} {d : DripInfo} {w : World} {s : Solo} {c : Sample}
    (hneed : offTimeInMin d < d.startTime → need) (h : Agree need k d w s)
    (hu : ∀ j, Spares need k j (callWorld j (w.atSample c))) :
    Agree need k d ((scheduler k).step w c).1 ((Solo.machine d).step s c).1 ∧
      ((scheduler k).step w c).2 = ((Solo.machine d).step s c).2 := by
  have hv : (w.atSample c).info.timeIsValid = true := h.timeIsValid
  obtain ⟨hcall, hquiet⟩ := (h.sync c).beforeCall hu rfl
  obtain ⟨hend, hvalves⟩ := (hcall.own hneed).afterCall hu
  have hdrips := updateDrips_eq hv
  have hact := hcall.nextAction hneed
  refine ⟨?_, ?_⟩
  · show Agree need k d (updateDrips (w.atSample c)) (s.next d c)
    rw [hdrips]
    refine hend.agree ?_ ?_ rfl
    · rw [updateDrip_timeIsValid, callWorld_timeIsValid, hv]
    · rw [updateDrip_prevTimeInMin, callWorld_currTimeInMin]
      rfl
  · show DripOut.mk _ _ _ _ = DripOut.mk _ _ _ _
    rw [hdrips, h.on, hend.on, updateDrip_result, hact, hvalves, updateDrip_valves, hquiet,
      if_pos rfl, hact]
    rfl

theorem Booted.agree {w : World} (h : Booted w) (need : Prop) (k : Fin 3) :
    Agree need k (w.info.dripInfo k) w Solo.boot where
  timeIsValid := h.timeIsValid
  setting := rfl
  on := h.dripStatus k
  prev := h.prevTimeInMin
  roll := fun hon => nomatch hon

/-- A drip that is off agrees with an abstract one that is, whatever the flag says. -/
theorem agree_of_off {k : Fin 3} {w : World} (hvalid : w.info.timeIsValid = true)
    (hoff : w.dripStatus k = false) (need : Prop) :
    Agree need k (w.info.dripInfo k) w ⟨false, w.prevTimeInMin, w.timeRollOver⟩ where
  timeIsValid := hvalid
  setting := rfl
  on := hoff
  prev := rfl
  roll := fun _ _ => rfl

theorem Undisturbed.spares {k : Fin 3} {d : DripInfo} {w : World} {c : Sample}
    (h : Undisturbed k w c) (hset : (w.info.dripInfo k).setting = d.setting) (j : Fin 3) :
    Spares (offTimeInMin d < d.startTime) k j (callWorld j (w.atSample c)) := by
  have hset' : ((callWorld j (w.atSample c)).info.dripInfo k).setting = d.setting := by
    rw [callWorld_setting]
    exact hset
  have hx : offTimeInMin ((callWorld j (w.atSample c)).info.dripInfo k).setting <
      ((callWorld j (w.atSample c)).info.dripInfo k).setting.startTime ↔
      offTimeInMin d.setting < d.setting.startTime := by rw [hset']
  intro hopen hon hn
  exact spares_of_not_disturbs (h j) hopen hon (hx.2 hn)

/-- **The scheduler refines the abstract drip** along every run that does not disturb it, from any
world that agrees with it. -/
theorem Agree.run_eq {k : Fin 3} {d : DripInfo} {w : World} {s : Solo} {clock : List Sample}
    (h : Agree (offTimeInMin d < d.startTime) k d w s)
    (hu : (scheduler k).Along (Undisturbed k) w clock) :
    (scheduler k).run w clock = (Solo.machine d).run s clock :=
  Mealy.run_eq_of_sim (fun _ _ _ hR hP => scheduler_step id hR (hP.spares hR.setting)) h hu

theorem scheduler_eq_solo {w : World} (h : Booted w) (k : Fin 3) {clock : List Sample}
    (hu : (scheduler k).Along (Undisturbed k) w clock) :
    (scheduler k).run w clock = (Solo.machine (w.info.dripInfo k)).run Solo.boot clock :=
  (h.agree _ k).run_eq hu

/-! ## Independence -/

/-- The settings the schedule is made for: a start in the day and a duration below a day. -/
def DripInfo.InRange (d : DripInfo) : Prop :=
  (0 ≤ d.startTime ∧ d.startTime < 1440) ∧ 0 < d.duration ∧ d.duration < 1440

instance (d : DripInfo) : Decidable d.InRange := inferInstanceAs (Decidable (_ ∧ _ ∧ _))

/-- A clock that shows minutes of the day and goes on by at most one minute per sample. -/
structure Advancing (clock : List Sample) : Prop where
  range : ∀ c ∈ clock, 0 ≤ c.minute ∧ c.minute < 1440
  chain : clock.IsChain fun a b => b.minute = a.minute ∨ b.minute = (a.minute + 1) % 1440

/-- **Independence of the drips.** Two runs of the scheduler from boot, on one clock and with the
same settings of drip `k`, do the same with drip `k`, provided that neither of them opens another
drip while drip `k` is open behind midnight. -/
theorem scheduler_run_eq_of_undisturbed (k : Fin 3) (clock : List Sample) (w w' : World)
    (hw : Booted w) (hw' : Booted w')
    (hk : (w.info.dripInfo k).setting = (w'.info.dripInfo k).setting)
    (hu : (scheduler k).Along (Undisturbed k) w clock)
    (hu' : (scheduler k).Along (Undisturbed k) w' clock) :
    (scheduler k).run w clock = (scheduler k).run w' clock := by
  rw [scheduler_eq_solo hw k hu, scheduler_eq_solo hw' k hu', ← Solo.machine_setting, hk,
    Solo.machine_setting]

def bootWith (dripInfo : Fin 3 → DripInfo) : World :=
  { cleared (fun _ => none) with
    info := { (cleared fun _ => none).info with dripInfo := dripInfo, timeIsValid := true } }

theorem booted_bootWith (dripInfo : Fin 3 → DripInfo) : Booted (bootWith dripInfo) :=
  ⟨fun _ => rfl, rfl, rfl, rfl⟩

theorem scheduler_run_eq_at_midnight :
    (scheduler 1).run (bootWith ![⟨false, 1, 1437, 127⟩, ⟨false, 3, 1439, 127⟩, ⟨false, 1, 0, 0⟩])
        [⟨23, 57, 0⟩, ⟨23, 58, 0⟩, ⟨23, 59, 0⟩, ⟨0, 0, 1⟩, ⟨0, 1, 1⟩, ⟨0, 2, 1⟩] =
      (scheduler 1).run (bootWith ![⟨false, 1, 1437, 0⟩, ⟨false, 3, 1439, 127⟩, ⟨false, 1, 0, 0⟩])
        [⟨23, 57, 0⟩, ⟨23, 58, 0⟩, ⟨23, 59, 0⟩, ⟨0, 0, 1⟩, ⟨0, 1, 1⟩, ⟨0, 2, 1⟩] := by
  refine scheduler_run_eq_of_undisturbed 1 _ _ _ (booted_bootWith _) (booted_bootWith _) rfl ?_ ?_
  · decide
  · decide

/-- Without the condition the drips are not independent: the second drip waters from 23:59 for three
minutes, and the first drip, opening at 0:01, clears the flag it closes by. -/
theorem not_independent :
    ¬ ∀ (k : Fin 3) (clock : List Sample) (w w' : World), Advancing clock → Booted w → Booted w' →
      (∀ n, (w.info.dripInfo n).InRange) → (∀ n, (w'.info.dripInfo n).InRange) →
      (w.info.dripInfo k).setting = (w'.info.dripInfo k).setting →
      (scheduler k).run w clock = (scheduler k).run w' clock := by
  intro h
  have := h 1 [⟨23, 59, 0⟩, ⟨0, 0, 1⟩, ⟨0, 1, 1⟩, ⟨0, 2, 1⟩]
    (bootWith ![⟨false, 1, 1, 127⟩, ⟨false, 3, 1439, 127⟩, ⟨false, 1, 0, 0⟩])
    (bootWith ![⟨false, 1, 1, 0⟩, ⟨false, 3, 1439, 127⟩, ⟨false, 1, 0, 0⟩])
    ⟨by decide, by simp [Sample.minute]⟩ (booted_bootWith _) (booted_bootWith _)
    (by decide) (by decide) rfl
  revert this
  decide

end GreenHouse
