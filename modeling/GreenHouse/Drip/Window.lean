import GreenHouse.Drip.Loop
import GreenHouse.Drip.Solo
import GreenHouse.Init
import GreenHouse.Lib.Window

/-!
# A drip follows its schedule

The specification of a schedule is a window on the clock of absolute minutes: it opens at the start
time of every enabled day and lasts for the duration, also over midnight (`Watering`). The code has
no window; it has an off time modulo a day, a flag that the minute fell, and two ways to close. The
invariant `OnSchedule` ties the three together: an open drip is in its window, and if the window
crosses midnight, the flag is up exactly when midnight is behind.

`scheduler_follows_window`: a drip whose neighbours are disabled is on exactly in its windows, at
every sample of every run that does not start inside one. `dripLoop_follows_window` says so of whole
iterations of `app_loop`, from the one that makes the time valid on.
-/

namespace GreenHouse

open CInt

/-- The schedule of a drip: `T` counts minutes, `d0` is the weekday of day 0. -/
def Watering (d : DripInfo) (d0 T : Int) : Prop :=
  Window.InWindow 1440 d.startTime d.duration
    (fun j => dayEnabled d.days ((d0 + j) % 7) = true) T

structure Shows (d0 T : Int) (c : Sample) : Prop where
  minute : c.minute = T % 1440
  day : c.day = (d0 + T / 1440) % 7

/-! ## The code's tests in range -/

namespace DripInfo.InRange

variable {d : DripInfo}

theorem sum (h : d.InRange) : i32 (d.startTime + d.duration) = d.startTime + d.duration := by
  obtain ⟨h1, h2⟩ := h
  exact i32_eq ⟨by omega, by omega⟩

theorem offTime (h : d.InRange) : offTimeInMin d =
    if d.startTime + d.duration < 1440 then d.startTime + d.duration
    else d.startTime + d.duration - 1440 := by
  have hsum := h.sum
  obtain ⟨h1, h2⟩ := h
  unfold offTimeInMin
  rw [hsum, Int.tmod_eq_emod_of_nonneg (by omega)]
  split <;> omega

/-- The window crosses midnight, or ends there, exactly when the off time is below the start. -/
theorem crosses (h : d.InRange) :
    offTimeInMin d < d.startTime ↔ 1440 ≤ d.startTime + d.duration := by
  rw [h.offTime]
  obtain ⟨h1, h2⟩ := h
  split <;> omega

theorem openTest (h : d.InRange) (c day : Int) : OpenTest d c day ↔
    d.startTime ≤ c ∧ c < d.startTime + d.duration ∧ dayEnabled d.days day = true := by
  unfold OpenTest
  rw [h.sum]

theorem watering (h : d.InRange) (d0 T : Int) : Watering d d0 T ↔
    (d.startTime ≤ T % 1440 ∧ T % 1440 < d.startTime + d.duration ∧
        dayEnabled d.days ((d0 + T / 1440) % 7) = true) ∨
      (T % 1440 < d.startTime + d.duration - 1440 ∧
        dayEnabled d.days ((d0 + (T / 1440 - 1)) % 7) = true) :=
  Window.inWindow_iff h.1 h.2 T

end DripInfo.InRange

/-! ## The invariant -/

/-- After the sample of minute `T`: the drip is on exactly in its windows, and while it is on in a
window that crosses midnight, the flag is up exactly behind midnight. -/
structure OnSchedule (d : DripInfo) (d0 T : Int) (s : Solo) : Prop where
  prev : s.prev = T % 1440
  on : s.on = true ↔ Watering d d0 T
  roll : s.on = true → 1440 ≤ d.startTime + d.duration →
    (s.roll = true ↔ T % 1440 < d.startTime)

section Step

variable {d : DripInfo} {d0 T T' : Int} {s : Solo} {c : Sample}

/-- A drip that is off and outside of every window opens exactly at the start of one. -/
theorem openTest_iff_watering (hd : d.InRange) (hT : T' = T ∨ T' = T + 1) (hc : Shows d0 T' c)
    (hoff : ¬ Watering d d0 T) : OpenTest d c.minute c.day ↔ Watering d d0 T' := by
  rw [hd.openTest, hc.minute, hc.day, hd.watering]
  rw [hd.watering] at hoff
  obtain ⟨hs, hdur⟩ := hd
  refine ⟨Or.inl, ?_⟩
  rintro (h | ⟨hlt, hen⟩)
  · exact h
  · -- behind midnight in a window, the minute before was in the same window
    refine absurd ?_ hoff
    rcases hT with rfl | rfl
    · exact Or.inr ⟨hlt, hen⟩
    · by_cases hmid : T % 1440 = 1439
      · have hday : (T + 1) / 1440 - 1 = T / 1440 := by omega
        rw [hday] at hen
        exact Or.inl ⟨by omega, by omega, hen⟩
      · have hday : (T + 1) / 1440 = T / 1440 := by omega
        rw [hday] at hen
        exact Or.inr ⟨by omega, hen⟩

theorem OnSchedule.step_off (hd : d.InRange) (hs : s.on = false) (hc : Shows d0 T c)
    (hopen : OpenTest d c.minute c.day ↔ Watering d d0 T) : OnSchedule d d0 T (s.next d c) := by
  have hact : s.action d c = if OpenTest d c.minute c.day then .open else .stay := by
    unfold Solo.action
    rw [hs, dripAction_off]
  by_cases h : OpenTest d c.minute c.day
  · rw [if_pos h] at hact
    refine ⟨hc.minute, ?_, ?_⟩
    · simpa [Solo.next, hact, DripAction.status] using hopen.1 h
    · intro _ _
      have hstart := ((hd.openTest _ _).1 h).1
      rw [hc.minute] at hstart
      simpa [Solo.next, hact, DripAction.roll] using hstart
  · rw [if_neg h] at hact
    refine ⟨hc.minute, ?_, ?_⟩
    · simpa [Solo.next, hact, DripAction.status, hs] using fun hw => h (hopen.2 hw)
    · intro hon
      simp [Solo.next, hact, DripAction.status, hs] at hon

theorem OnSchedule.step_on_day (hd : d.InRange) (h : OnSchedule d d0 T s) (hs : s.on = true)
    (hx : ¬ 1440 ≤ d.startTime + d.duration) (hT : T' = T ∨ T' = T + 1) (hc : Shows d0 T' c) :
    OnSchedule d d0 T' (s.next d c) := by
  have hin := (hd.watering d0 T).1 (h.on.1 hs)
  have hcross := hd.crosses.not.2 hx
  have hofftime := hd.offTime
  rw [if_pos (by omega)] at hofftime
  have hact : s.action d c =
      if c.minute ≥ d.startTime + d.duration then .close else .stay := by
    unfold Solo.action dripAction
    rw [hs, if_neg (by decide), if_neg hcross, hofftime]
  have hmin := hc.minute
  obtain ⟨hstart, hdur⟩ := hd.1, hd.2
  rcases hin with ⟨hlo, hhi, hen⟩ | ⟨hlt, -⟩
  · have hday : T' / 1440 = T / 1440 := by omega
    refine ⟨hc.minute, ?_, fun _ hx' => absurd hx' hx⟩
    rw [hd.watering, hday]
    by_cases hend : c.minute ≥ d.startTime + d.duration
    · rw [if_pos hend] at hact
      have : (s.next d c).on = false := by simp [Solo.next, hact, DripAction.status]
      rw [this]
      refine ⟨fun hf => absurd hf (by decide), ?_⟩
      rintro (⟨_, h2, _⟩ | ⟨h2, _⟩) <;> omega
    · rw [if_neg hend] at hact
      have : (s.next d c).on = true := by simp [Solo.next, hact, DripAction.status, hs]
      rw [this]
      exact ⟨fun _ => Or.inl ⟨by omega, by omega, hen⟩, fun _ => rfl⟩
  · omega

/-- A drip that is on in a window over midnight closes when the window is over and the minute has
fallen since it opened. -/
theorem action_on_night (hd : d.InRange) (hs : s.on = true)
    (hx : 1440 ≤ d.startTime + d.duration) :
    s.action d c = if c.minute ≥ d.startTime + d.duration - 1440 ∧ s.rolled c = true then .close
      else .stay := by
  have hofftime := hd.offTime
  rw [if_neg (by omega)] at hofftime
  unfold Solo.action dripAction
  rw [hs, if_neg (by decide), if_pos (hd.crosses.2 hx), hofftime]

theorem OnSchedule.step_on_night (hd : d.InRange) (h : OnSchedule d d0 T s) (hs : s.on = true)
    (hx : 1440 ≤ d.startTime + d.duration) (hT : T' = T ∨ T' = T + 1) (hc : Shows d0 T' c) :
    OnSchedule d d0 T' (s.next d c) := by
  have hin := (hd.watering d0 T).1 (h.on.1 hs)
  have hact := action_on_night (c := c) hd hs hx
  have hroll := h.roll hs hx
  have hprev := h.prev
  have hmin := hc.minute
  have hrolled : s.rolled c = true ↔ T % 1440 < d.startTime ∨ T' % 1440 < T % 1440 := by
    unfold Solo.rolled
    rw [Bool.or_eq_true, hroll, decide_eq_true_eq, hmin, hprev]
  obtain ⟨hstart, hdur⟩ := hd.1, hd.2
  -- over midnight the day changes and the window becomes yesterday's
  have hday : (T' % 1440 = 0 ∧ T % 1440 = 1439 ∧ T' / 1440 - 1 = T / 1440) ∨
      (T % 1440 ≤ T' % 1440 ∧ T' % 1440 ≤ T % 1440 + 1 ∧ T' / 1440 = T / 1440) := by omega
  by_cases hend : c.minute ≥ d.startTime + d.duration - 1440 ∧ s.rolled c = true
  · rw [if_pos hend] at hact
    have hoff : (s.next d c).on = false := by simp [Solo.next, hact, DripAction.status]
    refine ⟨hc.minute, ?_, fun hon => absurd (hoff ▸ hon) (by decide)⟩
    rw [hd.watering, hoff]
    refine ⟨fun hf => absurd hf (by decide), ?_⟩
    have hpast := hrolled.1 hend.2
    rintro (⟨h1, h2, _⟩ | ⟨h1, _⟩)
    · rcases hin with ⟨_, _, _⟩ | ⟨_, _⟩ <;> omega
    · omega
  · rw [if_neg hend] at hact
    have hon : (s.next d c).on = true := by simp [Solo.next, hact, DripAction.status, hs]
    have hroll' : (s.next d c).roll = s.rolled c := by simp [Solo.next, hact, DripAction.roll]
    rw [hrolled, hmin, not_and_or] at hend
    refine ⟨hc.minute, ?_, ?_⟩
    · rw [hd.watering, hon]
      refine ⟨fun _ => ?_, fun _ => rfl⟩
      rcases hday with ⟨h0, h1, h2⟩ | ⟨h0, h1, h2⟩
      · rcases hin with ⟨_, _, hen⟩ | ⟨_, _⟩
        · rw [h2]
          exact Or.inr ⟨by omega, hen⟩
        · omega
      · rw [h2]
        rcases hin with ⟨_, _, hen⟩ | ⟨_, hen⟩
        · exact Or.inl ⟨by omega, by omega, hen⟩
        · exact Or.inr ⟨by omega, hen⟩
    · intro _ _
      rw [hroll', hrolled]
      rcases hin with ⟨_, _, _⟩ | ⟨_, _⟩ <;> omega

/-- **The invariant is kept** by every sample that goes on by at most a minute. -/
theorem OnSchedule.step (hd : d.InRange) (h : OnSchedule d d0 T s) (hT : T' = T ∨ T' = T + 1)
    (hc : Shows d0 T' c) : OnSchedule d d0 T' (s.next d c) := by
  cases hs : s.on with
  | false =>
    have hout : ¬ Watering d d0 T := fun hw => by rw [h.on.2 hw] at hs; cases hs
    exact .step_off hd hs hc (openTest_iff_watering hd hT hc hout)
  | true =>
    by_cases hx : 1440 ≤ d.startTime + d.duration
    · exact h.step_on_night hd hs hx hT hc
    · exact h.step_on_day hd hs hx hT hc

/-- The first sample of a drip that is off sets the invariant up, if it lies in no window. -/
theorem OnSchedule.first (hd : d.InRange) (hs : s.on = false) (hc : Shows d0 T c)
    (hT : ¬ Watering d d0 T) : OnSchedule d d0 T (s.next d c) :=
  .step_off hd hs hc (openTest_iff_watering hd (Or.inl rfl) hc hT)

end Step

/-! ## Runs -/

/-- What the schedule asks of an iteration at minute `T`: the drip is on exactly in its windows,
and `update_drip` answers true and issues a command exactly when the status changes. -/
structure Follows (d : DripInfo) (d0 T : Int) (o : DripOut) : Prop where
  on : o.on = true ↔ Watering d d0 T
  result : o.result = true ↔ o.on ≠ o.before
  valves : o.valves = if o.on = o.before then [] else [o.on]

theorem Solo.follows {d : DripInfo} {d0 T : Int} {s : Solo} {c : Sample}
    (h : OnSchedule d d0 T (s.next d c)) : Follows d d0 T ((Solo.machine d).step s c).2 where
  on := h.on
  result := by
    show decide (s.action d c ≠ .stay) = true ↔ (s.action d c).status s.on ≠ s.on
    rw [decide_eq_true_eq]
    exact dripAction_status_ne.symm
  valves := by
    show (s.action d c).valves = if (s.action d c).status s.on = s.on then [] else
      [(s.action d c).status s.on]
    have hne : (s.action d c).status s.on ≠ s.on ↔ s.action d c ≠ .stay := dripAction_status_ne
    cases ha : s.action d c with
    | stay => simp [DripAction.valves, DripAction.status]
    | «open» => rw [if_neg (by rw [← ha]; exact hne.2 (by rw [ha]; decide))]; rfl
    | close => rw [if_neg (by rw [← ha]; exact hne.2 (by rw [ha]; decide))]; rfl

theorem Solo.run_follows {d : DripInfo} (hd : d.InRange) {d0 : Int} {Ts : List Int}
    {clock : List Sample} (hclock : List.Forall₂ (Shows d0) Ts clock) :
    ∀ {T : Int} {s : Solo}, OnSchedule d d0 T s →
      (T :: Ts).IsChain (fun a b => b = a ∨ b = a + 1) →
      List.Forall₂ (Follows d d0) Ts ((Solo.machine d).run s clock) := by
  induction hclock with
  | nil => intros; exact .nil
  | @cons T' c Ts clock hc _ ih =>
    intro T s hs hchain
    obtain ⟨hT, hrest⟩ := List.isChain_cons_cons.1 hchain
    have hnext := hs.step hd hT hc
    exact .cons (Solo.follows hnext) (ih hnext hrest)

def OthersDisabled (k : Fin 3) (w : World) : Prop := ∀ j, j ≠ k → (w.info.dripInfo j).days = 0

instance (k : Fin 3) (w : World) : Decidable (OthersDisabled k w) :=
  inferInstanceAs (Decidable (∀ j, j ≠ k → (w.info.dripInfo j).days = 0))

theorem dayEnabled_zero (day : Int) : dayEnabled 0 day = false := by
  simp [dayEnabled]

theorem OthersDisabled.updateDrip {k : Fin 3} {w : World} (h : OthersDisabled k w) (num : Fin 3) :
    OthersDisabled k (updateDrip num w).2 := by
  intro j hj
  rw [DripInfo.days_eq (updateDrip_setting num w j)]
  exact h j hj

theorem OthersDisabled.callWorld {k : Fin 3} {w : World} (h : OthersDisabled k w) :
    ∀ num : Fin 3, OthersDisabled k (callWorld num w)
  | 0 => by rw [callWorld_zero]; exact h
  | 1 => by rw [callWorld_one]; exact h.updateDrip 0
  | 2 => by rw [callWorld_two, callWorld_one]; exact (h.updateDrip 0).updateDrip 1

/-- A disabled drip does not open, so it takes the flag from nobody. -/
theorem OthersDisabled.spares {k : Fin 3} {w : World} (h : OthersDisabled k w) (need : Prop)
    (j : Fin 3) : Spares need k j w := by
  intro hopen hon
  obtain ⟨hoff, -, -, hen⟩ := nextAction_eq_open.1 hopen
  by_cases hj : j = k
  · subst hj
    rw [hon] at hoff
    cases hoff
  · rw [h j hj, dayEnabled_zero] at hen
    cases hen

theorem OthersDisabled.undisturbed {k : Fin 3} {w : World} (h : OthersDisabled k w) (c : Sample) :
    Undisturbed k w c := by
  intro j hdist
  have h' : OthersDisabled k (w.atSample c) := h
  have := (h'.callWorld j).spares True j (nextAction_eq_open.2 hdist.1) hdist.2.1 trivial
  rw [hdist.2.2.2] at this
  cases this

theorem OthersDisabled.step {k : Fin 3} {w : World} (h : OthersDisabled k w) (c : Sample) :
    OthersDisabled k ((scheduler k).step w c).1 := by
  have h' : OthersDisabled k (w.atSample c) := h
  show OthersDisabled k (updateDrips (w.atSample c))
  unfold updateDrips
  split
  · exact ((h'.updateDrip 0).updateDrip 1).updateDrip 2
  · exact h'

theorem scheduler_follows_window (k : Fin 3) (w : World) (hvalid : w.info.timeIsValid = true)
    (hoff : w.dripStatus k = false) (hothers : OthersDisabled k w)
    (hd : (w.info.dripInfo k).InRange) (d0 : Int) (Ts : List Int) (clock : List Sample)
    (hclock : List.Forall₂ (Shows d0) Ts clock)
    (hadv : Ts.IsChain fun a b => b = a ∨ b = a + 1)
    (hfirst : ∀ T ∈ Ts.head?, ¬ Watering (w.info.dripInfo k) d0 T) :
    List.Forall₂ (Follows (w.info.dripInfo k) d0) Ts ((scheduler k).run w clock) := by
  have halong : (scheduler k).Along (Undisturbed k) w clock :=
    Mealy.along_of_inv (fun _ c h => h.step c) (fun _ c h => h.undisturbed c) hothers
  rw [(agree_of_off hvalid hoff _).run_eq halong]
  cases hclock with
  | nil => exact .nil
  | cons hc hrest =>
    have hsched := OnSchedule.first (s := ⟨false, w.prevTimeInMin, w.timeRollOver⟩) hd rfl hc
      (hfirst _ rfl)
    exact .cons (Solo.follows hsched) (Solo.run_follows hd hrest hsched hadv)

/-- **A drip follows its schedule.** In every run of iterations of `app_loop`, from the first that
has a valid time on, in a world in which drip `k` is off, as behind a boot: with the other drips
disabled, settings in range and a clock that goes on by at most a minute from a time in no window,
drip `k` is on after every iteration exactly if the clock is in one of its windows, and
`update_drip` answers true and issues a valve command exactly when the status changes. -/
theorem dripLoop_follows_window (k : Fin 3) (w : World) (hoff : w.dripStatus k = false)
    (hothers : OthersDisabled k w) (hd : (w.info.dripInfo k).InRange) (d0 : Int) (Ts : List Int)
    (envs : List LoopEnv) (hvalid : FirstValid w envs)
    (hclock : List.Forall₂ (Shows d0) Ts (clockOf w envs))
    (hadv : Ts.IsChain fun a b => b = a ∨ b = a + 1)
    (hfirst : ∀ T ∈ Ts.head?, ¬ Watering (w.info.dripInfo k) d0 T) :
    List.Forall₂ (Follows (w.info.dripInfo k) d0) Ts ((dripLoop k).run w envs) := by
  rw [dripLoop_run_eq k hvalid]
  exact scheduler_follows_window k w.withTime rfl hoff hothers hd d0 Ts _ hclock hadv hfirst

/-- An iteration that synchronises, for the first time or again. -/
def synchronising (c : Sample) : LoopEnv where
  temperature := 70
  humidity := 40
  time :=
    { first := ⟨fun _ => .completed, 0, c.min, c.hour, c.day⟩
      msecFirst := 0
      msecTest := 3600001
      resync := ⟨fun _ => .completed, 0, c.min, c.hour, c.day⟩
      msecResync := 0
      msecNow := 0 }

/-- A flash with a schedule of drip 2 from 23:59 for two minutes, on Sundays. -/
def nightFlash (key : CText.Text) : Option Int :=
  if key = dripStartKey 1 then some 1439
  else if key = dripDurKey 1 then some 2
  else if key = dripDaysKey 1 then some 1
  else none

/-- From a boot on, over midnight. -/
theorem dripLoop_follows_window_night :
    List.Forall₂ (Follows ⟨false, 2, 1439, 1⟩ 0) [1438, 1439, 1440, 1441]
      ((dripLoop 1).run (boot nightFlash) ([⟨23, 58, 0⟩, ⟨23, 59, 0⟩, ⟨0, 0, 1⟩, ⟨0, 1, 1⟩].map
        synchronising)) := by
  have hsettings : (boot nightFlash).info.dripInfo 1 = ⟨false, 2, 1439, 1⟩ := by decide +kernel
  have hclock : clockOf (boot nightFlash) ([⟨23, 58, 0⟩, ⟨23, 59, 0⟩, ⟨0, 0, 1⟩, ⟨0, 1, 1⟩].map
      synchronising) = [⟨23, 58, 0⟩, ⟨23, 59, 0⟩, ⟨0, 0, 1⟩, ⟨0, 1, 1⟩] := by decide +kernel
  rw [← hsettings]
  refine dripLoop_follows_window 1 (boot nightFlash) ?_ ?_ ?_ 0 _ _ ?_ ?_ ?_ ?_
  · exact congrFun (dripStatus_boot nightFlash) 1
  · decide +kernel
  · rw [hsettings]
    decide
  · decide +kernel
  · rw [hclock]
    exact .cons ⟨rfl, rfl⟩ (.cons ⟨rfl, rfl⟩ (.cons ⟨rfl, rfl⟩ (.cons ⟨rfl, rfl⟩ .nil)))
  · simp
  · intro T hT
    rw [List.head?_cons, Option.mem_some_iff] at hT
    subst hT
    have hd : (⟨false, 2, 1439, 1⟩ : DripInfo).InRange := by decide
    rw [hsettings]
    exact fun h => absurd ((hd.watering 0 1438).1 h) (by decide)

end GreenHouse
