import GreenHouse.Drip.Edit

/-!
# Backward corrections of the clock

A synchronisation may set the clock back. `update_drip` takes every decrease of the minute for
midnight, so a correction that finds a drip on in a window over midnight raises the roll-over flag
before midnight, and the drip is closed at once. A correction that finds it off does no harm: to
open clears the flag.
-/

namespace GreenHouse

/-- A clock that shows minutes of the day and goes on by at most a minute per sample, but for
corrections: within a day, back to a minute of the window of `d` before midnight. -/
structure Correcting (d : DripInfo) (clock : List Sample) : Prop where
  range : ∀ c ∈ clock, 0 ≤ c.minute ∧ c.minute < 1440
  chain : clock.IsChain fun a b => b.minute = a.minute ∨ b.minute = (a.minute + 1) % 1440 ∨
    (b.day = a.day ∧ d.startTime ≤ b.minute ∧ b.minute < a.minute)

/-- The scheduler with the sample of each iteration. -/
def sampled (k : Fin 3) : Mealy World Sample (Sample × DripOut) where
  step w c := (((scheduler k).step w c).1, (c, ((scheduler k).step w c).2))

/-- An iteration that finds the drip on inside of its window leaves it on and commands nothing. -/
def KeepsOn (d : DripInfo) (o : Sample × DripOut) : Prop :=
  o.2.before = true → (o.1.minute - d.startTime) % 1440 < d.duration →
    o.2.on = true ∧ o.2.result = false ∧ o.2.valves = []

/-- No correction finds the drip on. -/
def Uncorrected (k : Fin 3) (w : World) (c : Sample) : Prop :=
  w.dripStatus k = true →
    ¬ ((w.info.dripInfo k).startTime ≤ c.minute ∧ c.minute < w.prevTimeInMin)

instance (d : DripInfo) (o : Sample × DripOut) : Decidable (KeepsOn d o) :=
  inferInstanceAs (Decidable (_ → _ → _))

instance (k : Fin 3) (w : World) (c : Sample) : Decidable (Uncorrected k w c) :=
  inferInstanceAs (Decidable (_ → ¬ _))

/-! ## The abstract drip -/

section Solo

variable {d : DripInfo} {s : Solo} {c : Sample}

theorem solo_keepsOn_iff (hd : d.InRange) (hx : 1440 ≤ d.startTime + d.duration) (h : Held d s)
    (hp : 0 ≤ s.prev ∧ s.prev < 1440) (hrange : 0 ≤ c.minute ∧ c.minute < 1440)
    (hc : s.on = true → c.minute = s.prev ∨ c.minute = (s.prev + 1) % 1440 ∨
      (d.startTime ≤ c.minute ∧ c.minute < s.prev)) :
    KeepsOn d (c, ((Solo.machine d).step s c).2) ↔
      (s.on = true → ¬ (d.startTime ≤ c.minute ∧ c.minute < s.prev)) := by
  have hout : ((Solo.machine d).step s c).2 =
      ⟨s.on, (s.next d c).on, decide (s.action d c ≠ .stay), (s.action d c).valves⟩ := rfl
  unfold KeepsOn
  rw [hout]
  cases hs : s.on with
  | false => simp
  | true =>
    have haction := action_on_night (c := c) hd hs hx
    have hheld := h hs
    rw [if_neg (by omega)] at hheld
    have hclock := hc hs
    have hrolled : s.rolled c = true ↔ s.roll = true ∨ c.minute < s.prev := by simp [Solo.rolled]
    obtain ⟨hstart, hdur⟩ := hd
    have hkept : (s.next d c).on = true ∧ decide (s.action d c ≠ .stay) = false ∧
        (s.action d c).valves = [] ↔ s.action d c = .stay := by
      cases ha : s.action d c <;> simp [Solo.next, ha, DripAction.status, DripAction.valves, hs]
    dsimp only
    rw [hkept, haction]
    have hclose : (if c.minute ≥ d.startTime + d.duration - 1440 ∧ s.rolled c = true
        then DripAction.close else .stay) = .stay ↔
        ¬ (c.minute ≥ d.startTime + d.duration - 1440 ∧ s.rolled c = true) := by
      split <;> simp_all
    rw [hclose, hrolled]
    simp only [true_imp_iff]
    rcases hheld with ⟨hlo, hroll⟩ | ⟨hhi, hroll⟩
    · rw [hroll]
      simp only [Bool.false_eq_true, false_or]
      omega
    · rw [hroll]
      simp only [true_or, and_true]
      omega

end Solo

/-! ## Iterations -/

/-- Only drip `k` is enabled, with the settings of `d`, and if it is on, it is held. -/
structure CorrectionInv (k : Fin 3) (d : DripInfo) (w : World) : Prop where
  timeIsValid : w.info.timeIsValid = true
  others : OthersDisabled k w
  setting : (w.info.dripInfo k).setting = d.setting
  held : Held d (w.solo k)
  prev : 0 ≤ w.prevTimeInMin ∧ w.prevTimeInMin < 1440

/-- A sample of a correcting clock, where the drip is on. -/
def Regular (k : Fin 3) (d : DripInfo) (w : World) (c : Sample) : Prop :=
  (0 ≤ c.minute ∧ c.minute < 1440) ∧
    (w.dripStatus k = true → c.minute = w.prevTimeInMin ∨
      c.minute = (w.prevTimeInMin + 1) % 1440 ∨
      (d.startTime ≤ c.minute ∧ c.minute < w.prevTimeInMin))

section Step

variable {k : Fin 3} {d : DripInfo} {w : World} {c : Sample} (hd : d.InRange)
  (hx : 1440 ≤ d.startTime + d.duration) (h : CorrectionInv k d w) (hc : Regular k d w c)

include hd h hc

theorem CorrectionInv.step (hu : Uncorrected k w c) :
    CorrectionInv k d ((sampled k).step w c).1 := by
  obtain ⟨hagree, -⟩ := scheduler_solo h.timeIsValid h.others c
  have hheld : Held (w.info.dripInfo k) (w.solo k) :=
    h.held.of_setting h.setting rfl rfl fun _ => rfl
  have hclock : (w.solo k).on = true →
      c.minute = (w.solo k).prev ∨ c.minute = ((w.solo k).prev + 1) % 1440 := by
    intro hon
    have hnot := hu hon
    rw [DripInfo.startTime_eq h.setting] at hnot
    rcases hc.2 hon with hstay | hnext | hback
    · exact Or.inl hstay
    · exact Or.inr hnext
    · exact absurd hback hnot
  have hsafe := hheld.stepSafe (hd.of_setting h.setting) h.prev hclock
  have hheld' := hsafe.held (hd.of_setting h.setting)
  have hprev : ((sampled k).step w c).1.prevTimeInMin = c.minute := hagree.prev
  exact
    { timeIsValid := hagree.timeIsValid
      others := h.others.step c
      setting := hagree.setting.trans h.setting
      held := hheld'.of_setting h.setting.symm hagree.on hagree.prev
        fun hon => hagree.roll hon trivial
      prev := by rw [hprev]; exact hc.1 }

include hx in
/-- **The step lemma**: an iteration keeps an open drip on in its window exactly when it is no
correction. -/
theorem keepsOn_iff_uncorrected : KeepsOn d ((sampled k).step w c).2 ↔ Uncorrected k w c := by
  obtain ⟨-, hout⟩ := scheduler_solo h.timeIsValid h.others c
  have hmachine : Solo.machine (w.info.dripInfo k) = Solo.machine d := by
    rw [← Solo.machine_setting, h.setting, Solo.machine_setting]
  rw [hmachine] at hout
  show KeepsOn d (c, ((scheduler k).step w c).2) ↔ _
  rw [hout, solo_keepsOn_iff hd hx h.held h.prev hc.1 hc.2]
  unfold Uncorrected
  rw [DripInfo.startTime_eq h.setting]
  rfl

end Step

/-! ## Runs -/

/-- The minute an iteration remembers is the one it was given. -/
theorem prevTimeInMin_step {k : Fin 3} {w : World} (hv : w.info.timeIsValid = true) (c : Sample) :
    ((sampled k).step w c).1.prevTimeInMin = c.minute ∧
      ((sampled k).step w c).1.info.timeIsValid = true := by
  have hv' : (w.atSample c).info.timeIsValid = true := hv
  show (updateDrips (w.atSample c)).prevTimeInMin = _ ∧
    (updateDrips (w.atSample c)).info.timeIsValid = true
  rw [updateDrips_eq hv', updateDrip_prevTimeInMin, callWorld_currTimeInMin,
    updateDrip_timeIsValid, callWorld_timeIsValid]
  exact ⟨rfl, hv⟩

theorem along_regular {k : Fin 3} {d : DripInfo} (clock : List Sample) : ∀ {w : World},
    w.info.timeIsValid = true → Correcting d clock →
    (w.dripStatus k = true → ∀ c ∈ clock.head?, c.minute = w.prevTimeInMin ∨
      c.minute = (w.prevTimeInMin + 1) % 1440 ∨
      (d.startTime ≤ c.minute ∧ c.minute < w.prevTimeInMin)) →
    (sampled k).Along (Regular k d) w clock := by
  induction clock with
  | nil => exact fun _ _ _ => trivial
  | cons c clock ih =>
    intro w hv hclock hfirst
    obtain ⟨hprev, hv'⟩ := prevTimeInMin_step (k := k) hv c
    refine ⟨⟨hclock.range c List.mem_cons_self, fun hon => hfirst hon c rfl⟩, ?_⟩
    refine ih hv' ⟨fun b hb => hclock.range b (List.mem_cons_of_mem _ hb), hclock.chain.of_cons⟩ ?_
    intro _ b hb
    rw [hprev]
    cases clock with
    | nil => cases hb
    | cons b' clock =>
      rw [List.head?_cons, Option.mem_some_iff] at hb
      subst hb
      rcases (List.isChain_cons_cons.1 hclock.chain).1 with hstay | hnext | ⟨-, hback⟩
      · exact Or.inl hstay
      · exact Or.inr (Or.inl hnext)
      · exact Or.inr (Or.inr hback)

/-- **Backward corrections.** In every run from boot in which only drip `k` is enabled, with a
window over midnight, on a correcting clock: the drip is kept on in its window, without a command,
exactly when no correction finds it on. -/
theorem sampled_keepsOn_iff (k : Fin 3) (w : World) (clock : List Sample) (hw : Booted w)
    (hothers : OthersDisabled k w) (hd : (w.info.dripInfo k).InRange)
    (hx : 1440 ≤ (w.info.dripInfo k).startTime + (w.info.dripInfo k).duration)
    (hclock : Correcting (w.info.dripInfo k) clock) :
    (∀ o ∈ (sampled k).run w clock, KeepsOn (w.info.dripInfo k) o) ↔
      (sampled k).Along (Uncorrected k) w clock := by
  have hoff : w.dripStatus k = true → False := by
    rw [hw.dripStatus k]
    exact fun hon => nomatch hon
  have hinv : CorrectionInv k (w.info.dripInfo k) w :=
    { timeIsValid := hw.timeIsValid
      others := hothers
      setting := rfl
      held := fun hon => (hoff hon).elim
      prev := by rw [hw.prevTimeInMin]; decide }
  exact Mealy.forall_run_iff_of_along (I := CorrectionInv k (w.info.dripInfo k))
    (L := Regular k (w.info.dripInfo k)) (fun _ _ h hc hu => h.step hd hc hu)
    (fun _ _ h hc => keepsOn_iff_uncorrected hd hx h hc) hinv
    (along_regular clock hw.timeIsValid hclock fun hon => (hoff hon).elim)

/-- A drip with a window from 23:58 to 0:02, and the others off. -/
def overMidnight : World :=
  bootWith ![⟨false, 4, 1438, 127⟩, ⟨false, 1, 0, 0⟩, ⟨false, 1, 0, 0⟩]

theorem sampled_keepsOn_over_midnight :
    (sampled 0).Along (Uncorrected 0) overMidnight
        [⟨23, 58, 3⟩, ⟨23, 59, 3⟩, ⟨0, 0, 4⟩, ⟨0, 1, 4⟩, ⟨0, 2, 4⟩] ∧
      ∀ o ∈ (sampled 0).run overMidnight
        [⟨23, 58, 3⟩, ⟨23, 59, 3⟩, ⟨0, 0, 4⟩, ⟨0, 1, 4⟩, ⟨0, 2, 4⟩],
        KeepsOn (overMidnight.info.dripInfo 0) o := by
  have h : (sampled 0).Along (Uncorrected 0) overMidnight
      [⟨23, 58, 3⟩, ⟨23, 59, 3⟩, ⟨0, 0, 4⟩, ⟨0, 1, 4⟩, ⟨0, 2, 4⟩] := by decide
  exact ⟨h, (sampled_keepsOn_iff 0 overMidnight _ (booted_bootWith _) (by decide) (by decide)
    (by decide) ⟨by decide, by simp [Sample.minute]⟩).2 h⟩

/-- A correction from 23:59 to 23:58 finds the drip on and closes it. -/
theorem sampled_not_keepsOn :
    Booted overMidnight ∧ OthersDisabled 0 overMidnight ∧
      (overMidnight.info.dripInfo 0).InRange ∧
      Correcting (overMidnight.info.dripInfo 0) [⟨23, 58, 3⟩, ⟨23, 59, 3⟩, ⟨23, 58, 3⟩] ∧
      ¬ ∀ o ∈ (sampled 0).run overMidnight [⟨23, 58, 3⟩, ⟨23, 59, 3⟩, ⟨23, 58, 3⟩],
        KeepsOn (overMidnight.info.dripInfo 0) o := by
  refine ⟨booted_bootWith _, by decide, by decide, ⟨by decide, ?_⟩, by decide⟩
  simp [Sample.minute, overMidnight, bootWith]

end GreenHouse
