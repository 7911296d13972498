import GreenHouse.Init

/-!
# RAM and flash after a boot

`Setting.get_boot` says what every setting is after a boot, as a function of the flash the boot
found. Five of the eleven blocks of `Init_Settings` put a value where it does not belong: the set
point for switching off is read into the one for switching on, the default start of the third drip
goes to the first, and the default durations go to the start times. So RAM and flash agree only on
the boots that meet none of these (`boot_agrees_iff`).
-/

namespace GreenHouse

open CText

/-! ## The settings after a boot -/

/-- What a boot leaves in RAM for each setting. -/
def bootValue (flash : Text → Option Int) : Setting → Int
  | .fanTempOn => (flash Setting.fanTempOff.key).getD ((flash Setting.fanTempOn.key).getD 95)
  | .fanTempOff => if (flash Setting.fanTempOff.key).isSome then 0 else 90
  | .startTime 0 =>
    if flash (Setting.duration 0).key = none then 5 * 60
    else if flash (Setting.startTime 2).key = none then 3 * 60 * 60
    else (flash (Setting.startTime 0).key).getD (1 * 60 * 60)
  | .startTime 1 =>
    if flash (Setting.duration 1).key = none then 5 * 60
    else (flash (Setting.startTime 1).key).getD (2 * 60 * 60)
  | .startTime 2 =>
    if flash (Setting.duration 2).key = none then 5 * 60
    else (flash (Setting.startTime 2).key).getD 0
  | .duration num => (flash (Setting.duration num).key).getD 0
  | .days num => (flash (Setting.days num).key).getD 0

theorem assign_eq (flash : Text → Option Int) (t s : Setting) (x : Int) :
    (if t = (initAssign flash s).1 then (initAssign flash s).2 else x) =
      (flash s.key).elim (if t = (initBlock s).defaultInto then (initBlock s).default else x)
        fun v => if t = (initBlock s).readInto then v else x := by
  unfold initAssign
  cases flash s.key <;> rfl

theorem foldl_assign (flash : Text → Option Int) (t : Setting) :
    Setting.all.foldl
      (fun x s => if t = (initAssign flash s).1 then (initAssign flash s).2 else x) 0 =
      bootValue flash t := by
  have hconst : ∀ (o : Option Int) (x : Int), o.elim x (fun _ => x) = x := by
    rintro (_ | _) x <;> rfl
  have hgetD : ∀ (o : Option Int) (x : Int), o.elim x (fun v => v) = o.getD x := by
    rintro (_ | _) x <;> rfl
  simp only [Setting.all, List.foldl_cons, List.foldl_nil, assign_eq, initBlock]
  match t with
  | .fanTempOn =>
    simp only [hconst, reduceCtorEq, if_true, if_false, bootValue]
    cases flash Setting.fanTempOff.key <;> cases flash Setting.fanTempOn.key <;> rfl
  | .fanTempOff =>
    simp only [hconst, reduceCtorEq, if_true, if_false, bootValue]
    cases flash Setting.fanTempOff.key <;> rfl
  | .startTime 0 =>
    simp only [Fin.isValue, reduceCtorEq, ↓reduceIte, Setting.startTime.injEq, Fin.reduceEq,
      zero_ne_one, Int.reduceMul, one_mul, hconst, bootValue]
    cases flash (Setting.duration 0).key <;> cases flash (Setting.startTime 2).key <;>
      cases flash (Setting.startTime 0).key <;> rfl
  | .startTime 1 =>
    simp only [Fin.isValue, reduceCtorEq, ↓reduceIte, Setting.startTime.injEq, Fin.reduceEq,
      one_ne_zero, Int.reduceMul, hconst, bootValue]
    cases flash (Setting.duration 1).key <;> cases flash (Setting.startTime 1).key <;> rfl
  | .startTime 2 =>
    simp only [Fin.isValue, reduceCtorEq, ↓reduceIte, Setting.startTime.injEq, Fin.reduceEq,
      Int.reduceMul, hconst, bootValue]
    cases flash (Setting.duration 2).key <;> cases flash (Setting.startTime 2).key <;> rfl
  | .duration 0 | .duration 1 | .duration 2 =>
    simp [hconst, hgetD, bootValue]
  | .days 0 | .days 1 | .days 2 =>
    simp [hconst, hgetD, bootValue]

/-- **The settings after a boot.** -/
theorem Setting.get_boot (flash : Text → Option Int) (t : Setting) :
    t.get (boot flash).info = bootValue flash t := by
  have hstart : t.get (initStates (initGpio (cleared flash))).info = 0 := by
    cases t <;> rfl
  unfold boot init initSettings
  rw [get_initAll t (by decide), hstart]
  exact foldl_assign flash t

theorem flash_boot (flash : Text → Option Int) (s : Setting) :
    (boot flash).flash s.key = some ((flash s.key).getD (initBlock s).stored) := by
  unfold boot init initSettings
  rw [flash_initAll, if_pos (Setting.mem_all s)]
  rfl

/-! ## When RAM and flash agree -/

/-- Every setting in RAM is the value flash holds under the setting's own key. -/
def Agrees (w : World) : Prop := ∀ s : Setting, w.flash s.key = some (s.get w.info)

/-- A second boot, without a command in between, finds the settings of the first. -/
def BootsAlike (flash : Text → Option Int) : Prop :=
  ∀ s : Setting, s.get (boot (boot flash).flash).info = s.get (boot flash).info

/-- The defaults that go astray are not used: the third start and the three durations are in
flash. -/
def DripKeysPresent (flash : Text → Option Int) : Prop :=
  flash (Setting.startTime 2).key ≠ none ∧ ∀ num, flash (Setting.duration num).key ≠ none

theorem agrees_boot_iff (flash : Text → Option Int) :
    Agrees (boot flash) ↔
      ∀ s : Setting, (flash s.key).getD (initBlock s).stored = bootValue flash s := by
  unfold Agrees
  refine forall_congr' fun s => ?_
  rw [flash_boot, Setting.get_boot, Option.some_inj]

theorem getD_eq_getD_iff {o : Option Int} {a b : Int} (h : a ≠ b) :
    o.getD a = o.getD b ↔ o ≠ none := by
  cases o <;> simp [h]

theorem duration_agrees_iff (flash : Text → Option Int) (num : Fin 3) :
    (flash (Setting.duration num).key).getD (initBlock (.duration num)).stored =
      bootValue flash (.duration num) ↔ flash (Setting.duration num).key ≠ none := by
  match num with
  | 0 | 1 | 2 => exact getD_eq_getD_iff (by decide)

/-- The two set points agree with flash exactly when the one for switching off is not in flash, or
both are and are zero. -/
theorem fan_agrees_iff (flash : Text → Option Int) :
    ((flash Setting.fanTempOn.key).getD 95 = bootValue flash .fanTempOn ∧
      (flash Setting.fanTempOff.key).getD 90 = bootValue flash .fanTempOff) ↔
      flash Setting.fanTempOff.key = none ∨
        (flash Setting.fanTempOn.key = some 0 ∧ flash Setting.fanTempOff.key = some 0) := by
  unfold bootValue
  cases flash Setting.fanTempOff.key with
  | none => simp
  | some v =>
    cases flash Setting.fanTempOn.key with
    | none => simp; omega
    | some u => simp; omega

/-- Agreement alone: the set point for switching off is missing too, or both set points are zero. -/
theorem boot_agrees_iff (flash : Text → Option Int) :
    Agrees (boot flash) ↔
      (flash Setting.fanTempOff.key = none ∨
        (flash Setting.fanTempOn.key = some 0 ∧ flash Setting.fanTempOff.key = some 0)) ∧
      DripKeysPresent flash := by
  rw [agrees_boot_iff, ← fan_agrees_iff]
  constructor
  · intro h
    have hdur : ∀ num, flash (Setting.duration num).key ≠ none := fun num =>
      (duration_agrees_iff flash num).1 (h (.duration num))
    refine ⟨⟨h .fanTempOn, h .fanTempOff⟩, ?_, hdur⟩
    have hstart := h (.startTime 2)
    unfold bootValue at hstart
    rw [if_neg (hdur 2)] at hstart
    exact (getD_eq_getD_iff (by decide)).1 hstart
  · rintro ⟨⟨hon, hoff⟩, hstart, hdur⟩ s
    match s with
    | .fanTempOn => exact hon
    | .fanTempOff => exact hoff
    | .startTime 0 => unfold bootValue; rw [if_neg (hdur 0), if_neg hstart]; rfl
    | .startTime 1 => unfold bootValue; rw [if_neg (hdur 1)]; rfl
    | .startTime 2 =>
      unfold bootValue
      rw [if_neg (hdur 2)]
      exact (getD_eq_getD_iff (by decide)).2 hstart
    | .duration num => exact (duration_agrees_iff flash num).2 (hdur num)
    | .days 0 | .days 1 | .days 2 => rfl

/-- On a flash that holds all the keys a boot reads them, but for the two set points. -/
theorem bootValue_of_present {flash : Text → Option Int} {v : Setting → Int}
    (h : ∀ s : Setting, flash s.key = some (v s)) : ∀ s : Setting, bootValue flash s =
      match s with
      | .fanTempOn => v .fanTempOff
      | .fanTempOff => 0
      | s => v s := by
  intro s
  match s with
  | .fanTempOn | .fanTempOff | .startTime 0 | .startTime 1 | .startTime 2 | .duration _ | .days _ =>
    simp [bootValue, h]

/-- **RAM and flash after a boot.** They agree, and a second boot gives the same settings, exactly
when the two set points are stored as zero and none of the misdirected defaults is used. -/
theorem boot_consistent_iff (flash : Text → Option Int) :
    (Agrees (boot flash) ∧ BootsAlike flash) ↔
      (flash Setting.fanTempOn.key = some 0 ∧ flash Setting.fanTempOff.key = some 0) ∧
        DripKeysPresent flash := by
  have hpresent := flash_boot flash
  constructor
  · rintro ⟨hagree, halike⟩
    obtain ⟨hfan, hdrip⟩ := (boot_agrees_iff flash).1 hagree
    refine ⟨hfan.resolve_left fun hnone => ?_, hdrip⟩
    -- the default of a missing `FAN_TEMP_OFF` does not survive the second boot
    have hoff := halike .fanTempOff
    rw [Setting.get_boot, Setting.get_boot, bootValue_of_present hpresent] at hoff
    simp [bootValue, hnone] at hoff
  · rintro ⟨hfan, hdrip⟩
    have hagree : Agrees (boot flash) := (boot_agrees_iff flash).2 ⟨Or.inr hfan, hdrip⟩
    refine ⟨hagree, fun s => ?_⟩
    rw [Setting.get_boot, bootValue_of_present hagree]
    match s with
    | .fanTempOn => simp [Setting.get_boot, bootValue, hfan]
    | .fanTempOff => simp [Setting.get_boot, bootValue, hfan]
    | .startTime _ | .duration _ | .days _ => rfl

/-- The first boot of a new board: the first drip starts at 300, not at the 3600 put into flash. -/
theorem boot_not_agrees_empty : ¬ Agrees (boot fun _ => none) := by
  intro h
  have hstart := h (.startTime 0)
  rw [flash_boot, Setting.get_boot] at hstart
  exact absurd hstart (by decide)

end GreenHouse
