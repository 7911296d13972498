import GreenHouse.Settings.Registers

/-!
# Malformed settings

A set command should store a legal value its payload denotes and refuse every other payload whole
(`Handled`). A payload denotes a start time as a clock text of 24 or of twelve hours, a duration or
a set of days as a number; whatever text follows is no part of it (`Means`).

The three commands check nothing. `handled_iff` says for which payloads that goes well in every
state: those that denote a legal value to begin with, other than the twelve-hour texts of hour 12.
-/

namespace GreenHouse

open CInt CText

/-! ## What a payload denotes -/

inductive Sign where
  | none
  | plus
  | minus

def Sign.text : Sign → Text
  | none => []
  | plus => [43]
  | minus => [45]

structure NumberText where
  blanks : Text
  sign : Sign
  digits : Text
  tail : Text
  blanks_isSpace : ∀ b ∈ blanks, isSpace b = true
  digits_numeral : Numeral digits
  tail_head : ∀ b ∈ tail.head?, isDigit b = false

namespace NumberText

def text (t : NumberText) : Text := t.blanks ++ (t.sign.text ++ t.digits ++ t.tail)

def value (t : NumberText) : Int :=
  match t.sign with
  | .none | .plus => natOf t.digits
  | .minus => -(natOf t.digits : Int)

theorem atoi_text (t : NumberText) (h : InI32 t.value) : atoi t.text = t.value := by
  unfold text value at *
  rw [atoi_append_of_blanks t.blanks_isSpace]
  cases hs : t.sign with
  | none =>
    simp only [hs] at h
    exact t.digits_numeral.atoi_append h t.tail_head
  | plus =>
    simp only [hs] at h
    exact t.digits_numeral.atoi_pos_append h t.tail_head
  | minus =>
    simp only [hs] at h
    exact t.digits_numeral.atoi_neg_append h t.tail_head

end NumberText

/-- A time of day in the notation of 24 hours. -/
structure TwentyFourHour extends ClockText where
  hour_le : toClockText.hour ≤ 23
  minute_le : toClockText.minute ≤ 59
  no_am : ¬ toClockText.Am
  no_pm : ¬ toClockText.Pm

def TwentyFourHour.minuteOfDay (t : TwentyFourHour) : Nat := t.hour * 60 + t.minute

/-- The value that a payload denotes for a register. -/
inductive Means : Register → Text → Int → Prop
  | day (num : Fin 3) (t : TwentyFourHour) : Means ⟨.startTime, num⟩ t.text t.minuteOfDay
  | halfDay (num : Fin 3) (t : TwelveHour) : Means ⟨.startTime, num⟩ t.text t.minuteOfDay
  | number (field : Field) (num : Fin 3) (hf : field ≠ .startTime) (t : NumberText) :
      Means ⟨field, num⟩ t.text t.value

/-- The legal values of a field. -/
def Field.Legal : Field → Int → Prop
  | .startTime, v => 0 ≤ v ∧ v < 24 * 60
  | .duration, v => 0 < v ∧ v < 24 * 60
  | .days, v => 0 ≤ v ∧ v ≤ 127

theorem Field.Legal.inI32 {field : Field} {v : Int} (h : field.Legal v) : InI32 v := by
  unfold InI32
  cases field <;> simp only [Field.Legal] at h <;> omega

/-! ## The requirement -/

/-- No operation of `Control_Drip_Start_Time` on the text leaves the range of an `int`. -/
def StartFits (p : Text) : Prop :=
  ∀ minutes, afterChr p 58 = some minutes →
    let hour := atoi p * 60
    let noon := if strstr p (ascii "PM") then 12 * 60 else 0
    InI32 hour ∧ InI32 (hour + noon) ∧ InI32 (hour + noon + atoi minutes)

/-- The command on payload `p` for register `r` is handled: a legal value is stored whole or
nothing is changed, and no arithmetic on the way to the schedule overflows. -/
structure Handled (r : Register) (p : Text) (w : World) : Prop where
  no_fault : (r.setBranch.act p w).2 = none
  whole :
    (∃ v, Means r p v ∧ r.field.Legal v ∧
      (r.setBranch.act p w).1.info = (r.setting.set v w).info ∧
      (r.setBranch.act p w).1.flash = Function.update w.flash r.setting.key (some v)) ∨
    ((r.setBranch.act p w).1.info = w.info ∧ (r.setBranch.act p w).1.flash = w.flash)
  start_fits : r.field = .startTime → StartFits p
  -- the sum that `update_drip` forms, if the settings were legal before
  off_fits : (∀ field : Field, field.Legal ((Register.mk field r.num).setting.get w.info)) →
    InI32 (((r.setBranch.act p w).1.info.dripInfo r.num).startTime +
      ((r.setBranch.act p w).1.info.dripInfo r.num).duration)

/-- The payloads that the code treats as it should: a time of 24 hours, a time of twelve hours with
an hour other than 12, a number that is legal for its field. -/
inductive Sound : Register → Text → Prop
  | day (num : Fin 3) (t : TwentyFourHour) : Sound ⟨.startTime, num⟩ t.text
  | halfDay (num : Fin 3) (t : TwelveHour) (h : t.hour ≠ 12) : Sound ⟨.startTime, num⟩ t.text
  | number (field : Field) (num : Fin 3) (hf : field ≠ .startTime) (t : NumberText)
      (h : field.Legal t.value) : Sound ⟨field, num⟩ t.text

/-! ## Sound payloads -/

theorem ClockText.startFits (t : ClockText) (h : t.codeValue < 2 ^ 31) : StartFits t.text := by
  intro minutes hcolon
  unfold ClockText.codeValue at h
  obtain rfl := Option.some.inj (t.afterChr_text.symm.trans hcolon)
  have hhour : atoi t.text = t.hour := t.atoi_text (by unfold InI32; omega)
  have hmin : atoi (t.minutes ++ t.tail) = t.minute := t.atoi_minutes (by unfold InI32; omega)
  simp only [hhour, hmin, strstr_iff, t.pm_text_iff]
  unfold InI32
  split at h <;> simp_all <;> omega

theorem TwentyFourHour.codeValue_eq (t : TwentyFourHour) : t.codeValue = t.minuteOfDay := by
  unfold ClockText.codeValue TwentyFourHour.minuteOfDay
  rw [if_neg t.no_pm, Nat.add_zero]

theorem TwentyFourHour.minuteOfDay_lt (t : TwentyFourHour) : t.minuteOfDay < 24 * 60 := by
  have hhour := t.hour_le
  have hmin := t.minute_le
  unfold TwentyFourHour.minuteOfDay
  omega

/-- A sound payload denotes a legal value, and the code arrives at it without an overflow. -/
theorem Sound.parse {r : Register} {p : Text} (h : Sound r p) :
    ∃ v, Means r p v ∧ r.field.Legal v ∧ r.parse p = some v ∧
      (r.field = .startTime → StartFits p) := by
  cases h with
  | day num t =>
    have hcode := t.codeValue_eq
    have hlt := t.minuteOfDay_lt
    have hfit : t.codeValue < 2 ^ 31 := by omega
    refine ⟨t.minuteOfDay, .day num t, ⟨by omega, by omega⟩, ?_, fun _ => t.startFits hfit⟩
    rw [t.parse_text hfit, hcode]
  | halfDay num t hne =>
    have hcode := t.codeValue_eq_iff.2 hne
    have hlt := t.minuteOfDay_lt
    refine ⟨t.minuteOfDay, .halfDay num t, ⟨by omega, by omega⟩, ?_,
      fun _ => t.startFits t.codeValue_lt⟩
    rw [t.parse_text t.codeValue_lt, hcode]
  | number field num hf t hlegal =>
    refine ⟨t.value, .number field num hf t, hlegal, ?_, fun h => absurd h hf⟩
    rw [parse_of_ne hf, t.atoi_text hlegal.inI32]

theorem get_startTime (num : Fin 3) (i : GreenHouseInfo) :
    (i.dripInfo num).startTime = (Register.mk .startTime num).setting.get i := rfl

theorem get_duration (num : Fin 3) (i : GreenHouseInfo) :
    (i.dripInfo num).duration = (Register.mk .duration num).setting.get i := rfl

/-- Legal settings stay legal when a legal value is stored. -/
theorem legal_set {r : Register} {v : Int} (hv : r.field.Legal v) {w : World}
    (hw : ∀ field : Field, field.Legal ((Register.mk field r.num).setting.get w.info))
    (field : Field) :
    field.Legal ((Register.mk field r.num).setting.get (r.setting.set v w).info) := by
  rw [Setting.get_set]
  split
  · next h =>
    have heq : Register.mk field r.num = r := Register.setting_injective h
    have hfield : r.field = field := by rw [← heq]
    rwa [← hfield]
  · exact hw field

theorem off_fits_of_legal {num : Fin 3} {i : GreenHouseInfo}
    (h : ∀ field : Field, field.Legal ((Register.mk field num).setting.get i)) :
    InI32 ((i.dripInfo num).startTime + (i.dripInfo num).duration) := by
  have hstart := h .startTime
  have hdur := h .duration
  rw [← get_startTime] at hstart
  rw [← get_duration] at hdur
  unfold Field.Legal at hstart hdur
  unfold InI32
  omega

theorem Sound.handled {r : Register} {p : Text} (h : Sound r p) (w : World) : Handled r p w := by
  obtain ⟨v, hmeans, hlegal, hparse, hfits⟩ := h.parse
  obtain ⟨hfault, hinfo, hflash⟩ := act_of_parse hparse w
  refine ⟨hfault, Or.inl ⟨v, hmeans, hlegal, hinfo, hflash⟩, hfits, fun hw => ?_⟩
  rw [hinfo]
  exact off_fits_of_legal (legal_set hlegal hw)

/-! ## Other payloads -/

theorem parse_isSome {r : Register} {p : Text} {w : World}
    (h : (r.setBranch.act p w).2 = none) : ∃ v, r.parse p = some v := by
  match r, h with
  | ⟨.startTime, num⟩, h =>
    show ∃ v, (afterChr p 58).map (startTimeOf p) = some v
    cases hcolon : afterChr p 58 with
    | none =>
      have hfault : (controlDripStartTime num p w).2 = some .nullRead := by
        unfold controlDripStartTime
        rw [hcolon]
      exact absurd (hfault.symm.trans h) (by simp)
    | some minutes => exact ⟨_, rfl⟩
  | ⟨.duration, _⟩, _ => exact ⟨_, rfl⟩
  | ⟨.days, _⟩, _ => exact ⟨_, rfl⟩

/-- A payload whose parsed value it denotes is sound. -/
theorem Means.sound {r : Register} {p : Text} {v : Int} (h : Means r p v)
    (hlegal : r.field.Legal v) (hparse : r.parse p = some v) : Sound r p := by
  cases h with
  | day num t => exact .day num t
  | halfDay num t =>
    refine .halfDay num t (t.codeValue_eq_iff.1 ?_)
    rw [t.parse_text t.codeValue_lt] at hparse
    exact_mod_cast Option.some.inj hparse
  | number field num hf t => exact .number field num hf t hlegal

/-- **Malformed settings.** Where writes to the flash succeed, a payload is handled in every state,
by storing the legal value it denotes in RAM and in flash or by changing nothing, and without an
overflow in the conversion or in the sum that the schedule forms, exactly if it is sound. Every
other payload is stored as the number the parser happens to make of it, or ends in a fault. -/
theorem handled_iff (r : Register) (p : Text) : (∀ w, Handled r p w) ↔ Sound r p := by
  constructor
  · intro h
    obtain ⟨v, hparse⟩ := parse_isSome (h (cleared fun _ => none)).no_fault
    -- a state in which storing the value is seen
    let w := r.setting.set (v + 1) (cleared fun _ => none)
    obtain ⟨-, hinfo, -⟩ := act_of_parse hparse w
    have hget : r.setting.get (r.setBranch.act p w).1.info = v := by
      rw [hinfo, Setting.get_set, if_pos rfl]
    rcases (h w).whole with ⟨v', hmeans, hlegal, hstored, -⟩ | ⟨hsame, -⟩
    · have hv : v' = v := by
        rw [hstored, Setting.get_set, if_pos rfl] at hget
        exact hget
      subst hv
      exact hmeans.sound hlegal hparse
    · rw [hsame, Setting.get_set, if_pos rfl] at hget
      omega
  · intro h w
    exact h.handled w

/-- Sent to a firmware that has booted with an empty flash: a duration of -5 minutes is stored; a
start time without a colon ends in a fault; and forty million hours overflow. -/
theorem malformed_not_handled :
    ((Setting.duration 0).get
          ((Branch.dripSetDuration 0).act (ascii "-5") (boot fun _ => none)).1.info = -5 ∧
        ¬ Handled ⟨.duration, 0⟩ (ascii "-5") (boot fun _ => none)) ∧
      ¬ Handled ⟨.startTime, 0⟩ (ascii "0800") (boot fun _ => none) ∧
      ¬ Handled ⟨.startTime, 0⟩ (ascii "40000000:00") (boot fun _ => none) := by
  have hparse : Register.parse ⟨.duration, 0⟩ (ascii "-5") = some (-5) := by decide
  obtain ⟨-, hinfo, -⟩ := act_of_parse hparse (boot fun _ => none)
  have hget : (Register.mk .duration 0).setting.get
      ((Register.mk .duration 0).setBranch.act (ascii "-5") (boot fun _ => none)).1.info = -5 := by
    rw [hinfo, Setting.get_set, if_pos rfl]
  refine ⟨⟨hget, fun h => ?_⟩, fun h => ?_, fun h => ?_⟩
  · rcases h.whole with ⟨v, -, hlegal, hstored, -⟩ | ⟨hsame, -⟩
    · rw [hstored, Setting.get_set, if_pos rfl] at hget
      subst hget
      exact absurd hlegal.1 (by decide)
    · rw [hsame, Setting.get_boot] at hget
      exact absurd hget (by decide)
  · exact absurd h.no_fault (by decide +kernel)
  · have hfits := h.start_fits rfl (ascii "00") (by decide)
    exact absurd hfits.1 (by decide)

end GreenHouse
