import GreenHouse.Init
import GreenHouse.Mqtt.Handler

/-!
# Times of day as texts

A start time comes in as a text such as `8:05PM` and goes out as one. `ClockText` is the notation:
blanks, hours, a colon, minutes, and what follows them. `startTimeOf_text` says what
`Control_Drip_Start_Time` makes of one; a text is a clock text in one way (`text_injective`).

On a clock with twelve hours, hour 12 is the first of each half of the day. Neither the parser nor
the printer knows that. `twelveHour_agrees_iff` says when each of them is right: the parser unless
the hour is 12, the printer outside of the hour after midnight and the hour after noon. The two
slips fit together, so that a time set at 12:30PM is sent back as 12:30PM, and a time that is sent
and written back is stored as it was (`startTime_roundTrip`).
-/

namespace GreenHouse

open CInt CText

/-! ## Clock texts -/

structure ClockText where
  blanks : Text
  hours : Text
  minutes : Text
  tail : Text
  blanks_isSpace : ∀ b ∈ blanks, isSpace b = true
  hours_numeral : Numeral hours
  minutes_numeral : Numeral minutes
  -- the minutes are all the digits there are
  tail_head : ∀ b ∈ tail.head?, isDigit b = false

theorem isSpace_of_mem_nil : ∀ b ∈ ([] : Text), isSpace b = true :=
  fun _ hb => absurd hb List.not_mem_nil

namespace ClockText

def text (t : ClockText) : Text := t.blanks ++ (t.hours ++ 58 :: (t.minutes ++ t.tail))

def hour (t : ClockText) : Nat := natOf t.hours

def minute (t : ClockText) : Nat := natOf t.minutes

def Am (t : ClockText) : Prop := ascii "AM" <:+: t.tail

def Pm (t : ClockText) : Prop := ascii "PM" <:+: t.tail

instance (t : ClockText) : Decidable t.Am := inferInstanceAs (Decidable (_ <:+: _))

instance (t : ClockText) : Decidable t.Pm := inferInstanceAs (Decidable (_ <:+: _))

/-- The value the code computes from the text, as long as it fits into an `int`. -/
def codeValue (t : ClockText) : Nat := t.hour * 60 + (if t.Pm then 12 * 60 else 0) + t.minute

section Parsing

variable (t : ClockText)

theorem notMem_of_isDigit {ds : Text} (h : Numeral ds) {b : UInt8} (hb : isDigit b = false) :
    b ∉ ds := by
  intro hm
  rw [h.2 b hm] at hb
  exact absurd hb (by decide)

theorem notMem_blanks {b : UInt8} (hb : isSpace b = false) : b ∉ t.blanks := by
  intro hm
  rw [t.blanks_isSpace b hm] at hb
  exact absurd hb (by decide)

theorem afterChr_text : afterChr t.text 58 = some (t.minutes ++ t.tail) := by
  have hfront : (58 : UInt8) ∉ t.blanks ++ t.hours := by
    rw [List.mem_append]
    rintro (h | h)
    · exact t.notMem_blanks (by decide) h
    · exact notMem_of_isDigit t.hours_numeral (by decide) h
  unfold text
  rw [← List.append_assoc]
  exact afterChr_append hfront _

theorem pm_text_iff : ascii "PM" <:+: t.text ↔ t.Pm := by
  have hfront : (80 : UInt8) ∉ t.blanks ++ (t.hours ++ 58 :: t.minutes) := by
    rw [List.mem_append, List.mem_append, List.mem_cons]
    rintro (h | h | h | h)
    · exact t.notMem_blanks (by decide) h
    · exact notMem_of_isDigit t.hours_numeral (by decide) h
    · exact absurd h (by decide)
    · exact notMem_of_isDigit t.minutes_numeral (by decide) h
  have htext : t.text = t.blanks ++ (t.hours ++ 58 :: t.minutes) ++ t.tail := by
    simp [text]
  rw [htext]
  exact infix_append_of_notMem hfront [77] t.tail

theorem atoi_text (h : InI32 t.hour) : atoi t.text = t.hour := by
  unfold text
  rw [atoi_append_of_blanks t.blanks_isSpace]
  exact t.hours_numeral.atoi_append h (by simp; decide)

theorem atoi_minutes (h : InI32 t.minute) : atoi (t.minutes ++ t.tail) = t.minute :=
  t.minutes_numeral.atoi_append h t.tail_head

/-- **What the code makes of a clock text**: sixty minutes for each hour, twelve hours for a PM
behind the colon, and the minutes. -/
theorem startTimeOf_text (h : t.codeValue < 2 ^ 31) :
    startTimeOf t.text (t.minutes ++ t.tail) = t.codeValue := by
  unfold codeValue at h ⊢
  unfold startTimeOf
  have hhour : atoi t.text = t.hour := t.atoi_text (by unfold InI32; omega)
  have hmin : atoi (t.minutes ++ t.tail) = t.minute := t.atoi_minutes (by unfold InI32; omega)
  have hsixty : i32 (t.hour * 60) = t.hour * 60 := i32_eq (by unfold InI32; omega)
  simp only [hhour, hmin, strstr_iff, pm_text_iff, hsixty]
  by_cases hpm : t.Pm
  · simp only [if_pos hpm] at h ⊢
    have hnoon : i32 (t.hour * 60 + 12 * 60) = t.hour * 60 + 12 * 60 :=
      i32_eq (by unfold InI32; omega)
    rw [hnoon, i32_eq (by unfold InI32; omega)]
    push_cast
    rfl
  · simp only [if_neg hpm] at h ⊢
    rw [i32_eq (by unfold InI32; omega)]
    push_cast
    rw [Int.add_zero]

theorem controlDripStartTime_text (h : t.codeValue < 2 ^ 31) (num : Fin 3) (w : World) :
    controlDripStartTime num t.text w = (storeStartTime num t.codeValue w, none) := by
  unfold controlDripStartTime
  rw [t.afterChr_text]
  show (storeStartTime num (startTimeOf t.text (t.minutes ++ t.tail)) w, none) = _
  rw [t.startTimeOf_text h]

end Parsing

/-- A numeral starts with a digit. -/
theorem head_numeral {ds : Text} (h : Numeral ds) {p : UInt8 → Bool}
    (hp : ∀ b, isDigit b = true → p b = false) (r : Text) : ∀ b ∈ (ds ++ r).head?, p b = false := by
  cases ds with
  | nil => exact absurd rfl h.1
  | cons a ds => exact forall_head rfl (hp a (h.2 a List.mem_cons_self))

/-- **A text is a clock text in one way.** -/
theorem text_injective {t u : ClockText} (h : t.text = u.text) : t = u := by
  have hspace : ∀ b, isDigit b = true → isSpace b = false := fun b hb =>
    isSpace_eq_false_of_isDigit hb
  obtain ⟨hblanks, h⟩ := append_inj_of_head t.blanks_isSpace u.blanks_isSpace
    (head_numeral t.hours_numeral hspace _) (head_numeral u.hours_numeral hspace _) h
  obtain ⟨hhours, h⟩ := append_inj_of_head t.hours_numeral.2 u.hours_numeral.2
    (by simp; decide) (by simp; decide) h
  obtain ⟨hminutes, htail⟩ := append_inj_of_head t.minutes_numeral.2 u.minutes_numeral.2
    t.tail_head u.tail_head (List.cons.inj h).2
  cases t
  cases u
  simp_all

end ClockText

/-! ## The twelve-hour clock -/

/-- A time of day in the twelve-hour notation. -/
structure TwelveHour extends ClockText where
  hour_pos : 1 ≤ toClockText.hour
  hour_le : toClockText.hour ≤ 12
  minute_le : toClockText.minute ≤ 59
  one_marker : Xor toClockText.Am toClockText.Pm

/-- The minutes since midnight of the time a text denotes; 12 AM is midnight and 12 PM is noon. -/
def TwelveHour.minuteOfDay (t : TwelveHour) : Nat :=
  t.hour % 12 * 60 + t.minute + if t.Pm then 12 * 60 else 0

/-- The command for drip `num + 1` stores the minute that the text denotes, a minute of the day. -/
structure TwelveHour.Stored (t : TwelveHour) (num : Fin 3) (w : World) : Prop where
  no_fault : (controlDripStartTime num t.text w).2 = none
  ram : ((controlDripStartTime num t.text w).1.info.dripInfo num).startTime = t.minuteOfDay
  flash : (controlDripStartTime num t.text w).1.flash (dripStartKey num) = some ↑t.minuteOfDay
  range : 0 ≤ ((controlDripStartTime num t.text w).1.info.dripInfo num).startTime ∧
    ((controlDripStartTime num t.text w).1.info.dripInfo num).startTime < 24 * 60

/-- The text sent for a minute of the day denotes that minute. -/
def Printed (m : Fin (24 * 60)) : Prop :=
  ∃ t : TwelveHour, convertTimeToString m = t.text ∧ t.minuteOfDay = m

namespace TwelveHour

variable (t : TwelveHour)

theorem minuteOfDay_lt : t.minuteOfDay < 24 * 60 := by
  have := t.minute_le
  unfold minuteOfDay
  split <;> omega

theorem codeValue_lt : t.codeValue < 2 ^ 31 := by
  have hhour := t.hour_le
  have hmin := t.minute_le
  unfold ClockText.codeValue
  split <;> omega

/-- The code is twelve hours late in the hour that the clock calls 12. -/
theorem codeValue_eq_iff : t.codeValue = t.minuteOfDay ↔ t.hour ≠ 12 := by
  have hpos := t.hour_pos
  have hle := t.hour_le
  unfold ClockText.codeValue minuteOfDay
  omega

theorem stored_iff (num : Fin 3) (w : World) : t.Stored num w ↔ t.hour ≠ 12 := by
  have hcode := t.controlDripStartTime_text t.codeValue_lt num w
  have hram : ((controlDripStartTime num t.text w).1.info.dripInfo num).startTime =
      t.codeValue := by
    rw [hcode]
    simp [storeStartTime, nvsWrite, World.modifyDrip, World.emit]
  have hflash : (controlDripStartTime num t.text w).1.flash (dripStartKey num) =
      some ↑t.codeValue := by
    rw [hcode]
    simp [storeStartTime, nvsWrite]
  rw [← t.codeValue_eq_iff]
  constructor
  · intro h
    have := h.ram
    rw [hram] at this
    exact_mod_cast this
  · intro h
    have hlt := t.minuteOfDay_lt
    refine ⟨by rw [hcode], by rw [hram, h], by rw [hflash, h], ?_⟩
    rw [hram, h]
    omega

end TwelveHour

/-! ## The printer -/

/-- The clock text that is sent for a time. The hour has eight bits, so 256 hours are sent as
none. -/
def sentClock (n : Nat) : ClockText where
  blanks := []
  hours := decimal (if 12 < n / 60 % 256 then n / 60 % 256 - 12 else n / 60 % 256)
  minutes := itoa02 (n % 60 : Nat)
  tail := if 12 < n / 60 % 256 then ascii "PM" else ascii "AM"
  blanks_isSpace := isSpace_of_mem_nil
  hours_numeral := numeral_decimal _
  minutes_numeral := numeral_itoa02 _
  tail_head := by
    split
    · exact forall_head (a := 80) (by decide) (by decide)
    · exact forall_head (a := 65) (by decide) (by decide)

section Clock

variable (n : Nat)

theorem u32_natCast {n : Nat} (hn : n < 2 ^ 32) : u32 (n : Int) = n :=
  Int.emod_eq_of_lt (by omega) (by omega)

theorem u8_hour (n : Nat) : u8 ((n : Int) / 60) = (n / 60 % 256 : Nat) := by
  unfold u8
  omega

/-- The eight bits of the hour do not reach the minutes: `256 * 60` is a multiple of 256. -/
theorem u8_minute (n : Nat) :
    u8 (u32 ((n : Int) - (n / 60 % 256 : Nat) * 60)) = (n % 60 : Nat) := by
  unfold u8 u32
  omega

theorem text_sentClock {n : Nat} (hn : n < 2 ^ 32) :
    (sentClock n).text = convertTimeToString n := by
  have hcolon : ascii ":" = [58] := by decide
  unfold convertTimeToString ClockText.text sentClock
  simp only [u32_natCast hn, u8_hour, u8_minute, hcolon, List.nil_append]
  by_cases hpm : 12 < n / 60 % 256
  · have hsub : ((n / 60 % 256 : Nat) : Int) - 12 = (n / 60 % 256 - 12 : Nat) := by omega
    rw [if_pos hpm, if_pos hpm, if_pos (by omega), hsub, itoa_natCast]
    simp
  · rw [if_neg hpm, if_neg hpm, if_neg (by omega), itoa_natCast]
    simp

theorem hour_sentClock :
    (sentClock n).hour = if 12 < n / 60 % 256 then n / 60 % 256 - 12 else n / 60 % 256 :=
  natOf_decimal _

theorem minute_sentClock : (sentClock n).minute = n % 60 := natOf_itoa02 _

theorem am_sentClock : (sentClock n).Am ↔ ¬ 12 < n / 60 % 256 := by
  unfold ClockText.Am sentClock
  by_cases h : 12 < n / 60 % 256
  · simp only [h, not_true, iff_false]; decide
  · simp only [h, not_false_iff, iff_true]; decide

theorem pm_sentClock : (sentClock n).Pm ↔ 12 < n / 60 % 256 := by
  unfold ClockText.Pm sentClock
  by_cases h : 12 < n / 60 % 256
  · simp only [h, iff_true]; decide
  · simp only [h, iff_false]; decide

/-- The twelve hours the printer takes off are the ones the parser puts back. -/
theorem codeValue_sentClock : (sentClock n).codeValue = n % 15360 := by
  unfold ClockText.codeValue
  rw [hour_sentClock, minute_sentClock]
  by_cases h : 12 < n / 60 % 256
  · rw [if_pos h, if_pos ((pm_sentClock n).2 h)]
    omega
  · rw [if_neg h, if_neg ((pm_sentClock n).not.2 h)]
    omega

end Clock

section Printing

variable (m : Fin (24 * 60))

/-- The hours of a day need less than eight bits. -/
theorem hour_mod : m.val / 60 % 256 = m.val / 60 := by
  have hlt := m.isLt
  omega

theorem printed_iff : Printed m ↔ m.val / 60 ≠ 0 ∧ m.val / 60 ≠ 12 := by
  have hlt := m.isLt
  have htext : (sentClock m).text = convertTimeToString m := text_sentClock (by omega)
  have hhour := hour_sentClock m
  have hmin := minute_sentClock m
  have ham := am_sentClock m
  have hpm := pm_sentClock m
  rw [hour_mod] at hhour ham hpm
  constructor
  · rintro ⟨t, ht, hminute⟩
    have hclock : sentClock m = t.toClockText := ClockText.text_injective (htext.trans ht)
    have hpos := t.hour_pos
    unfold TwelveHour.minuteOfDay at hminute
    rw [← hclock] at hpos hminute
    simp only [hhour, hmin, hpm] at hpos hminute
    split at hpos <;> simp_all <;> omega
  · rintro ⟨hzero, htwelve⟩
    refine ⟨⟨sentClock m, ?_, ?_, ?_, ?_⟩, htext.symm, ?_⟩
    · rw [hhour]; split <;> omega
    · rw [hhour]; split <;> omega
    · rw [hmin]; omega
    · rw [ham, hpm]
      exact xor_not_left.2 Iff.rfl
    · unfold TwelveHour.minuteOfDay
      simp only [hhour, hmin, hpm]
      split <;> omega

end Printing

/-! ## The agreement -/

/-- **The twelve-hour clock.** A start time set as a twelve-hour text is stored as the minute of the
day it denotes exactly if its hour is not 12, whatever the drip and the state of the firmware; and
the text sent for a minute of the day denotes that minute exactly if it lies neither in the hour
after midnight nor in the hour after noon. -/
theorem twelveHour_agrees_iff (t : TwelveHour) (num : Fin 3) (w : World) (m : Fin (24 * 60)) :
    (t.Stored num w ↔ t.hour ≠ 12) ∧
      (Printed m ↔ m.val / 60 ≠ 0 ∧ m.val / 60 ≠ 12) :=
  ⟨t.stored_iff num w, printed_iff m⟩

def halfPastMidnight : TwelveHour where
  blanks := []
  hours := ascii "12"
  minutes := ascii "30"
  tail := ascii "AM"
  blanks_isSpace := isSpace_of_mem_nil
  hours_numeral := numeral_of_all (by decide) (by decide)
  minutes_numeral := numeral_of_all (by decide) (by decide)
  tail_head := forall_head (a := 65) (by decide) (by decide)
  hour_pos := by decide
  hour_le := by decide
  minute_le := by decide
  one_marker := Or.inl ⟨by decide, by decide⟩

/-- The start time 12:30AM, sent to a firmware that has just booted, is stored as 12:30 after noon;
and half past midnight is sent as 0:30AM, which is no twelve-hour text. -/
theorem halfPastMidnight_disagrees :
    (halfPastMidnight.text = ascii "12:30AM" ∧ halfPastMidnight.minuteOfDay = 30 ∧
        controlDripStartTime 0 (ascii "12:30AM") (boot fun _ => none) =
          (storeStartTime 0 750 (boot fun _ => none), none) ∧
        ¬ halfPastMidnight.Stored 0 (boot fun _ => none)) ∧
      convertTimeToString 30 = ascii "0:30AM" ∧ ¬ Printed 30 := by
  have htext : halfPastMidnight.text = ascii "12:30AM" := by decide
  have hstore := halfPastMidnight.controlDripStartTime_text halfPastMidnight.codeValue_lt 0
    (boot fun _ => none)
  rw [htext] at hstore
  refine ⟨⟨htext, by decide, hstore, ?_⟩, by decide +kernel, ?_⟩
  · rw [TwelveHour.stored_iff]
    decide
  · rw [printed_iff]
    decide

/-! ## Reading a start time and writing it back -/

/-- The command for drip `num + 1`, on the text that is sent for the time `v`, stores `x`. -/
structure WritesBack (num : Fin 3) (w : World) (v x : Int) : Prop where
  no_fault : (controlDripStartTime num (convertTimeToString v) w).2 = none
  ram : ((controlDripStartTime num (convertTimeToString v) w).1.info.dripInfo num).startTime = x
  flash : (controlDripStartTime num (convertTimeToString v) w).1.flash (dripStartKey num) = some x

/-- The values `Init_Settings` puts into a start time on its own: into the key of one, or into the
RAM of one. -/
inductive StartDefault : Int → Prop
  | stored (num : Fin 3) : StartDefault (initBlock (.startTime num)).stored
  | assigned (s : Setting) (num : Fin 3) (h : (initBlock s).defaultInto = .startTime num) :
      StartDefault (initBlock s).default

/-- The text is a clock text with a minute of two digits below 60. -/
def TwoDigitMinute (text : Text) : Prop :=
  ∃ t : ClockText, text = t.text ∧ t.minutes.length = 2 ∧ t.minute < 60

theorem StartDefault.range {x : Int} (h : StartDefault x) : 0 ≤ x ∧ x < 15360 := by
  have hall : ∀ s ∈ Setting.all, (0 ≤ (initBlock s).stored ∧ (initBlock s).stored < 15360) ∧
      0 ≤ (initBlock s).default ∧ (initBlock s).default < 15360 := by decide +kernel
  cases h with
  | stored num => exact (hall _ (Setting.mem_all _)).1
  | assigned s num _ => exact (hall _ (Setting.mem_all _)).2

theorem writesBack_mod {n : Nat} (hn : n < 2 ^ 32) (num : Fin 3) (w : World) :
    WritesBack num w n (n % 15360 : Nat) := by
  have hstore : controlDripStartTime num (convertTimeToString n) w =
      (storeStartTime num (n % 15360 : Nat) w, none) := by
    have hvalue := codeValue_sentClock n
    rw [← text_sentClock hn, (sentClock n).controlDripStartTime_text (by omega), hvalue]
  refine ⟨?_, ?_, ?_⟩
  · rw [hstore]
  · rw [hstore]
    simp [storeStartTime, nvsWrite, World.modifyDrip, World.emit]
  · rw [hstore]
    simp [storeStartTime, nvsWrite]

/-- What is written back is determined, so a time comes back unchanged exactly below 256 hours. -/
theorem writesBack_self_iff {n : Nat} (hn : n < 2 ^ 32) (num : Fin 3) (w : World) :
    WritesBack num w n n ↔ n < 15360 := by
  have hmod := writesBack_mod hn num w
  constructor
  · intro h
    have heq := hmod.ram.symm.trans h.ram
    omega
  · intro h
    rwa [Nat.mod_eq_of_lt h] at hmod

theorem writesBack_of_lt {x : Int} (h : 0 ≤ x ∧ x < 15360) (num : Fin 3) (w : World) :
    WritesBack num w x x := by
  obtain ⟨n, rfl⟩ := Int.eq_ofNat_of_zero_le h.1
  exact (writesBack_self_iff (by omega) num w).2 (by omega)

theorem twoDigitMinute_convertTimeToString {n : Nat} (hn : n < 2 ^ 32) :
    TwoDigitMinute (convertTimeToString n) := by
  have hlt : n % 60 < 60 := Nat.mod_lt _ (by decide)
  refine ⟨sentClock n, (text_sentClock hn).symm, length_itoa02 (by omega), ?_⟩
  rw [minute_sentClock]
  exact hlt

/-- **Reading a start time and writing it back.** The text sent for any `uint32_t` value stores that
value modulo 256 hours, in RAM and in flash. So the value comes back unchanged exactly if it lies
below 256 hours, as every minute of the day and every built-in default does. The minutes of the text
are always two digits below 60. -/
theorem startTime_roundTrip (num : Fin 3) (w : World) (v : UInt32) :
    WritesBack num w v.toNat (v.toNat % 15360 : Nat) ∧
      (WritesBack num w v.toNat v.toNat ↔ v.toNat < 15360) ∧
      (∀ m : Fin (24 * 60), WritesBack num w m m) ∧
      (∀ x, StartDefault x → WritesBack num w x x) ∧
      TwoDigitMinute (convertTimeToString v.toNat) := by
  have hv := v.toNat_lt
  refine ⟨writesBack_mod hv num w, writesBack_self_iff hv num w, fun m => ?_, fun x hx => ?_,
    twoDigitMinute_convertTimeToString hv⟩
  · have hlt := m.isLt
    exact writesBack_of_lt (by omega) num w
  · exact writesBack_of_lt hx.range num w

example : convertTimeToString 779 = ascii "12:59AM" ∧ convertTimeToString 780 = ascii "1:00PM" := by
  decide +kernel

end GreenHouse
