import GreenHouse.Settings.Boot
import GreenHouse.Settings.ClockText

/-!
# Text buffers

The firmware formats numbers and words with `sprintf` and `itoa`, which do not know how long their
destination is. Here every such call is listed with the size of its destination (`Print`), for each
function that makes one. `prints_fit` says that whatever the fields hold, the text fits with its
NUL. The values go up to 32 bits and are checked nowhere; the bound comes from the longest text of
their type.
-/

namespace GreenHouse

open CInt CText

/-! ## What is printed -/

/-- A text printed into an array of `size` bytes. -/
structure Print where
  size : Nat
  text : Text

/-- The text and the NUL behind it lie in the array. -/
def Print.Fits (p : Print) : Prop := p.text.length + 1 ≤ p.size

/-- `char result_string[16]` of the handler, of the two updates and of the drip status. -/
def resultString (text : Text) : Print := ⟨16, text⟩

/-- `char key[16]` of the `Control_Drip_` functions. -/
def keyString (text : Text) : Print := ⟨16, text⟩

def timeString (text : Text) : Print := ⟨16, text⟩

def durationString (text : Text) : Print := ⟨8, text⟩

/-- The key that a branch prints to store its setting. -/
def Branch.key : Branch → Option Text
  | dripSetStartTime num => some (dripStartKey num)
  | dripSetDuration num => some (dripDurKey num)
  | dripSetDays num => some (dripDaysKey num)
  | _ => none

/-- The functions that print. -/
inductive Printer where
  | branch (b : Branch)
  | updateTemperature (reading : Int)
  | updateHumidity (reading : Int)
  | publishDripStatus (num : Fin 3)
  | convertTimeToString (rawTime : UInt32)
  | convertTimeToDuration (rawTime : UInt32)

/-- The prints of a call, those of `Convert_Time_To_String` inside of it included. The two updates
print if the reading has changed. -/
def Printer.prints (w : World) : Printer → List Print
  | branch b => (b.time w).toList.map timeString ++ (b.answer w).toList.map resultString ++
      b.key.toList.map keyString
  | updateTemperature reading => [resultString (itoa (GreenHouse.updateTemperature reading w).temp)]
  | updateHumidity reading => [resultString (itoa (GreenHouse.updateHumidity reading w).temp)]
  | publishDripStatus num => [resultString (stateText (w.info.dripInfo num).state)]
  | convertTimeToString rawTime => [timeString (GreenHouse.convertTimeToString rawTime.toNat)]
  | convertTimeToDuration rawTime =>
    [durationString (GreenHouse.convertTimeToDuration rawTime.toNat)]

/-- What is sent is read from the buffer: the first bytes of the text with its NUL. -/
theorem act_of_answer {b : Branch} {w : World} {text : Text} (h : b.answer w = some text)
    (data : Text) : ∃ topic n, (b.act data w).1 =
      w.emit (.publish topic ((text ++ [0]).take n)) := by
  have hwhole : ∀ topic t, w.emit (.publish topic t) =
      w.emit (.publish topic ((t ++ [0]).take t.length)) := by
    intro topic t
    rw [List.take_left]
  cases b with
  | tempRequest => obtain rfl := Option.some.inj h; exact ⟨tempStatusTopic, 2, rfl⟩
  | humidityRequest => obtain rfl := Option.some.inj h; exact ⟨humidityStatusTopic, 2, rfl⟩
  | fanGetState | fanGetTempOn | dripRequestStatus _ | dripRequestStartTime _
  | dripRequestDuration _ | dripRequestDays _ =>
    obtain rfl := Option.some.inj h
    exact ⟨_, _, hwhole _ _⟩
  | _ => cases h

/-- `mqtt_publish_drip_status`, which nothing calls, prints and sends what a request for the status
does. -/
theorem mqttPublishDripStatus_eq (num : Fin 3) (data : Text) (w : World) :
    mqttPublishDripStatus num w = (Branch.act (.dripRequestStatus num) data w).1 ∧
      Printer.prints w (.publishDripStatus num) =
        Printer.prints w (.branch (.dripRequestStatus num)) := ⟨rfl, rfl⟩

/-- What is stored is stored under the key printed. -/
theorem trace_of_key {b : Branch} {key : Text} (h : b.key = some key) (data : Text) (w : World) :
    ∀ e ∈ (b.act data w).1.trace, e ∈ w.trace ∨ ∃ v, e = .nvs key v := by
  have hstored : ∀ (v : Int) (e : Event), e ∈ w.trace ++ [.nvs key v] →
      e ∈ w.trace ∨ ∃ v, e = .nvs key v := by
    intro v e he
    rcases List.mem_append.1 he with he | he
    · exact Or.inl he
    · exact Or.inr ⟨v, List.mem_singleton.1 he⟩
  cases b with
  | dripSetStartTime num =>
    obtain rfl := Option.some.inj h
    unfold Branch.act controlDripStartTime
    dsimp only
    split
    · exact fun e he => Or.inl he
    · exact hstored _
  | dripSetDuration num => obtain rfl := Option.some.inj h; exact hstored _
  | dripSetDays num => obtain rfl := Option.some.inj h; exact hstored _
  | _ => cases h

/-! ## How long the texts are -/

theorem length_stateText (on : Bool) : (stateText on).length ≤ 3 := by
  cases on <;> decide

theorem exists_u32_eq (x : Int) : ∃ n : Nat, n < 2 ^ 32 ∧ u32 x = n := by
  have hpos : 0 ≤ u32 x := Int.emod_nonneg _ (by decide)
  have hlt : u32 x < 2 ^ 32 := Int.emod_lt_of_pos _ (by decide)
  obtain ⟨n, hn⟩ := Int.eq_ofNat_of_zero_le hpos
  exact ⟨n, by omega, hn⟩

/-- At most three digits, the colon, two digits and two letters. -/
theorem length_convertTimeToString (x : Int) : (convertTimeToString x).length ≤ 8 := by
  obtain ⟨n, hn, hx⟩ := exists_u32_eq x
  have hclock : convertTimeToString x = (sentClock n).text := by
    rw [text_sentClock hn]
    unfold convertTimeToString
    rw [hx, u32_natCast hn]
  have hhours : (sentClock n).hours.length ≤ 3 := by
    apply length_decimal_le (by decide)
    split <;> omega
  have hminutes : (sentClock n).minutes.length = 2 := length_itoa02 (by omega)
  have htail : (sentClock n).tail.length = 2 := by
    unfold sentClock
    dsimp only
    split <;> decide
  have htext : (sentClock n).text = (sentClock n).hours ++
      58 :: ((sentClock n).minutes ++ (sentClock n).tail) := rfl
  rw [hclock, htext, List.length_append, List.length_cons, List.length_append]
  omega

/-- At most three digits, the colon and two digits. -/
theorem length_convertTimeToDuration (x : Int) : (convertTimeToDuration x).length ≤ 6 := by
  obtain ⟨n, hn, hx⟩ := exists_u32_eq x
  have htext : convertTimeToDuration x =
      itoa02 (n / 60 % 256 : Nat) ++ ascii ":" ++ itoa02 (n % 60 : Nat) := by
    unfold convertTimeToDuration
    simp only [hx, u8_hour, u8_minute]
  have hhours : (itoa02 (n / 60 % 256 : Nat)).length ≤ 3 := length_itoa02_le (by omega)
  have hminutes : (itoa02 (n % 60 : Nat)).length = 2 := length_itoa02 (by omega)
  have hcolon : (ascii ":").length = 1 := by decide
  rw [htext, List.length_append, List.length_append]
  omega

theorem length_dripKeys (num : Fin 3) : (dripStartKey num).length ≤ 15 ∧
    (dripDurKey num).length ≤ 15 ∧ (dripDaysKey num).length ≤ 15 := by
  match num with
  | 0 | 1 | 2 => decide +kernel

/-! ## The texts fit -/

/-- The fields that are printed hold values of their types: `int8_t` for the measurements, `int` for
the settings. -/
structure World.FieldsInRange (w : World) : Prop where
  temp : InI8 w.temp
  humidity : InI8 w.humidity
  fanTempOn : InI32 w.info.fanTempOn
  startTime : ∀ num, InI32 (w.info.dripInfo num).startTime
  duration : ∀ num, InI32 (w.info.dripInfo num).duration
  days : ∀ num, InI32 (w.info.dripInfo num).days

theorem Branch.answer_fits {w : World} (h : w.FieldsInRange) {b : Branch} {text : Text}
    (hb : b.answer w = some text) : text.length ≤ 11 := by
  cases b with
  | tempRequest => obtain rfl := Option.some.inj hb; exact length_itoa_of_inI32 h.temp.inI32
  | humidityRequest =>
    obtain rfl := Option.some.inj hb
    exact length_itoa_of_inI32 h.humidity.inI32
  | fanGetTempOn => obtain rfl := Option.some.inj hb; exact length_itoa_of_inI32 h.fanTempOn
  | dripRequestDuration num =>
    obtain rfl := Option.some.inj hb
    exact length_itoa_of_inI32 (h.duration num)
  | dripRequestDays num =>
    obtain rfl := Option.some.inj hb
    exact length_itoa_of_inI32 (h.days num)
  | dripRequestStartTime num =>
    obtain rfl := Option.some.inj hb
    exact (length_convertTimeToString _).trans (by decide)
  | fanGetState | dripRequestStatus _ =>
    obtain rfl := Option.some.inj hb
    exact (length_stateText _).trans (by decide)
  | _ => cases hb

theorem Branch.time_fits {w : World} {b : Branch} {text : Text} (hb : b.time w = some text) :
    text.length ≤ 8 := by
  cases b with
  | dripRequestStartTime num =>
    obtain rfl := Option.some.inj hb
    exact length_convertTimeToString _
  | _ => cases hb

theorem Branch.key_fits {b : Branch} {key : Text} (hb : b.key = some key) : key.length ≤ 15 := by
  cases b with
  | dripSetStartTime num => obtain rfl := Option.some.inj hb; exact (length_dripKeys num).1
  | dripSetDuration num => obtain rfl := Option.some.inj hb; exact (length_dripKeys num).2.1
  | dripSetDays num => obtain rfl := Option.some.inj hb; exact (length_dripKeys num).2.2
  | _ => cases hb

theorem temp_updateTemperature (reading : Int) (w : World) :
    (updateTemperature reading w).temp = i8 reading := by
  unfold updateTemperature
  dsimp only
  split <;> rfl

theorem temp_updateHumidity (reading : Int) (w : World) :
    (updateHumidity reading w).temp = w.temp := by
  unfold updateHumidity
  dsimp only
  split <;> rfl

theorem fits_of_branch {w : World} (h : w.FieldsInRange) (b : Branch) :
    ∀ p ∈ Printer.prints w (.branch b), p.Fits := by
  intro p hp
  unfold Printer.prints at hp
  simp only [List.mem_append, List.mem_map, Option.mem_toList] at hp
  rcases hp with (⟨text, htext, rfl⟩ | ⟨text, htext, rfl⟩) | ⟨key, hkey, rfl⟩
  · have hlen := Branch.time_fits htext
    show text.length + 1 ≤ 16
    omega
  · have hlen := Branch.answer_fits h htext
    show text.length + 1 ≤ 16
    omega
  · have hlen := Branch.key_fits hkey
    show key.length + 1 ≤ 16
    omega

theorem fits_singleton {text : Text} {size k : Nat} (h : text.length ≤ k) (hk : k < size) :
    ∀ p ∈ [Print.mk size text], p.Fits := by
  intro p hq
  obtain rfl := List.mem_singleton.1 hq
  exact Nat.lt_of_le_of_lt h hk

/-- **Every text fits its buffer.** Whatever the fields hold, each text that is printed lies in its
array with the NUL behind it; and the keys have no more than the 15 characters that the flash
library takes. -/
theorem prints_fit {w : World} (h : w.FieldsInRange) (printer : Printer) :
    (∀ p ∈ printer.prints w, p.Fits) ∧ ∀ num, (dripStartKey num).length ≤ 15 ∧
      (dripDurKey num).length ≤ 15 ∧ (dripDaysKey num).length ≤ 15 := by
  refine ⟨?_, length_dripKeys⟩
  cases printer with
  | branch b => exact fits_of_branch h b
  | updateTemperature reading =>
    have hlen := length_itoa_of_inI32 (inI8_i8 reading).inI32
    rw [← temp_updateTemperature reading w] at hlen
    exact fits_singleton hlen (by decide)
  | updateHumidity reading =>
    have hlen := length_itoa_of_inI32 h.temp.inI32
    rw [← temp_updateHumidity reading w] at hlen
    exact fits_singleton hlen (by decide)
  | publishDripStatus num =>
    exact fits_singleton (length_stateText (w.info.dripInfo num).state) (by decide)
  | convertTimeToString rawTime =>
    exact fits_singleton (length_convertTimeToString rawTime.toNat) (by decide)
  | convertTimeToDuration rawTime =>
    exact fits_singleton (length_convertTimeToDuration rawTime.toNat) (by decide)

/-- A boot leaves fields in range if the flash holds `int` values. -/
theorem fieldsInRange_boot {flash : Text → Option Int}
    (hflash : ∀ key v, flash key = some v → InI32 v) : (boot flash).FieldsInRange := by
  have hgetD : ∀ key d, InI32 d → InI32 ((flash key).getD d) := by
    intro key d hd
    cases hkey : flash key with
    | none => exact hd
    | some v => exact hflash key v hkey
  have hite : ∀ (p : Prop) [Decidable p] (x y : Int), InI32 x → InI32 y →
      InI32 (if p then x else y) := by
    intro p _ x y hx hy
    split
    · exact hx
    · exact hy
  have hboot : ∀ s : Setting, InI32 (bootValue flash s) := by
    intro s
    match s with
    | .fanTempOn => exact hgetD _ _ (hgetD _ 95 (by decide))
    | .fanTempOff => exact hite _ 0 90 (by decide) (by decide)
    | .startTime 0 =>
      exact hite _ _ _ (by decide) (hite _ _ _ (by decide) (hgetD _ (1 * 60 * 60) (by decide)))
    | .startTime 1 => exact hite _ _ _ (by decide) (hgetD _ (2 * 60 * 60) (by decide))
    | .startTime 2 => exact hite _ _ _ (by decide) (hgetD _ 0 (by decide))
    | .duration num => exact hgetD _ 0 (by decide)
    | .days num => exact hgetD _ 0 (by decide)
  have hget : ∀ s : Setting, InI32 (s.get (boot flash).info) := fun s => by
    rw [Setting.get_boot]
    exact hboot s
  have htemp : (boot flash).temp = 0 := congrArg World.temp (bare_boot flash)
  have hhumidity : (boot flash).humidity = 0 := congrArg World.humidity (bare_boot flash)
  refine ⟨by rw [htemp]; decide, by rw [hhumidity]; decide, hget .fanTempOn,
    fun num => hget (.startTime num), fun num => hget (.duration num), fun num => hget (.days num)⟩

theorem prints_fit_boot :
    (boot fun _ => some (-2 ^ 31)).FieldsInRange ∧
      ∀ p ∈ Printer.prints (boot fun _ => some (-2 ^ 31)) (.branch (.dripRequestDays 2)),
        p.Fits := by
  have hrange : (boot fun _ => some (-2 ^ 31)).FieldsInRange := by
    refine fieldsInRange_boot fun key v hv => ?_
    obtain rfl := Option.some.inj hv
    decide
  exact ⟨hrange, (prints_fit hrange _).1⟩

end GreenHouse
