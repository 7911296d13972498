import GreenHouse.Settings.Boot
import GreenHouse.Settings.ClockText
import GreenHouse.Lib.Mealy

/-!
# The drip settings as persistent registers

Nine settings, each with a branch that sets it, a branch that answers a request for it, a key in
flash that the set command builds and a key that the boot reads. What they are for is a file of
nine registers that keep their values over reboots. `registers_correct` says that in every run of
set commands, requests and reboots the firmware is that file: the invariant is that RAM and flash
both hold the value last set (`Holds`).

A set command comes with the value its payload denotes (`Denotes`); the file takes that value, and
the code has to arrive at it by parsing.
-/

namespace GreenHouse

open CInt CText

/-! ## The registers -/

inductive Field where
  | startTime
  | duration
  | days
  deriving DecidableEq

/-- One of the nine settings of the drips. -/
structure Register where
  field : Field
  num : Fin 3
  deriving DecidableEq

namespace Register

def setting : Register → Setting
  | ⟨.startTime, num⟩ => .startTime num
  | ⟨.duration, num⟩ => .duration num
  | ⟨.days, num⟩ => .days num

theorem setting_injective : Function.Injective setting := by
  rintro ⟨f, m⟩ ⟨g, n⟩ h
  cases f <;> cases g <;> simp_all [setting]

def setBranch : Register → Branch
  | ⟨.startTime, num⟩ => .dripSetStartTime num
  | ⟨.duration, num⟩ => .dripSetDuration num
  | ⟨.days, num⟩ => .dripSetDays num

def requestBranch : Register → Branch
  | ⟨.startTime, num⟩ => .dripRequestStartTime num
  | ⟨.duration, num⟩ => .dripRequestDuration num
  | ⟨.days, num⟩ => .dripRequestDays num

def replyTopic : Register → Text
  | ⟨.startTime, num⟩ => dripStartTimeTopic num
  | ⟨.duration, num⟩ => dripDurationTopic num
  | ⟨.days, num⟩ => dripDaysTopic num

def encode : Register → Int → Text
  | ⟨.startTime, _⟩, v => convertTimeToString v
  | ⟨.duration, _⟩, v => itoa v
  | ⟨.days, _⟩, v => itoa v

end Register

/-! ## Payloads and what they denote -/

/-- A start time `H:MM` with what follows the minutes, a time after noon if that says PM. The
arithmetic of the conversion stays within an `int`. -/
structure StartText where
  hours : Text
  minutes : Text
  mark : Text
  hours_numeral : Numeral hours
  minutes_numeral : Numeral minutes
  minutes_length : minutes.length = 2
  mark_head : ∀ b ∈ mark.head?, isDigit b = false
  no_overflow :
    natOf hours * 60 + (if ascii "PM" <:+: mark then 12 * 60 else 0) + natOf minutes < 2 ^ 31

namespace StartText

def text (t : StartText) : Text := t.hours ++ 58 :: (t.minutes ++ t.mark)

def value (t : StartText) : Int :=
  natOf t.hours * 60 + (if ascii "PM" <:+: t.mark then 12 * 60 else 0) + natOf t.minutes

end StartText

/-- The payload of a set command denotes a value. -/
inductive Denotes : Register → Text → Int → Prop
  | start (num : Fin 3) (t : StartText) : Denotes ⟨.startTime, num⟩ t.text t.value
  | decimal (field : Field) (num : Fin 3) {ds : Text} (hf : field ≠ .startTime) (hds : Numeral ds)
      (hv : InI32 (natOf ds)) : Denotes ⟨field, num⟩ ds (natOf ds)
  | negative (field : Field) (num : Fin 3) {ds : Text} (hf : field ≠ .startTime) (hds : Numeral ds)
      (hv : InI32 (-(natOf ds : Int))) : Denotes ⟨field, num⟩ (45 :: ds) (-(natOf ds : Int))

/-- A start time is a clock text without leading blanks. -/
def StartText.clock (t : StartText) : ClockText where
  blanks := []
  hours := t.hours
  minutes := t.minutes
  tail := t.mark
  blanks_isSpace := isSpace_of_mem_nil
  hours_numeral := t.hours_numeral
  minutes_numeral := t.minutes_numeral
  tail_head := t.mark_head

theorem StartText.codeValue_clock (t : StartText) : (t.clock.codeValue : Int) = t.value := by
  show ((natOf t.hours * 60 + (if ascii "PM" <:+: t.mark then 12 * 60 else 0) +
    natOf t.minutes : Nat) : Int) = t.value
  unfold StartText.value
  split <;> push_cast <;> rfl

theorem StartText.inI32_value (t : StartText) : InI32 t.value := by
  have hlt := t.no_overflow
  rw [← t.codeValue_clock]
  have : t.clock.codeValue < 2 ^ 31 := hlt
  unfold InI32
  omega

theorem Denotes.inI32 {r : Register} {p : Text} {v : Int} (h : Denotes r p v) : InI32 v := by
  cases h with
  | start num t => exact t.inI32_value
  | decimal field num hf hds hv => exact hv
  | negative field num hf hds hv => exact hv

/-! ## One command -/

/-- What the code makes of a payload; without a colon a start time ends in a fault. -/
def Register.parse : Register → Text → Option Int
  | ⟨.startTime, _⟩, p => (afterChr p 58).map (startTimeOf p)
  | ⟨.duration, _⟩, p => some (atoi p)
  | ⟨.days, _⟩, p => some (atoi p)

/-- The value is stored in RAM and in flash, and no other field and no other key is touched. -/
theorem act_of_parse {r : Register} {p : Text} {v : Int} (h : r.parse p = some v) (w : World) :
    (r.setBranch.act p w).2 = none ∧
      (r.setBranch.act p w).1.info = (r.setting.set v w).info ∧
      (r.setBranch.act p w).1.flash = Function.update w.flash r.setting.key (some v) := by
  match r, h with
  | ⟨.startTime, num⟩, h =>
    obtain ⟨minutes, hcolon, rfl⟩ := Option.map_eq_some_iff.1 h
    have hact : (Register.mk .startTime num).setBranch.act p w =
        (storeStartTime num (startTimeOf p minutes) w, none) := by
      show controlDripStartTime num p w = _
      unfold controlDripStartTime
      rw [hcolon]
    rw [hact]
    exact ⟨rfl, rfl, rfl⟩
  | ⟨.duration, num⟩, h =>
    obtain rfl := Option.some.inj h
    exact ⟨rfl, rfl, rfl⟩
  | ⟨.days, num⟩, h =>
    obtain rfl := Option.some.inj h
    exact ⟨rfl, rfl, rfl⟩

theorem parse_of_ne {r : Register} (hr : r.field ≠ .startTime) (p : Text) :
    r.parse p = some (atoi p) := by
  match r, hr with
  | ⟨.startTime, _⟩, hr => exact absurd rfl hr
  | ⟨.duration, _⟩, _ => rfl
  | ⟨.days, _⟩, _ => rfl

theorem ClockText.parse_text (t : ClockText) (h : t.codeValue < 2 ^ 31) (num : Fin 3) :
    Register.parse ⟨.startTime, num⟩ t.text = some ↑t.codeValue := by
  show (afterChr t.text 58).map (startTimeOf t.text) = _
  rw [t.afterChr_text, Option.map_some, t.startTimeOf_text h]

theorem Denotes.parse {r : Register} {p : Text} {v : Int} (h : Denotes r p v) :
    r.parse p = some v := by
  cases h with
  | start num t =>
    rw [← t.codeValue_clock]
    exact t.clock.parse_text t.no_overflow num
  | decimal field num hf hds hv =>
    have hatoi := hds.atoi_append hv (r := []) (by simp)
    rw [List.append_nil] at hatoi
    rw [parse_of_ne hf, hatoi]
  | negative field num hf hds hv =>
    have hatoi := hds.atoi_neg_append hv (r := []) (by simp)
    rw [List.append_nil] at hatoi
    rw [parse_of_ne hf, hatoi]

/-- **A set command** stores the value its payload denotes, in RAM and in flash, and touches no
other field and no other key. -/
theorem act_setBranch {r : Register} {p : Text} {v : Int} (h : Denotes r p v) (w : World) :
    (r.setBranch.act p w).2 = none ∧
      (r.setBranch.act p w).1.info = (r.setting.set v w).info ∧
      (r.setBranch.act p w).1.flash = Function.update w.flash r.setting.key (some v) :=
  act_of_parse h.parse w

/-- **A request** publishes the register's text on its reply topic and does nothing else. -/
theorem act_requestBranch (r : Register) (w : World) :
    r.requestBranch.act [] w =
      (w.emit (.publish r.replyTopic (r.encode (r.setting.get w.info))), none) := by
  obtain ⟨field, num⟩ := r
  cases field <;> rfl

/-- **A boot** reads every register from its key. -/
theorem get_boot_register {flash : Text → Option Int} {v : Register → Int}
    (h : ∀ r : Register, flash r.setting.key = some (v r)) (r : Register) :
    r.setting.get (boot flash).info = v r := by
  have hstart : ∀ num, flash (Setting.startTime num).key = some (v ⟨.startTime, num⟩) :=
    fun num => h ⟨.startTime, num⟩
  have hdur : ∀ num, flash (Setting.duration num).key = some (v ⟨.duration, num⟩) :=
    fun num => h ⟨.duration, num⟩
  have hdays : ∀ num, flash (Setting.days num).key = some (v ⟨.days, num⟩) :=
    fun num => h ⟨.days, num⟩
  rw [Setting.get_boot]
  match r with
  | ⟨.startTime, 0⟩ | ⟨.startTime, 1⟩ | ⟨.startTime, 2⟩ =>
    simp [Register.setting, bootValue, hstart, hdur]
  | ⟨.duration, num⟩ => simp [Register.setting, bootValue, hdur]
  | ⟨.days, num⟩ => simp [Register.setting, bootValue, hdays]

/-! ## Runs -/

/-- A step of a run: a set command with its payload and the value that denotes, a request, or a
reboot. -/
inductive Step where
  | set (r : Register) (payload : Text) (v : Int)
  | request (r : Register)
  | reboot

def Step.WellFormed : Step → Prop
  | set r payload v => Denotes r payload v
  | request _ | reboot => True

def Step.world (w : World) : Step → World
  | set r payload _ => (r.setBranch.act payload w).1
  | request r => (r.requestBranch.act [] w).1
  | reboot => boot w.flash

def Step.file (file : Register → Int) : Step → Register → Int
  | set r _ v => Function.update file r v
  | request _ | reboot => file

/-- A step with what it starts from and what it leads to. -/
structure Record where
  step : Step
  before : World
  after : World
  -- the file before the step: the values last set
  file : Register → Int

def Record.Correct (o : Record) : Prop :=
  match o.step with
  | .set r payload v =>
    (r.setBranch.act payload o.before).2 = none ∧
      o.after.info = (r.setting.set v o.before).info ∧
      o.after.flash = Function.update o.before.flash r.setting.key (some v)
  | .request r =>
    o.after = o.before.emit (.publish r.replyTopic (r.encode (o.file r))) ∧
      (r.field ≠ .startTime → atoi (r.encode (o.file r)) = o.file r)
  | .reboot => ∀ r : Register, r.setting.get o.after.info = r.setting.get o.before.info

/-- The firmware with the file beside it. -/
def registers : Mealy (World × (Register → Int)) Step Record where
  step s c := ((c.world s.1, c.file s.2), ⟨c, s.1, c.world s.1, s.2⟩)

structure Holds (w : World) (file : Register → Int) : Prop where
  ram : ∀ r : Register, r.setting.get w.info = file r
  flash : ∀ r : Register, w.flash r.setting.key = some (file r)
  inI32 : ∀ r, InI32 (file r)

theorem holds_set {r : Register} {p : Text} {v : Int} (hd : Denotes r p v) {w : World}
    {file : Register → Int} (h : Holds w file) :
    Holds (r.setBranch.act p w).1 (Function.update file r v) := by
  obtain ⟨-, hinfo, hflash⟩ := act_setBranch hd w
  refine ⟨fun q => ?_, fun q => ?_, fun q => ?_⟩
  · rw [hinfo, Setting.get_set]
    by_cases hq : q = r
    · subst hq; simp
    · rw [if_neg fun e => hq (Register.setting_injective e), Function.update_of_ne hq, h.ram]
  · rw [hflash]
    by_cases hq : q = r
    · subst hq; simp
    · have hkey : q.setting.key ≠ r.setting.key := fun e =>
        hq (Register.setting_injective (Setting.key_injective e))
      rw [Function.update_of_ne hkey, Function.update_of_ne hq, h.flash]
  · by_cases hq : q = r
    · subst hq
      rw [Function.update_self]
      exact hd.inI32
    · rw [Function.update_of_ne hq]
      exact h.inI32 q

theorem holds_boot {flash : Text → Option Int} {file : Register → Int}
    (h : ∀ r : Register, flash r.setting.key = some (file r)) (hi : ∀ r, InI32 (file r)) :
    Holds (boot flash) file where
  ram := get_boot_register h
  flash := fun r => by rw [flash_boot, h, Option.getD_some]
  inI32 := hi

theorem encode_atoi {r : Register} (hr : r.field ≠ .startTime) {v : Int} (hv : InI32 v) :
    atoi (r.encode v) = v := by
  obtain ⟨field, num⟩ := r
  cases field with
  | startTime => exact absurd rfl hr
  | duration => exact atoi_itoa hv
  | days => exact atoi_itoa hv

/-- **The step lemma**: a well-formed step from a world that holds the file is correct and leads to
a world that holds the next file. -/
theorem holds_step {w : World} {file : Register → Int} (h : Holds w file) {c : Step}
    (hc : c.WellFormed) :
    Holds (c.world w) (c.file file) ∧ Record.Correct ⟨c, w, c.world w, file⟩ := by
  cases c with
  | set r p v =>
    exact ⟨holds_set hc h, act_setBranch hc w⟩
  | request r =>
    have hact : Step.world w (.request r) =
        w.emit (.publish r.replyTopic (r.encode (file r))) := by
      show (r.requestBranch.act [] w).1 = _
      rw [act_requestBranch, h.ram]
    refine ⟨?_, hact, fun hr => encode_atoi hr (h.inI32 r)⟩
    rw [hact]
    exact ⟨h.ram, h.flash, h.inI32⟩
  | reboot =>
    have hboot : Holds (boot w.flash) file := holds_boot h.flash h.inI32
    exact ⟨hboot, fun r => (hboot.ram r).trans (h.ram r).symm⟩

/-- **The drip settings are nine persistent registers.** From a boot with all nine keys in flash,
in every run of set commands, requests and reboots: a set command changes the addressed field of the
addressed drip and nothing else, in RAM and in flash; a request publishes the encoding of the value
last set; and a reboot changes none of the nine values. -/
theorem registers_correct {flash : Text → Option Int} {file : Register → Int}
    (hflash : ∀ r : Register, flash r.setting.key = some (file r)) (hi : ∀ r, InI32 (file r))
    {steps : List Step} (hsteps : ∀ c ∈ steps, c.WellFormed) :
    ∀ o ∈ registers.run (boot flash, file) steps, o.Correct := by
  exact Mealy.forall_run (I := fun s => Holds s.1 s.2) (P := fun _ c => c.WellFormed)
    (fun _ _ hinv hc => holds_step hinv hc) (holds_boot hflash hi)
    (Mealy.along_of_forall_mem hsteps _)

def evening : StartText where
  hours := ascii "8"
  minutes := ascii "05"
  mark := ascii "PM"
  hours_numeral := numeral_of_all (by decide) (by decide)
  minutes_numeral := numeral_of_all (by decide) (by decide)
  minutes_length := by decide
  mark_head := forall_head (a := 80) (by decide) (by decide)
  no_overflow := by decide

theorem registers_correct_evening :
    evening.value = 1205 ∧
      ∀ o ∈ registers.run (boot fun _ => some 0, fun _ => 0)
        [.set ⟨.startTime, 1⟩ evening.text 1205, .set ⟨.days, 2⟩ (ascii "-1") (-1), .reboot,
          .request ⟨.startTime, 1⟩, .request ⟨.days, 2⟩], o.Correct := by
  have hone : Numeral (ascii "1") := numeral_of_all (by decide) (by decide)
  have hstart : Denotes ⟨.startTime, 1⟩ evening.text 1205 := .start 1 evening
  have hdays : Denotes ⟨.days, 2⟩ (ascii "-1") (-1) :=
    .negative .days 2 (by decide) hone (by decide)
  refine ⟨by decide, registers_correct (fun _ => rfl) (fun _ => by decide) ?_⟩
  simp [Step.WellFormed, hstart, hdays]

end GreenHouse
