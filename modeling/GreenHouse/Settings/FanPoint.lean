import GreenHouse.Mqtt.Routing
import GreenHouse.Settings.Reject

/-!
# The set point of the fans

The fans switch on at `greenHouseInfo.fanTempOn`. A set-temp-on message writes it, a get-temp-on
request is answered from it, and a boot reads it from flash. What it should be is a value that stays
as it was set until another is accepted; what cannot be an `int8_t`, or is zero, is not accepted
(`accept`).

The code loses it in two ways. The number is cut down to eight bits before it is looked at, so that
300 sets 44. And nothing writes it to flash: a boot reads it from `FAN_TEMP_ON`, and then reads
`FAN_TEMP_OFF` over it. `fanPoint_right_iff` says in which runs neither is felt.
-/

namespace GreenHouse

open CInt CText

/-! ## Messages -/

/-- A set-temp-on message as it lies in the input buffer: a number with a NUL behind it, between
whatever else the buffer holds. -/
structure PointMessage extends NumberText where
  no_tail : tail = []
  inI32 : InI32 toNumberText.value
  header : Text
  residue : Text

namespace PointMessage

def publish (m : PointMessage) : Publish :=
  ⟨m.header, fanSetTempOnSubTopic, m.text ++ [0], m.residue⟩

/-- The bytes of a number are blanks, a sign and digits. -/
theorem notMem_text (m : PointMessage) {b : UInt8} (hspace : isSpace b = false)
    (hdigit : isDigit b = false) (hplus : b ≠ 43) (hminus : b ≠ 45) : b ∉ m.text := by
  unfold NumberText.text
  rw [m.no_tail, List.append_nil, List.mem_append, List.mem_append]
  rintro (h | h | h)
  · rw [m.blanks_isSpace b h] at hspace
    cases hspace
  · cases hsign : m.sign with
    | none => rw [hsign] at h; cases h
    | plus => rw [hsign] at h; exact hplus (List.mem_singleton.1 h)
    | minus => rw [hsign] at h; exact hminus (List.mem_singleton.1 h)
  · rw [m.digits_numeral.2 b h] at hdigit
    cases hdigit

theorem rest_publish (m : PointMessage) : m.publish.rest = m.text := by
  have hzero : (0 : UInt8) ∉ m.text :=
    m.notMem_text (by decide) (by decide) (by decide) (by decide)
  unfold Publish.rest publish
  rw [List.append_assoc]
  exact (cstr_append_zero _ _).trans (cstr_eq_self hzero)

/-- There is no slash in a number, so no test but that of the topic succeeds. -/
theorem not_hit (m : PointMessage) {c : Branch} (hc : c ≠ .fanSetTempOn) :
    ¬ Hearing.Hit fanSetTempOnSubTopic m.text c := by
  have hslash : (47 : UInt8) ∉ m.text :=
    m.notMem_text (by decide) (by decide) (by decide) (by decide)
  have htopic : c.topic ≠ fanSetTempOnSubTopic := fun h => hc (topic_injective h)
  rw [hit_iff (by decide +kernel) htopic]
  rintro (h | ⟨num, hdays, -⟩)
  · exact hslash (h.subset (slash_mem_topic c))
  · revert num
    decide +kernel

/-- **A message is its branch**: the handler runs the set-temp-on branch on the number. -/
theorem handle_eq (m : PointMessage) (w : World) :
    (m.publish.handle w).world = controlFanSetTempOn m.text w ∧
      (m.publish.handle w).fault = none := by
  have hsub : fanSetTempOnSubTopic ∈ subscribed := by decide +kernel
  have hreads := handle_reads (m := m.publish) (zero_notMem_of_subscribed _ hsub) w
  have hne : m.publish.payload ≠ [] := List.append_ne_nil_of_right_ne_nil _ (List.cons_ne_nil _ _)
  have hhear : m.publish.hear w =
      Hearing.enter m.publish.payload .fanSetTempOn ⟨w, m.text, none, []⟩ := by
    show Hearing.run fanSetTempOnSubTopic m.publish.payload Branch.all
      ⟨w, m.publish.rest, none, []⟩ = _
    rw [m.rest_publish]
    have hown : Hearing.Hit fanSetTempOnSubTopic m.text .fanSetTempOn :=
      (List.prefix_append _ _).isInfix
    exact Hearing.run_of_only (mem_all _) nodup_all rfl hown (fun c hc => m.not_hit hc)
      (by rw [Hearing.text_enter, if_neg (fun h => nomatch h.1)])
  rw [hreads.world, hreads.fault, hhear]
  unfold Hearing.enter
  simp [Branch.use, hne, Branch.act]

end PointMessage

inductive PointStep where
  | set (m : PointMessage)
  | request
  | reboot

def PointStep.world (w : World) : PointStep → World
  | set m => (m.publish.handle w).world
  | request => (Branch.fanGetTempOn.act [] w).1
  | reboot => boot w.flash

/-- The set point in force after a value has been set. -/
def accept (point v : Int) : Int := if InI8 v ∧ v ≠ 0 then v else point

def PointStep.point (point : Int) : PointStep → Int
  | set m => accept point m.value
  | request | reboot => point

/-! ## Runs -/

/-- The firmware with the set point that is in force beside it. -/
structure Pointed where
  world : World
  point : Int

def Pointed.booted (flash : Text → Option Int) : Pointed :=
  ⟨boot flash, (boot flash).info.fanTempOn⟩

/-- A step with what it starts from and what it leads to. -/
structure PointRecord where
  step : PointStep
  before : World
  after : World
  -- the set point in force after the step
  point : Int

/-- RAM holds the set point in force, and a request is answered with it and does nothing else. -/
structure PointRecord.Right (o : PointRecord) : Prop where
  ram : o.after.info.fanTempOn = o.point
  reply : o.step = .request →
    o.after = o.before.emit (.publish fanGetTempOnPubTopic (itoa o.point))

def fanPoint : Mealy Pointed PointStep PointRecord where
  step s c := (⟨c.world s.world, c.point s.point⟩, ⟨c, s.world, c.world s.world, c.point s.point⟩)

/-- The step meets neither way to lose the set point. A number that does not fit into eight bits is
cut down to zero or to the set point there is; and a reboot finds the set point under the key that
it reads last. -/
def Pointed.Kept (s : Pointed) : PointStep → Prop
  | .set m => InI8 m.value ∨ i8 m.value = 0 ∨ i8 m.value = s.point
  | .request => True
  | .reboot => s.world.flash Setting.fanTempOff.key = some s.point

/-- Between two steps that were right: RAM holds the set point, and the key is in flash. -/
structure Pointed.Inv (s : Pointed) : Prop where
  ram : s.world.info.fanTempOn = s.point
  stored : s.world.flash Setting.fanTempOff.key ≠ none

section Steps

variable (w : World)

/-- A message leaves the low eight bits of its number, unless they are zero. -/
theorem fanTempOn_set (m : PointMessage) :
    (PointStep.world w (.set m)).info.fanTempOn =
      if i8 m.value ≠ 0 then i8 m.value else w.info.fanTempOn := by
  have hworld : PointStep.world w (.set m) = controlFanSetTempOn m.text w := (m.handle_eq w).1
  rw [hworld]
  unfold controlFanSetTempOn
  rw [m.atoi_text m.inI32]
  dsimp only
  split <;> rfl

theorem flash_set (m : PointMessage) : (PointStep.world w (.set m)).flash = w.flash := by
  have hworld : PointStep.world w (.set m) = controlFanSetTempOn m.text w := (m.handle_eq w).1
  rw [hworld]
  unfold controlFanSetTempOn
  dsimp only
  split <;> rfl

theorem world_request : PointStep.world w .request =
    w.emit (.publish fanGetTempOnPubTopic (itoa w.info.fanTempOn)) := rfl

/-- A boot leaves what it reads last. -/
theorem fanTempOn_boot {flash : Text → Option Int} {v : Int}
    (h : flash Setting.fanTempOff.key = some v) : (boot flash).info.fanTempOn = v := by
  have hget := Setting.get_boot flash .fanTempOn
  unfold bootValue at hget
  rw [h] at hget
  exact hget

theorem stored_boot (flash : Text → Option Int) :
    (boot flash).flash Setting.fanTempOff.key ≠ none := by
  rw [flash_boot]
  exact Option.some_ne_none _

end Steps

theorem Pointed.inv_booted (flash : Text → Option Int) : (booted flash).Inv :=
  ⟨rfl, stored_boot flash⟩

/-- What a message leaves is what it should leave unless it is cut down to another set point. -/
theorem set_eq_accept_iff (point v : Int) :
    (if i8 v ≠ 0 then i8 v else point) = accept point v ↔
      InI8 v ∨ i8 v = 0 ∨ i8 v = point := by
  unfold accept
  by_cases hv : InI8 v
  · rw [i8_eq hv]
    by_cases hzero : v = 0 <;> simp [hv, hzero]
  · by_cases hzero : i8 v = 0 <;> simp [hv, hzero]

theorem fanPoint_step (s : Pointed) (c : PointStep) : fanPoint.step s c =
    (⟨c.world s.world, c.point s.point⟩, ⟨c, s.world, c.world s.world, c.point s.point⟩) := rfl

theorem right_iff_ram {o : PointRecord} (h : o.step ≠ .request) :
    o.Right ↔ o.after.info.fanTempOn = o.point :=
  ⟨fun hr => hr.ram, fun hr => ⟨hr, fun hstep => absurd hstep h⟩⟩

/-- **The step lemma**: a step is right exactly when the set point is kept. -/
theorem right_iff_kept {s : Pointed} (h : s.Inv) (c : PointStep) :
    (fanPoint.step s c).2.Right ↔ s.Kept c := by
  rw [fanPoint_step]
  cases c with
  | set m =>
    rw [right_iff_ram (by simp)]
    dsimp only
    rw [fanTempOn_set, h.ram]
    exact set_eq_accept_iff s.point m.value
  | request =>
    have hworld := world_request s.world
    rw [h.ram] at hworld
    refine iff_of_true ⟨?_, fun _ => hworld⟩ trivial
    dsimp only
    rw [hworld]
    exact h.ram
  | reboot =>
    obtain ⟨v, hv⟩ := Option.ne_none_iff_exists'.1 h.stored
    have hram : (PointStep.world s.world .reboot).info.fanTempOn = v := fanTempOn_boot hv
    have hkept : s.Kept .reboot ↔ v = s.point := by
      unfold Pointed.Kept
      rw [hv, Option.some_inj]
    rw [right_iff_ram (by simp), hkept]
    dsimp only
    rw [hram]
    rfl

theorem Pointed.Inv.step {s : Pointed} (h : s.Inv) {c : PointStep} (hc : s.Kept c) :
    (fanPoint.step s c).1.Inv := by
  have hright := (right_iff_kept h c).2 hc
  rw [fanPoint_step] at hright ⊢
  refine ⟨hright.ram, ?_⟩
  cases c with
  | set m =>
    dsimp only
    rw [flash_set]
    exact h.stored
  | request =>
    dsimp only
    rw [world_request]
    exact h.stored
  | reboot => exact stored_boot s.world.flash

/-- **The set point is what was set.** In a run of set messages, requests and reboots after a boot,
RAM and every answer show the set point in force after every step exactly when no number is cut down
to another set point and every reboot finds the set point under `FAN_TEMP_OFF`. -/
theorem fanPoint_right_iff (flash : Text → Option Int) (steps : List PointStep) :
    (∀ o ∈ fanPoint.run (Pointed.booted flash) steps, o.Right) ↔
      fanPoint.Along Pointed.Kept (Pointed.booted flash) steps :=
  Mealy.forall_run_iff (I := Pointed.Inv) (fun _ _ h hc => h.step hc)
    (fun _ c h => right_iff_kept h c) (Pointed.inv_booted flash)

theorem isDigit_head_nil : ∀ b ∈ ([] : Text).head?, isDigit b = false := nofun

/-- A number without blanks and sign, alone in the buffer. -/
def plainMessage (digits : Text) (h : Numeral digits) (hv : InI32 (natOf digits)) :
    PointMessage where
  blanks := []
  sign := .none
  digits := digits
  tail := []
  blanks_isSpace := isSpace_of_mem_nil
  digits_numeral := h
  tail_head := isDigit_head_nil
  no_tail := rfl
  inI32 := hv
  header := []
  residue := []

def setEighty : PointMessage :=
  plainMessage (ascii "80") (numeral_of_all (by decide) (by decide)) (by decide)

def setThreeHundred : PointMessage :=
  plainMessage (ascii "300") (numeral_of_all (by decide) (by decide)) (by decide)

/-- A flash with both set points: 95 to switch on, 90 to switch off. -/
def bothPoints (key : Text) : Option Int := if key = ascii "FAN_TEMP_ON" then some 95 else some 90

/-- A set point of 80 is gone after a reboot, and 300 is taken for 44. -/
theorem fanPoint_not_right :
    (¬ ∀ o ∈ fanPoint.run (Pointed.booted bothPoints) [.set setEighty, .reboot], o.Right) ∧
      ¬ ∀ o ∈ fanPoint.run (Pointed.booted bothPoints) [.set setThreeHundred], o.Right := by
  have hinv := Pointed.inv_booted bothPoints
  have hpoint : (Pointed.booted bothPoints).point = 90 := fanTempOn_boot (by decide)
  refine ⟨fun h => ?_, fun h => ?_⟩
  · have hset : (Pointed.booted bothPoints).Kept (.set setEighty) := Or.inl (by decide)
    have hreboot := (right_iff_kept (hinv.step hset) .reboot).1
      (h _ (List.mem_cons_of_mem _ List.mem_cons_self))
    rw [fanPoint_step] at hreboot
    unfold Pointed.Kept at hreboot
    dsimp only at hreboot
    rw [flash_set] at hreboot
    have hstored := flash_boot bothPoints .fanTempOff
    have heq := hstored.symm.trans hreboot
    exact absurd heq (by decide)
  · have hkept := (right_iff_kept hinv (.set setThreeHundred)).1 (h _ List.mem_cons_self)
    unfold Pointed.Kept at hkept
    rw [hpoint] at hkept
    exact absurd hkept (by decide)

end GreenHouse
