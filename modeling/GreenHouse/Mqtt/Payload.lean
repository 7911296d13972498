import GreenHouse.Mqtt.Routing
import Mathlib.Tactic.FinCases

/-!
# What a command depends on

The payload of a command is read in place, and so is the topic in front of it: both reads go on
into what earlier messages left behind the payload. `handle_effect_iff` says exactly for which
payloads that makes no difference.

A NUL in the payload is enough, since it ends both reads. Without one, a residue can hold any
constant and any word, so it makes no difference only where the payload already does all that a
residue could make it do: it names the fan and all three valves, it says ON, it sets the set point
or holds no number for it, and it sets a start time that ends the reads or the handler.
-/

namespace GreenHouse

open CInt CText

/-! ## Effects and outcomes -/

/-- What a message does to `greenHouseInfo`, to the pins and to the flash. -/
structure Effect where
  info : GreenHouseInfo
  writes : List Event

def Handling.effect (h : Handling) : Effect := ⟨h.world.info, h.world.writes⟩

/-- The effect of a run so far, and whether the handler goes on. -/
structure Outcome where
  info : GreenHouseInfo
  writes : List Event
  fault : Option Fault

def Outcome.effect (o : Outcome) : Effect := ⟨o.info, o.writes⟩

/-- The outcome after the body of `b` on the text `data`. -/
def Outcome.after (b : Branch) (data : Text) (o : Outcome) : Outcome :=
  ⟨b.infoAfter data o.info, o.writes ++ b.writes data, b.faultOf data⟩

@[simp] theorem Outcome.effect_info (o : Outcome) : o.effect.info = o.info := rfl

@[simp] theorem Outcome.effect_writes (o : Outcome) : o.effect.writes = o.writes := rfl

namespace Hearing

def outcome (h : Hearing) : Outcome := ⟨h.world.info, h.world.writes, h.fault⟩

theorem outcome_run_of_fault {topic payload : Text} {h : Hearing} {i : GreenHouseInfo}
    {ws : List Event} {f : Fault} (ho : h.outcome = ⟨i, ws, some f⟩) (l : List Branch) :
    (run topic payload l h).outcome = ⟨i, ws, some f⟩ := by
  have hf : h.fault = some f := congrArg Outcome.fault ho
  rw [run_of_fault (by rw [hf]; rfl), ho]

section Enter

variable {payload : Text}

/-- The text the body of `b` reads. -/
def data (payload : Text) (b : Branch) (h : Hearing) : Text :=
  match b.use with
  | .none => []
  | .read => h.text
  | .terminate => cstr payload

theorem data_congr {h₁ h₂ : Hearing} (ht : h₁.text = h₂.text) (b : Branch) :
    h₁.data payload b = h₂.data payload b := by
  unfold data
  rw [ht]

theorem outcome_enter (hp : payload ≠ []) (b : Branch) (h : Hearing) :
    (h.enter payload b).outcome = h.outcome.after b (h.data payload b) := by
  unfold enter data outcome Outcome.after
  cases b.use <;> simp [hp, Branch.act_info, Branch.act_writes, Branch.act_snd]

theorem text_enter_of_ne (hp : payload ≠ []) (b : Branch) (h : Hearing) :
    (h.enter payload b).text = if b.use = .terminate then cstr payload else h.text := by
  rw [text_enter]
  simp [hp]

theorem outcome_test (hp : payload ≠ []) (topic : Text) {h : Hearing} (hf : h.fault = none)
    (b : Branch) :
    (test topic payload h b).outcome =
      if Hit topic h.text b then h.outcome.after b (h.data payload b) else h.outcome := by
  by_cases hit : Hit topic h.text b
  · rw [test_of_hit hf hit, outcome_enter hp, if_pos hit]
  · rw [test_of_not_hit hit, if_neg hit]

end Enter

section Same

variable {topic payload : Text} (hp : payload ≠ []) {h₁ h₂ : Hearing}

include hp

/-- Two runs with one outcome and one text stay together. -/
theorem outcome_run_congr (ho : h₁.outcome = h₂.outcome) (ht : h₁.text = h₂.text)
    (l : List Branch) :
    (run topic payload l h₁).outcome = (run topic payload l h₂).outcome := by
  induction l generalizing h₁ h₂ with
  | nil => exact ho
  | cons b l ih =>
    have hfault : h₁.fault = h₂.fault := congrArg Outcome.fault ho
    rw [run_cons, run_cons]
    by_cases hf : h₁.fault.isSome = true
    · have h1 : test topic payload h₁ b = h₁ := by rw [test, if_pos hf]
      have h2 : test topic payload h₂ b = h₂ := by rw [test, if_pos (hfault ▸ hf)]
      rw [h1, h2]
      exact ih ho ht
    · have hnone : h₁.fault = none := Option.not_isSome_iff_eq_none.1 hf
      by_cases hit : Hit topic h₁.text b
      · rw [test_of_hit hnone hit, test_of_hit (hfault ▸ hnone) (ht ▸ hit)]
        apply ih
        · rw [outcome_enter hp, outcome_enter hp, ho, data_congr ht b]
        · rw [text_enter_of_ne hp, text_enter_of_ne hp, ht]
      · rw [test_of_not_hit hit, test_of_not_hit (ht ▸ hit)]
        exact ih ho ht

end Same

/-! ## Texts that read alike up to the start times -/

/-- To the branches before the start times, the text says what the payload says. -/
structure Steady (topic payload text : Text) : Prop where
  fan : Hit topic text .fanSetState
  ctrl : ∀ num, Hit topic text (.dripCtrl num)
  on : ascii "ON" <:+: text
  number : atoi text = atoi payload
  point : Hit topic text .fanSetTempOn ∨ i8 (atoi payload) = 0

def steadyData (payload : Text) : Branch → Text
  | .fanSetTempOn => payload
  | _ => ascii "ON"

theorem faultOf_of_use_ne {b : Branch} (hb : b.use ≠ .terminate) (data : Text) :
    b.faultOf data = none := by
  cases b with
  | dripSetStartTime num => exact absurd rfl hb
  | _ => rfl

theorem after_of_use_none {b : Branch} (hb : b.use = .none) (data : Text) {o : Outcome}
    (ho : o.fault = none) : o.after b data = o := by
  have heff : b.infoAfter data o.info = o.info ∧ b.writes data = [] := by
    cases b with
    | fanSetState | fanSetTempOn | dripCtrl | dripSetStartTime | dripSetDuration | dripSetDays =>
      cases hb
    | _ => exact ⟨rfl, rfl⟩
  unfold Outcome.after
  rw [heff.1, heff.2, List.append_nil, faultOf_of_use_ne (by rw [hb]; decide), ← ho]

/-- To the commands without a number all texts that say ON are one. -/
theorem after_of_on {data : Text} (hon : ascii "ON" <:+: data) {b : Branch}
    (hb : b = .fanSetState ∨ ∃ num, b = .dripCtrl num) (o : Outcome) :
    o.after b data = o.after b (ascii "ON") := by
  have hself : strstr (ascii "ON") (ascii "ON") = true := by decide
  have hdata : strstr data (ascii "ON") = true := strstr_iff.2 hon
  rcases hb with rfl | ⟨num, rfl⟩
  · have hcmd : Branch.fanCommand data = Branch.fanCommand (ascii "ON") := by
      unfold Branch.fanCommand
      rw [if_pos hdata, if_pos hself]
    simp only [Outcome.after, Branch.infoAfter, Branch.writes, Branch.faultOf, hcmd]
  · simp only [Outcome.after, Branch.infoAfter, Branch.writes, Branch.faultOf, hself, hdata]

theorem after_fanSetTempOn_of_zero {data : Text} (hzero : i8 (atoi data) = 0) {o : Outcome}
    (ho : o.fault = none) : o.after .fanSetTempOn data = o := by
  simp only [Outcome.after, Branch.infoAfter, Branch.writes, Branch.faultOf, hzero, ne_eq,
    not_true_eq_false, if_false, List.append_nil, ← ho]

section Steady

variable {topic payload : Text} (hp : payload ≠ [])

include hp

theorem test_keeps (topic : Text) {h : Hearing} (hf : h.fault = none) {b : Branch}
    (hb : b.use ≠ .terminate) :
    (test topic payload h b).text = h.text ∧ (test topic payload h b).fault = none := by
  by_cases hit : Hit topic h.text b
  · have hout := congrArg Outcome.fault (outcome_enter hp b h)
    rw [test_of_hit hf hit, text_enter_of_ne hp, if_neg hb]
    exact ⟨rfl, hout.trans (faultOf_of_use_ne hb _)⟩
  · rw [test_of_not_hit hit]
    exact ⟨rfl, hf⟩

theorem run_keeps (topic : Text) {l : List Branch} (hl : ∀ b ∈ l, b.use ≠ .terminate) {h : Hearing}
    (hf : h.fault = none) :
    (run topic payload l h).text = h.text ∧ (run topic payload l h).fault = none := by
  induction l generalizing h with
  | nil => exact ⟨rfl, hf⟩
  | cons b l ih =>
    obtain ⟨ht, hf'⟩ := test_keeps hp topic hf (hl b List.mem_cons_self)
    obtain ⟨ht', hf''⟩ := ih (fun c hc => hl c (List.mem_cons_of_mem _ hc)) hf'
    rw [run_cons]
    exact ⟨ht'.trans ht, hf''⟩

/-- On a steady text, whether its test succeeds or not, a branch does the same. -/
theorem test_steady {h : Hearing} (hs : Steady topic payload h.text) (hf : h.fault = none)
    {b : Branch} (hb : b.use ≠ .terminate) :
    (test topic payload h b).outcome = h.outcome.after b (steadyData payload b) := by
  have ho : h.outcome.fault = none := hf
  rw [outcome_test hp topic hf]
  by_cases hu : b.use = .none
  · rw [after_of_use_none hu _ ho, after_of_use_none hu _ ho, ite_self]
  cases b with
  | fanSetState =>
    rw [if_pos hs.fan]
    exact after_of_on hs.on (Or.inl rfl) _
  | dripCtrl num =>
    rw [if_pos (hs.ctrl num)]
    exact after_of_on hs.on (Or.inr ⟨num, rfl⟩) _
  | fanSetTempOn =>
    have hnumber : h.outcome.after .fanSetTempOn h.text =
        h.outcome.after .fanSetTempOn payload := by
      simp only [Outcome.after, Branch.infoAfter, Branch.writes, Branch.faultOf, hs.number]
    split
    · exact hnumber
    · next hit => exact (after_fanSetTempOn_of_zero (hs.point.resolve_left hit) ho).symm
  | dripSetStartTime num => exact absurd rfl hb
  | dripSetDuration num => exact absurd rfl hb
  | dripSetDays num => exact absurd rfl hb
  | _ => exact absurd rfl hu

theorem run_steady {l : List Branch} (hl : ∀ b ∈ l, b.use ≠ .terminate) {h₁ h₂ : Hearing}
    (hs₁ : Steady topic payload h₁.text) (hs₂ : Steady topic payload h₂.text)
    (ho : h₁.outcome = h₂.outcome) (hf : h₁.fault = none) :
    (run topic payload l h₁).outcome = (run topic payload l h₂).outcome := by
  induction l generalizing h₁ h₂ with
  | nil => exact ho
  | cons b l ih =>
    have hfault : h₁.fault = h₂.fault := congrArg Outcome.fault ho
    have hb := hl b List.mem_cons_self
    obtain ⟨ht₁, hf₁⟩ := test_keeps hp topic hf hb
    obtain ⟨ht₂, -⟩ := test_keeps hp topic (hfault ▸ hf) hb
    rw [run_cons, run_cons]
    apply ih fun c hc => hl c (List.mem_cons_of_mem _ hc)
    · rw [ht₁]; exact hs₁
    · rw [ht₂]; exact hs₂
    · rw [test_steady hp hs₁ hf hb, test_steady hp hs₂ (hfault ▸ hf) hb, ho]
    · exact hf₁

end Steady

/-! ## The branches before the start times -/

theorem use_of_mem_unterminated : ∀ b ∈ Branch.unterminated, b.use ≠ .terminate := by decide

section Run

variable {topic payload : Text} (hp : payload ≠ [])

include hp

/-- A payload without a colon stops the handler at the first start time that is set, and nothing
has been changed by then. -/
theorem run_startTimes_of_no_colon (topic : Text) (nums : List (Fin 3))
    (hcolon : 58 ∉ cstr payload) {h : Hearing} (hf : h.fault = none)
    (hhit : ∃ num ∈ nums, Hit topic h.text (.dripSetStartTime num)) :
    (run topic payload (nums.map .dripSetStartTime) h).outcome =
      ⟨h.world.info, h.world.writes, some .nullRead⟩ := by
  induction nums with
  | nil => obtain ⟨num, hnum, -⟩ := hhit; cases hnum
  | cons num nums ih =>
    rw [List.map_cons, run_cons]
    by_cases hit : Hit topic h.text (.dripSetStartTime num)
    · have hnone : afterChr (cstr payload) 58 = none := by
        rw [← Option.not_isSome_iff_eq_none, afterChr_isSome]
        exact hcolon
      have hout : (h.enter payload (.dripSetStartTime num)).outcome =
          ⟨h.world.info, h.world.writes, some .nullRead⟩ := by
        rw [outcome_enter hp]
        simp [Outcome.after, data, outcome, Branch.use, Branch.infoAfter, Branch.writes,
          Branch.faultOf, hnone, hcolon]
      have hstop : (h.enter payload (.dripSetStartTime num)).fault = some .nullRead :=
        congrArg Outcome.fault hout
      rw [test_of_hit hf hit, run_of_fault (by rw [hstop]; rfl), hout]
    · have hrest := ((List.exists_mem_cons_iff _ _ _).1 hhit).resolve_left hit
      rw [test_of_not_hit hit]
      exact ih hrest

/-- What the bodies keep on every text, a run keeps. -/
theorem run_inv {Q : Outcome → Prop} {l : List Branch}
    (hstep : ∀ b ∈ l, ∀ (data : Text) (o : Outcome), Q o → Q (o.after b data)) {h : Hearing}
    (hQ : Q h.outcome) : Q (run topic payload l h).outcome := by
  induction l generalizing h with
  | nil => exact hQ
  | cons b l ih =>
    apply ih fun c hc => hstep c (List.mem_cons_of_mem _ hc)
    unfold test
    split
    · exact hQ
    · split
      · rw [outcome_enter hp]
        exact hstep b List.mem_cons_self _ _ hQ
      · exact hQ

theorem mem_writes_run {e : Event} {h : Hearing} (he : e ∈ h.outcome.writes) (l : List Branch) :
    e ∈ (run topic payload l h).outcome.writes :=
  run_inv (Q := fun o => e ∈ o.writes) hp (fun _ _ _ _ ho => List.mem_append_left _ ho) he

/-- A branch that is found makes its writes. -/
theorem mem_writes_of_hit {e : Event} {b : Branch} {h : Hearing} (hf : h.fault = none)
    (hit : Hit topic h.text b) (he : e ∈ b.writes (h.data payload b)) {l : List Branch}
    (hl : ∀ c ∈ l, c.use ≠ .terminate) (l' : List Branch) :
    e ∈ (run topic payload (l ++ b :: l') h).outcome.writes := by
  obtain ⟨ht, hf'⟩ := run_keeps hp topic hl hf
  have hdata : (run topic payload l h).data payload b = h.data payload b := data_congr ht b
  rw [run_append, run_cons, test_of_hit hf' (by rw [ht]; exact hit)]
  apply mem_writes_run hp
  rw [outcome_enter hp, hdata]
  exact List.mem_append_right _ he

end Run

/-! ## Runs on the payload alone -/

section Plain

variable {topic payload : Text} (hp : payload ≠ [])

include hp

theorem test_plain (topic : Text) {h : Hearing} (ht : h.text = cstr payload) (hf : h.fault = none)
    (b : Branch) :
    (test topic payload h b).text = cstr payload ∧
      (test topic payload h b).outcome =
        if Hit topic (cstr payload) b then h.outcome.after b (cstr payload) else h.outcome := by
  have htext : (test topic payload h b).text = cstr payload := by
    by_cases hit : Hit topic h.text b
    · rw [test_of_hit hf hit, text_enter_of_ne hp, ht, ite_self]
    · rw [test_of_not_hit hit, ht]
  have hafter : h.outcome.after b (h.data payload b) = h.outcome.after b (cstr payload) := by
    unfold data
    cases hu : b.use with
    | none => rw [after_of_use_none hu _ hf, after_of_use_none hu _ hf]
    | read => rw [ht]
    | terminate => rfl
  exact ⟨htext, by rw [outcome_test hp topic hf, hafter, ht]⟩

/-- What the bodies that are found keep, the run on the payload alone keeps. -/
theorem run_plain {Q : Outcome → Prop} {l : List Branch}
    (hstep : ∀ b ∈ l, Hit topic (cstr payload) b →
      ∀ o : Outcome, Q o → Q (o.after b (cstr payload)))
    {h : Hearing} (ht : h.text = cstr payload) (hQ : Q h.outcome) :
    Q (run topic payload l h).outcome := by
  induction l generalizing h with
  | nil => exact hQ
  | cons b l ih =>
    by_cases hf : h.fault = none
    · obtain ⟨ht', hout⟩ := test_plain hp topic ht hf b
      rw [run_cons]
      apply ih (fun c hc => hstep c (List.mem_cons_of_mem _ hc)) ht'
      rw [hout]
      split
      · next hit => exact hstep b List.mem_cons_self hit h.outcome hQ
      · exact hQ
    · rw [run_of_fault (by rwa [← Option.not_isSome_iff_eq_none, not_not] at hf)]
      exact hQ

end Plain

end Hearing

/-! ## When the residue makes no difference -/

open Hearing (Hit)

/-- The payload alone decides what the message does. -/
def PayloadDecides (topic payload : Text) : Prop :=
  0 ∈ payload ∨
    (Hit topic payload .fanSetState ∧ (∀ num, Hit topic payload (.dripCtrl num)) ∧
      ascii "ON" <:+: payload ∧
      (Hit topic payload .fanSetTempOn ∨ i8 (atoi payload) = 0) ∧
      (Hit topic payload (.dripSetStartTime 0) ∨
        (58 ∉ payload ∧
          (Hit topic payload (.dripSetStartTime 1) ∨ Hit topic payload (.dripSetStartTime 2)))))

theorem Hearing.Hit.append {topic text : Text} {b : Branch} (h : Hit topic text b) (z : Text) :
    Hit topic (text ++ z) b := by
  unfold Hit at h ⊢
  rw [← List.append_assoc]
  exact h.trans (List.prefix_append _ _).isInfix

/-- A number ends at the latest where the text says ON. -/
theorem atoi_append_of_on {p : Text} (h : ascii "ON" <:+: p) (z : Text) :
    atoi (p ++ z) = atoi p := by
  obtain ⟨s, t, rfl⟩ := h
  have hcut : ∀ q, atoi (s ++ 79 :: q) = atoi s := fun q =>
    atoi_append_of_stop s q (by decide) (by decide) (by decide) (by decide)
  have hsplit : ∀ q, s ++ ascii "ON" ++ q = s ++ 79 :: (78 :: q) := by
    intro q
    rw [List.append_assoc]
    rfl
  rw [List.append_assoc (s ++ ascii "ON"), hsplit, hsplit, hcut, hcut]

section Decides

variable {topic payload : Text}

theorem steady_append (hfan : Hit topic payload .fanSetState)
    (hctrl : ∀ num, Hit topic payload (.dripCtrl num)) (hon : ascii "ON" <:+: payload)
    (hpoint : Hit topic payload .fanSetTempOn ∨ i8 (atoi payload) = 0) (z : Text) :
    Hearing.Steady topic payload (payload ++ z) where
  fan := hfan.append z
  ctrl := fun num => (hctrl num).append z
  on := hon.trans (List.prefix_append _ _).isInfix
  number := atoi_append_of_on hon z
  point := hpoint.imp_left fun h => h.append z

def hearText (topic payload text : Text) (w : World) : Hearing :=
  Hearing.run topic payload Branch.all ⟨w, text, none, []⟩

theorem hearText_eq (topic payload text : Text) (w : World) :
    hearText topic payload text w =
      Hearing.run topic payload Branch.later
        (Hearing.run topic payload ([0, 1, 2].map .dripSetStartTime)
          (Hearing.run topic payload Branch.unterminated ⟨w, text, none, []⟩)) := by
  unfold hearText Branch.all
  rw [Hearing.run_append, Hearing.run_append]
  rfl

/-- The payload sets a start time that ends the reads or the handler. -/
def SetsStart (topic payload : Text) : Prop :=
  Hit topic payload (.dripSetStartTime 0) ∨
    (58 ∉ payload ∧
      (Hit topic payload (.dripSetStartTime 1) ∨ Hit topic payload (.dripSetStartTime 2)))

/-- From the start times on, such a payload makes up for what follows it. -/
theorem outcome_startTimes_congr (hp : payload ≠ []) (hzero : 0 ∉ payload)
    (hset : SetsStart topic payload) {g₁ g₂ : Hearing} {z₁ z₂ : Text}
    (hsame : g₁.outcome = g₂.outcome) (hf : g₁.fault = none) (ht₁ : g₁.text = payload ++ z₁)
    (ht₂ : g₂.text = payload ++ z₂) (l : List Branch) :
    (Hearing.run topic payload l
        (Hearing.run topic payload ([0, 1, 2].map .dripSetStartTime) g₁)).outcome =
      (Hearing.run topic payload l
        (Hearing.run topic payload ([0, 1, 2].map .dripSetStartTime) g₂)).outcome := by
  have hf₂ : g₂.fault = none := (congrArg Outcome.fault hsame).symm.trans hf
  rcases hset with hfirst | ⟨hcolon, hother⟩
  · -- the first start time terminates the payload, and then the texts are one
    rw [List.map_cons, Hearing.run_cons, Hearing.run_cons,
      Hearing.test_of_hit hf (by rw [ht₁]; exact hfirst.append z₁),
      Hearing.test_of_hit hf₂ (by rw [ht₂]; exact hfirst.append z₂), ← Hearing.run_append,
      ← Hearing.run_append]
    apply Hearing.outcome_run_congr hp
    · rw [Hearing.outcome_enter hp, Hearing.outcome_enter hp, hsame]
      rfl
    · rw [Hearing.text_enter_of_ne hp, Hearing.text_enter_of_ne hp]
      rfl
  · -- the handler stops at a start time, if not at the same one
    have hcstr : 58 ∉ cstr payload := by rwa [cstr_eq_self hzero]
    have hinfo : g₁.world.info = g₂.world.info := congrArg Outcome.info hsame
    have hwrites : g₁.world.writes = g₂.world.writes := congrArg Outcome.writes hsame
    have hhit : ∀ z, ∃ num ∈ ([0, 1, 2] : List (Fin 3)),
        Hit topic (payload ++ z) (.dripSetStartTime num) := by
      intro z
      rcases hother with h | h
      · exact ⟨1, by decide, h.append z⟩
      · exact ⟨2, by decide, h.append z⟩
    have ho₁ := Hearing.run_startTimes_of_no_colon hp topic [0, 1, 2] hcstr hf
      (by rw [ht₁]; exact hhit z₁)
    have ho₂ := Hearing.run_startTimes_of_no_colon hp topic [0, 1, 2] hcstr hf₂
      (by rw [ht₂]; exact hhit z₂)
    rw [Hearing.outcome_run_of_fault ho₁, Hearing.outcome_run_of_fault ho₂, hinfo, hwrites]

/-- Continuations of a deciding payload have one outcome. -/
theorem outcome_hearText_append (hp : payload ≠ []) (hd : PayloadDecides topic payload)
    (hzero : 0 ∉ payload) (w : World) (z₁ z₂ : Text) :
    (hearText topic payload (payload ++ z₁) w).outcome =
      (hearText topic payload (payload ++ z₂) w).outcome := by
  obtain ⟨hfan, hctrl, hon, hpoint, hset⟩ := hd.resolve_left hzero
  have hs := steady_append hfan hctrl hon hpoint
  have hkeep := fun z => Hearing.run_keeps hp topic Hearing.use_of_mem_unterminated
    (h := ⟨w, payload ++ z, none, []⟩) rfl
  have hsame :
      (Hearing.run topic payload Branch.unterminated ⟨w, payload ++ z₁, none, []⟩).outcome =
        (Hearing.run topic payload Branch.unterminated ⟨w, payload ++ z₂, none, []⟩).outcome :=
    Hearing.run_steady hp Hearing.use_of_mem_unterminated (hs z₁) (hs z₂) rfl rfl
  rw [hearText_eq, hearText_eq]
  exact outcome_startTimes_congr hp hzero hset hsame (hkeep z₁).2 (hkeep z₁).1 (hkeep z₂).1 _

end Decides

/-! ## What a residue can do -/

/-- The write that shows that a command was read as ON. -/
def onSignal : Branch → Event
  | .dripCtrl num => .gpio (dripCloseCtrlPin num) true
  | _ => .gpio (fanCtrlPin 0) true

theorem fan_onSignal_iff {c : Branch} {data : Text} :
    onSignal .fanSetState ∈ c.writes data ↔ c = .fanSetState ∧ ascii "ON" <:+: data := by
  have hpins : ∀ num : Fin 3, fanCtrlPin 0 ≠ dripOpenCtrlPin num ∧
      fanCtrlPin 0 ≠ dripCloseCtrlPin num ∧ fanCtrlPin 0 ≠ solLedPin num := by decide
  cases c with
  | fanSetState =>
    rw [← strstr_iff]
    simp only [Branch.writes, Branch.fanCommand, onSignal]
    cases strstr data (ascii "ON") <;> cases strstr data (ascii "OFF") <;> decide
  | dripCtrl num =>
    have := hpins num
    cases hon : strstr data (ascii "ON") <;> simp [Branch.writes, onSignal, hon, this]
  | dripSetStartTime num => cases h : afterChr data 58 <;> simp [Branch.writes, onSignal, h]
  | _ => simp [Branch.writes, onSignal]

theorem drip_onSignal_iff {num : Fin 3} {c : Branch} {data : Text} :
    onSignal (.dripCtrl num) ∈ c.writes data ↔ c = .dripCtrl num ∧ ascii "ON" <:+: data := by
  have hpins : ∀ m n : Fin 3, dripCloseCtrlPin m ≠ dripOpenCtrlPin n ∧
      dripCloseCtrlPin m ≠ solLedPin n ∧ (dripCloseCtrlPin m = dripCloseCtrlPin n ↔ n = m) := by
    decide
  have hfan : ∀ (m : Fin 3) (k : Fin 2), dripCloseCtrlPin m ≠ fanCtrlPin k ∧
      dripCloseCtrlPin m ≠ fanLedPin k := by decide
  cases c with
  | fanSetState =>
    have h0 := hfan num 0
    have h1 := hfan num 1
    cases h : Branch.fanCommand data <;> simp [Branch.writes, onSignal, h, h0, h1]
  | dripCtrl n =>
    obtain ⟨hopen, hled, hclose⟩ := hpins num n
    rw [← strstr_iff]
    cases hon : strstr data (ascii "ON") <;>
      simp [Branch.writes, onSignal, hon, hopen, hled, hclose]
  | dripSetStartTime n => cases h : afterChr data 58 <;> simp [Branch.writes, onSignal, h]
  | _ => simp [Branch.writes, onSignal]

theorem nvs_start_mem {num : Fin 3} {v : Int} {c : Branch} {data : Text}
    (h : Event.nvs (dripStartKey num) v ∈ c.writes data) : c = .dripSetStartTime num := by
  have hkeys : ∀ m n : Fin 3, dripStartKey m ≠ dripDurKey n ∧ dripStartKey m ≠ dripDaysKey n ∧
      (dripStartKey m = dripStartKey n → n = m) := by decide +kernel
  cases c with
  | fanSetState => cases hc : Branch.fanCommand data <;> simp [Branch.writes, hc] at h
  | dripSetStartTime n =>
    cases hc : afterChr data 58 with
    | none => simp [Branch.writes, hc] at h
    | some minutes =>
      simp only [Branch.writes, hc, Option.elim_some, List.mem_singleton, Event.nvs.injEq] at h
      rw [(hkeys num n).2.2 h.1]
  | dripSetDuration n =>
    simp only [Branch.writes, List.mem_singleton, Event.nvs.injEq] at h
    exact absurd h.1 (hkeys num n).1
  | dripSetDays n =>
    simp only [Branch.writes, List.mem_singleton, Event.nvs.injEq] at h
    exact absurd h.1 (hkeys num n).2.1
  | _ => simp [Branch.writes] at h

theorem fanTempOn_infoAfter {b : Branch} (hb : b ≠ .fanSetTempOn) (data : Text)
    (i : GreenHouseInfo) : (b.infoAfter data i).fanTempOn = i.fanTempOn := by
  cases b with
  | fanSetTempOn => exact absurd rfl hb
  | fanSetState => cases h : Branch.fanCommand data <;> simp [Branch.infoAfter, h]
  | dripSetStartTime num =>
    cases h : afterChr data 58 <;> simp [Branch.infoAfter, h, Branch.changeDrip]
  | _ => rfl

theorem zero_notMem_topic (b : Branch) : 0 ∉ b.topic := by
  have h : ∀ b ∈ Branch.all, 0 ∉ b.topic := by decide +kernel
  exact h b (mem_all b)

theorem nvs_notMem_writes {b : Branch} (hb : b.use ≠ .terminate) (e : Event) (data : Text)
    (he : ∃ key v, e = .nvs key v) : e ∉ b.writes data := by
  obtain ⟨key, v, rfl⟩ := he
  cases b with
  | fanSetState => cases hc : Branch.fanCommand data <;> simp [Branch.writes, hc]
  | dripSetStartTime | dripSetDuration | dripSetDays => exact absurd rfl hb
  | _ => simp [Branch.writes]

/-- A constant behind a text makes no other test succeed. -/
theorem Hearing.Hit.of_append_topic {topic text : Text} {b c : Branch} (hc : c.topic ∈ subscribed)
    (hne : ¬ c.topic <:+: b.topic) (h : Hit topic (text ++ b.topic) c) : Hit topic text c := by
  unfold Hit at h ⊢
  rw [← List.append_assoc, List.infix_append_iff_ne_nil] at h
  rcases h with h | h | ⟨u, v, hu, hv, hsplit, -, hpre⟩
  · exact h
  · exact absurd h hne
  · have hall : v = c.topic := eq_of_suffix hc ⟨u, hsplit.symm⟩ hv (Or.inl hpre)
    rw [hall] at hsplit
    exact absurd (List.append_left_eq_self.1 hsplit.symm) hu

/-- A message that sets no start time sets a duration where the residue names it. -/
theorem duration_mem_of_miss {topic payload : Text} (hp : payload ≠ []) {w : World}
    (hmiss : ∀ num, ¬ Hit topic payload (.dripSetStartTime num)) :
    Event.nvs (dripDurKey 0) (atoi (cstr payload)) ∈
      (hearText topic payload (payload ++ (Branch.dripSetDuration 0).topic) w).outcome.writes := by
  have hfree : ∀ num, (Branch.dripSetStartTime num).topic ∈ subscribed ∧
      ¬ (Branch.dripSetStartTime num).topic <:+: (Branch.dripSetDuration 0).topic := by
    decide +kernel
  have hnamed : Hit topic (payload ++ (Branch.dripSetDuration 0).topic) (.dripSetDuration 0) :=
    ⟨topic ++ payload, [], by simp⟩
  obtain ⟨ht, hf⟩ := Hearing.run_keeps hp topic Hearing.use_of_mem_unterminated
    (h := ⟨w, payload ++ (Branch.dripSetDuration 0).topic, none, []⟩) rfl
  rw [hearText_eq, Hearing.run_of_not_hit (l := [0, 1, 2].map .dripSetStartTime)]
  · apply Hearing.mem_writes_of_hit (b := .dripSetDuration 0) hp hf
      (l := [.dripRequestDuration 0, .dripRequestDuration 1, .dripRequestDuration 2])
    · rw [ht]
      exact hnamed
    · exact List.mem_singleton_self _
    · decide
  · intro b hb
    obtain ⟨num, -, rfl⟩ := List.mem_map.1 hb
    rw [ht]
    exact fun hit => hmiss num (hit.of_append_topic (hfree num).1 (hfree num).2)

/-- Without a residue nothing is written that no branch the payload names writes. -/
theorem notMem_writes_hearText {topic payload : Text} (hp : payload ≠ []) (hzero : 0 ∉ payload)
    {e : Event} {w : World} (hw : e ∉ w.writes)
    (hnot : ∀ c, Hit topic payload c → e ∉ c.writes payload) :
    e ∉ (hearText topic payload payload w).outcome.writes := by
  have hcstr : cstr payload = payload := cstr_eq_self hzero
  refine Hearing.run_plain (Q := fun o => e ∉ o.writes) hp ?_ hcstr.symm hw
  intro c _ hit o ho hin
  rw [hcstr] at hit hin
  rcases List.mem_append.1 hin with h | h
  · exact ho h
  · exact hnot c hit h

/-- Branches other than its own leave the set point alone. -/
theorem fanTempOn_run {topic payload : Text} (hp : payload ≠ []) {l : List Branch}
    (hl : Branch.fanSetTempOn ∉ l) (h : Hearing) :
    (Hearing.run topic payload l h).outcome.info.fanTempOn = h.outcome.info.fanTempOn := by
  refine Hearing.run_inv (Q := fun o => o.info.fanTempOn = h.outcome.info.fanTempOn) hp ?_ rfl
  intro b hb data o ho
  have hne : b ≠ .fanSetTempOn := by
    rintro rfl
    exact hl hb
  exact (fanTempOn_infoAfter hne data o.info).trans ho

section Needs

variable {topic payload : Text} (hp : payload ≠ []) (hzero : 0 ∉ payload)
  (hall : ∀ w z, 0 ∉ z → (hearText topic payload (payload ++ z) w).outcome.effect =
    (hearText topic payload payload w).outcome.effect)

include hall

theorem writes_of_same (w : World) {z : Text} (hz : 0 ∉ z) :
    (hearText topic payload (payload ++ z) w).outcome.writes =
      (hearText topic payload payload w).outcome.writes := by
  simpa only [Outcome.effect_writes] using congrArg Effect.writes (hall w z hz)

theorem info_of_same (w : World) {z : Text} (hz : 0 ∉ z) :
    (hearText topic payload (payload ++ z) w).outcome.info =
      (hearText topic payload payload w).outcome.info := by
  simpa only [Outcome.effect_info] using congrArg Effect.info (hall w z hz)

include hp hzero

/-- The residue can name a command and say ON, so the payload has to. -/
theorem on_of_same {b : Branch} (hb : b ∈ Branch.unterminated) (hread : b.use = .read)
    (hsig : ∀ c data, onSignal b ∈ c.writes data ↔ c = b ∧ ascii "ON" <:+: data) :
    Hit topic payload b ∧ ascii "ON" <:+: payload := by
  by_contra hnot
  let w := cleared fun _ => none
  have hz : 0 ∉ b.topic ++ ascii "ON" := by
    rw [List.mem_append, not_or]
    exact ⟨zero_notMem_topic b, by decide⟩
  have hnamed : Hit topic (payload ++ (b.topic ++ ascii "ON")) b :=
    ⟨topic ++ payload, ascii "ON", by simp⟩
  obtain ⟨l, l', hsplit⟩ := List.append_of_mem hb
  -- with the residue the command is read as ON
  have hmem : onSignal b ∈
      (hearText topic payload (payload ++ (b.topic ++ ascii "ON")) w).outcome.writes := by
    unfold hearText Branch.all
    rw [hsplit, List.append_assoc, List.append_assoc, List.cons_append]
    apply Hearing.mem_writes_of_hit hp rfl hnamed
    · have hdata : Hearing.data payload b ⟨w, payload ++ (b.topic ++ ascii "ON"), none, []⟩ =
          payload ++ (b.topic ++ ascii "ON") := by
        unfold Hearing.data
        rw [hread]
      rw [hdata, hsig]
      exact ⟨rfl, payload ++ b.topic, [], by simp⟩
    · intro c hc
      apply Hearing.use_of_mem_unterminated
      rw [hsplit]
      exact List.mem_append_left _ hc
  rw [writes_of_same hall w hz] at hmem
  -- without it, it is not
  refine absurd hmem (notMem_writes_hearText hp hzero (by simp [w, cleared, World.writes]) ?_)
  intro c hit h
  obtain ⟨rfl, hon⟩ := (hsig c _).1 h
  exact hnot ⟨hit, hon⟩

/-- The residue can name the set point, so the payload has to, or hold no number for it. -/
theorem point_of_same (hon : ascii "ON" <:+: payload) :
    Hit topic payload .fanSetTempOn ∨ i8 (atoi payload) = 0 := by
  by_contra hnot
  obtain ⟨hmiss, hnum⟩ := not_or.1 hnot
  let w := cleared fun _ => none
  let z := Branch.fanSetTempOn.topic
  have hnamed : Hit topic (payload ++ z) .fanSetTempOn := ⟨topic ++ payload, [], by simp [z]⟩
  -- the branch stands behind branches that keep the text, before others that keep the set point
  obtain ⟨l, l', hsplit, huse, hl'⟩ : ∃ l l', Branch.all = l ++ .fanSetTempOn :: l' ∧
      (∀ c ∈ l, c.use ≠ .terminate) ∧ Branch.fanSetTempOn ∉ l' :=
    ⟨Branch.all.take 6, Branch.all.drop 7, by decide, by decide, by decide⟩
  have hwith : (hearText topic payload (payload ++ z) w).outcome.info.fanTempOn =
      i8 (atoi payload) := by
    obtain ⟨ht, hf⟩ := Hearing.run_keeps hp topic huse
      (h := ⟨w, payload ++ z, none, []⟩) rfl
    unfold hearText
    rw [hsplit, Hearing.run_append, Hearing.run_cons,
      Hearing.test_of_hit hf (by rw [ht]; exact hnamed)]
    rw [fanTempOn_run hp hl', Hearing.outcome_enter hp]
    show (Branch.infoAfter .fanSetTempOn (Hearing.text _) _).fanTempOn = _
    rw [ht]
    simp [Branch.infoAfter, atoi_append_of_on hon, hnum]
  have hz : 0 ∉ z := zero_notMem_topic .fanSetTempOn
  rw [info_of_same hall w hz] at hwith
  have hcstr : cstr payload = payload := cstr_eq_self hzero
  have hwithout : (hearText topic payload payload w).outcome.info.fanTempOn = 0 := by
    unfold hearText
    refine Hearing.run_plain (Q := fun o => o.info.fanTempOn = 0) hp ?_ hcstr.symm rfl
    intro c _ hit o ho
    rw [hcstr] at hit
    have hc : c ≠ .fanSetTempOn := by
      rintro rfl
      exact hmiss hit
    exact (fanTempOn_infoAfter hc _ _).trans ho
  rw [hwithout] at hwith
  exact hnum hwith.symm

/-- With a colon the residue can set the start time of the first drip, so the payload has to. -/
theorem start_of_same (hcolon : 58 ∈ payload) : Hit topic payload (.dripSetStartTime 0) := by
  by_contra hmiss
  let w := cleared fun _ => none
  have hcstr : cstr payload = payload := cstr_eq_self hzero
  have hnamed : Hit topic (payload ++ (Branch.dripSetStartTime 0).topic) (.dripSetStartTime 0) :=
    ⟨topic ++ payload, [], by simp⟩
  obtain ⟨minutes, hminutes⟩ := Option.isSome_iff_exists.1 (afterChr_isSome.2 hcolon)
  have hmem : Event.nvs (dripStartKey 0) (startTimeOf payload minutes) ∈
      (hearText topic payload (payload ++ (Branch.dripSetStartTime 0).topic) w).outcome.writes := by
    unfold hearText Branch.all
    rw [List.append_assoc, List.cons_append]
    apply Hearing.mem_writes_of_hit hp rfl hnamed
    · show _ ∈ Branch.writes _ (cstr payload)
      simp [hcstr, Branch.writes, hminutes]
    · exact Hearing.use_of_mem_unterminated
  rw [writes_of_same hall w (zero_notMem_topic (.dripSetStartTime 0))] at hmem
  refine absurd hmem (notMem_writes_hearText hp hzero (by simp [w, cleared, World.writes]) ?_)
  intro c hit h
  rw [nvs_start_mem h] at hit
  exact hmiss hit

/-- Without a colon one residue can set a duration, and another stop the handler before that. -/
theorem stop_of_same (hcolon : 58 ∉ payload) :
    ∃ num, Hit topic payload (.dripSetStartTime num) := by
  by_contra hnot
  let w := cleared fun _ => none
  have hnamed : Hit topic (payload ++ (Branch.dripSetStartTime 0).topic) (.dripSetStartTime 0) :=
    ⟨topic ++ payload, [], by simp⟩
  have hmem := duration_mem_of_miss (w := w) hp (not_exists.1 hnot)
  rw [writes_of_same hall w (zero_notMem_topic (.dripSetDuration 0)),
    ← writes_of_same hall w (zero_notMem_topic (.dripSetStartTime 0))] at hmem
  obtain ⟨ht, hf⟩ := Hearing.run_keeps hp topic Hearing.use_of_mem_unterminated
    (h := ⟨w, payload ++ (Branch.dripSetStartTime 0).topic, none, []⟩) rfl
  have hout := Hearing.run_startTimes_of_no_colon hp topic [0, 1, 2]
    (by rwa [cstr_eq_self hzero]) hf ⟨0, by decide, by rw [ht]; exact hnamed⟩
  rw [hearText_eq, Hearing.outcome_run_of_fault hout] at hmem
  refine absurd hmem (Hearing.run_inv
    (Q := fun o => Event.nvs (dripDurKey 0) (atoi (cstr payload)) ∉ o.writes) hp ?_
    (by simp [Hearing.outcome, w, cleared, World.writes]))
  intro b hb data o ho hin
  rcases List.mem_append.1 hin with h | h
  · exact ho h
  · exact nvs_notMem_writes (Hearing.use_of_mem_unterminated b hb) _ _ ⟨_, _, rfl⟩ h

theorem set_of_same : SetsStart topic payload := by
  by_cases hcolon : 58 ∈ payload
  · exact Or.inl (start_of_same hp hzero hall hcolon)
  · obtain ⟨num, hnum⟩ := stop_of_same hp hzero hall hcolon
    fin_cases num
    · exact Or.inl hnum
    · exact Or.inr ⟨hcolon, Or.inl hnum⟩
    · exact Or.inr ⟨hcolon, Or.inr hnum⟩

end Needs

/-! ## The result -/

def commandTopics : List Text :=
  [fanSetStateSubTopic, fanSetTempOnSubTopic] ++ [0, 1, 2].flatMap fun num =>
    [dripCtrlTopic num, dripSetStartTimeTopic num, dripSetDurationTopic num, dripSetDaysTopic num]

theorem subscribed_of_command : ∀ t ∈ commandTopics, t ∈ subscribed := by decide +kernel

theorem effect_handle {m : Publish} (htopic : 0 ∉ m.topic) (w : World) :
    (m.handle w).effect = (hearText m.topic m.payload m.rest w).outcome.effect := by
  have hhear : m.hear w = hearText m.topic m.payload m.rest w := rfl
  unfold Handling.effect Outcome.effect Hearing.outcome
  rw [(handle_reads htopic w).world, hhear]

/-- **What a command depends on.** For a command with a payload, the effect is the same for any two
contents of the buffer behind the payload exactly when the payload decides. -/
theorem handle_effect_iff {topic payload : Text} (ht : topic ∈ commandTopics) (hp : payload ≠ [])
    (header : Text) :
    (∀ w r₁ r₂, (Publish.handle ⟨header, topic, payload, r₁⟩ w).effect =
      (Publish.handle ⟨header, topic, payload, r₂⟩ w).effect) ↔ PayloadDecides topic payload := by
  have htopic : 0 ∉ topic := zero_notMem_of_subscribed _ (subscribed_of_command _ ht)
  have hhandle : ∀ w r, (Publish.handle ⟨header, topic, payload, r⟩ w).effect =
      (hearText topic payload (cstr (payload ++ r)) w).outcome.effect := fun w r =>
    effect_handle (m := ⟨header, topic, payload, r⟩) htopic w
  simp only [hhandle]
  by_cases hzero : 0 ∈ payload
  · simp [PayloadDecides, hzero, cstr_append_of_mem hzero]
  · simp only [cstr_append hzero]
    constructor
    · intro hsame
      have hall : ∀ w z, 0 ∉ z → (hearText topic payload (payload ++ z) w).outcome.effect =
          (hearText topic payload payload w).outcome.effect := by
        intro w z hz
        have h := hsame w z []
        rwa [cstr_eq_self hz, cstr_eq_self (by simp), List.append_nil] at h
      have hctrl : ∀ num : Fin 3, Branch.dripCtrl num ∈ Branch.unterminated := by decide
      obtain ⟨hfan, hon⟩ := on_of_same hp hzero hall (b := .fanSetState) (by decide) rfl
        fun _ _ => fan_onSignal_iff
      have hdrip : ∀ num, Hit topic payload (.dripCtrl num) := fun num =>
        (on_of_same hp hzero hall (hctrl num) rfl fun _ _ => drip_onSignal_iff).1
      exact Or.inr ⟨hfan, hdrip, hon, point_of_same hp hzero hall hon, set_of_same hp hzero hall⟩
    · intro hd w r₁ r₂
      rw [outcome_hearText_append hp hd hzero w]

theorem handle_effect_terminated :
    (Publish.handle ⟨[0x30, 32, 0, 26], dripCtrlTopic 0, ascii "OFF" ++ [0], ascii "ON"⟩
        (cleared fun _ => none)).effect =
      (Publish.handle ⟨[0x30, 32, 0, 26], dripCtrlTopic 0, ascii "OFF" ++ [0], []⟩
        (cleared fun _ => none)).effect :=
  (handle_effect_iff (by decide +kernel) (by decide) _).2 (Or.inl (by decide)) _ _ _

/-- OFF in front of a left-over ON opens the valve. -/
theorem handle_effect_leftover :
    (Publish.handle ⟨[0x30, 31, 0, 26], dripCtrlTopic 0, ascii "OFF", ascii "ON"⟩
        (cleared fun _ => none)).effect ≠
      (Publish.handle ⟨[0x30, 31, 0, 26], dripCtrlTopic 0, ascii "OFF", []⟩
        (cleared fun _ => none)).effect := by
  intro h
  have hwrites := congrArg Effect.writes h
  exact absurd hwrites (by decide +kernel)

end GreenHouse
