import GreenHouse.Drip.Window

/-!
# Editing a schedule

Between two iterations the MQTT task may store a new start time or duration. An open drip is closed
by the off time of the settings in force, which need not be those it was opened under. An edit is
harmless if the current minute has reached the new start, or if the new window crosses midnight and
midnight has passed since the drip opened (`EditSafe`); otherwise the drip is outside of its new
window, or will be, with nothing to close it.

`edited_in_window`: along every run whose edits are harmless, an open drip is inside of the window
in force after every iteration. `edited_outside`: an edit that moves the start ahead of the clock
leaves the valve open.
-/

namespace GreenHouse

/-- A SET command for the schedule of a drip, with the value it stores. -/
inductive Edit where
  | startTime (v : Int)
  | duration (v : Int)
  deriving DecidableEq

namespace Edit

def apply (k : Fin 3) : Edit → World → World
  | startTime v, w => storeStartTime k v w
  | duration v, w => storeDuration k v w

def InRange : Edit → Prop
  | startTime v => 0 ≤ v ∧ v < 1440
  | duration v => 0 < v ∧ v < 1440

instance : ∀ e : Edit, Decidable e.InRange
  | startTime v => inferInstanceAs (Decidable (0 ≤ v ∧ v < 1440))
  | duration v => inferInstanceAs (Decidable (0 < v ∧ v < 1440))

end Edit

def applyEdits (k : Fin 3) (es : List Edit) (w : World) : World :=
  es.foldl (fun w e => e.apply k w) w

structure EditOut where
  on : Bool
  minute : Int
  startTime : Int
  duration : Int
  deriving DecidableEq

def EditOut.InWindow (o : EditOut) : Prop :=
  o.on = true → (o.minute - o.startTime) % 1440 < o.duration

instance (o : EditOut) : Decidable o.InWindow := inferInstanceAs (Decidable (_ → _))

/-- The scheduler with edits of drip `k` before each sample. -/
def edited (k : Fin 3) : Mealy World (List Edit × Sample) EditOut where
  step w i :=
    let w₁ := ((scheduler k).step (applyEdits k i.1 w) i.2).1
    (w₁, ⟨w₁.dripStatus k, i.2.minute, (w₁.info.dripInfo k).startTime,
      (w₁.info.dripInfo k).duration⟩)

/-- Edits that find the drip open leave it at or behind its new start, or give it a window over
midnight with midnight behind. -/
def EditSafe (k : Fin 3) (w : World) (i : List Edit × Sample) : Prop :=
  let w₀ := (applyEdits k i.1 w).atSample i.2
  i.1 ≠ [] → w₀.dripStatus k = true →
    (w₀.info.dripInfo k).startTime ≤ i.2.minute ∨
      (offTimeInMin (w₀.info.dripInfo k) < (w₀.info.dripInfo k).startTime ∧ w₀.rolled = true)

instance (k : Fin 3) (w : World) (i : List Edit × Sample) : Decidable (EditSafe k w i) :=
  inferInstanceAs (Decidable (_ → _ → _))

/-! ## The abstract drip under edits -/

section Solo

variable {d : DripInfo} {s : Solo} {c : Sample}

/-- Where an open drip is after an iteration: inside of its window, and if that crosses midnight,
with the flag down before midnight and up behind it. -/
def Held (d : DripInfo) (s : Solo) : Prop :=
  s.on = true →
    if d.startTime + d.duration < 1440 then
      d.startTime ≤ s.prev ∧ s.prev < d.startTime + d.duration
    else
      (d.startTime ≤ s.prev ∧ s.roll = false) ∨
        (s.prev < d.startTime + d.duration - 1440 ∧ s.roll = true)

/-- What makes the next step safe: the minute is at or behind the start, or the window crosses
midnight, which is behind. -/
def StepSafe (d : DripInfo) (s : Solo) (c : Sample) : Prop :=
  s.on = true → d.startTime ≤ c.minute ∨ (1440 ≤ d.startTime + d.duration ∧ s.rolled c = true)

theorem Held.stepSafe (hd : d.InRange) (h : Held d s) (hp : 0 ≤ s.prev ∧ s.prev < 1440)
    (hc : s.on = true → c.minute = s.prev ∨ c.minute = (s.prev + 1) % 1440) : StepSafe d s c := by
  intro hon
  have hheld := h hon
  have hrolled : s.rolled c = true ↔ s.roll = true ∨ c.minute < s.prev := by
    simp [Solo.rolled]
  rw [hrolled]
  obtain ⟨hstart, hdur⟩ := hd
  split at hheld
  · have := hc hon
    omega
  · rcases hheld with ⟨hlo, -⟩ | ⟨-, hroll⟩
    · have := hc hon
      by_cases hmid : c.minute < s.prev
      · exact Or.inr ⟨by omega, Or.inr hmid⟩
      · exact Or.inl (by omega)
    · exact Or.inr ⟨by omega, Or.inl hroll⟩

theorem held_of_open (hd : d.InRange) (hs : s.on = false) :
    Held d (s.next d c) := by
  have hact : s.action d c = if OpenTest d c.minute c.day then .open else .stay := by
    unfold Solo.action
    rw [hs, dripAction_off]
  intro hon
  by_cases h : OpenTest d c.minute c.day
  · rw [if_pos h] at hact
    obtain ⟨h1, h2, -⟩ := (hd.openTest _ _).1 h
    split
    · exact ⟨h1, h2⟩
    · exact Or.inl ⟨h1, by simp [Solo.next, hact, DripAction.roll]⟩
  · rw [if_neg h] at hact
    simp [Solo.next, hact, DripAction.status, hs] at hon

/-- **A safe step holds the drip.** -/
theorem StepSafe.held (hd : d.InRange) (h : StepSafe d s c) : Held d (s.next d c) := by
  cases hs : s.on with
  | false => exact held_of_open hd hs
  | true =>
    intro hon
    have hsafe := h hs
    have hact : s.action d c ≠ .close := by
      intro hcl
      simp [Solo.next, hcl, DripAction.status] at hon
    have hroll : (s.next d c).roll = s.rolled c := by
      have hopen : s.action d c ≠ .open := by
        unfold Solo.action
        rw [hs]
        exact dripAction_on_ne_open _ _ _ _
      cases ha : s.action d c with
      | stay => simp [Solo.next, ha, DripAction.roll]
      | «open» => exact absurd ha hopen
      | close => exact absurd ha hact
    show if _ then _ ≤ c.minute ∧ c.minute < _ else (_ ≤ c.minute ∧ _) ∨ (c.minute < _ ∧ _)
    rw [hroll]
    by_cases hx : d.startTime + d.duration < 1440
    · rw [if_pos hx]
      have hcross := hd.crosses.not.2 (by omega)
      have hofftime := hd.offTime
      rw [if_pos hx] at hofftime
      unfold Solo.action dripAction at hact
      rw [hs, if_neg (by decide), if_neg hcross, hofftime] at hact
      split at hact
      · exact absurd rfl hact
      · next hlt =>
        rcases hsafe with hlo | ⟨hge, -⟩ <;> omega
    · rw [if_neg hx]
      rw [action_on_night hd hs (by omega)] at hact
      split at hact
      · exact absurd rfl hact
      · next hnot =>
        cases hr : s.rolled c with
        | false =>
          rcases hsafe with hlo | ⟨-, hrolled⟩
          · exact Or.inl ⟨hlo, rfl⟩
          · rw [hr] at hrolled
            cases hrolled
        | true => exact Or.inr ⟨by rw [hr] at hnot; simp at hnot; omega, rfl⟩

theorem Held.inWindow (hd : d.InRange) (h : Held d s) (hp : 0 ≤ s.prev ∧ s.prev < 1440) :
    s.on = true → (s.prev - d.startTime) % 1440 < d.duration := by
  intro hon
  have hheld := h hon
  obtain ⟨hstart, hdur⟩ := hd
  split at hheld
  · omega
  · rcases hheld with ⟨hlo, -⟩ | ⟨hhi, -⟩ <;> omega

end Solo

/-! ## Edits in the world -/

def World.solo (k : Fin 3) (w : World) : Solo := ⟨w.dripStatus k, w.prevTimeInMin, w.timeRollOver⟩

/-- An edit touches nothing the scheduler keeps, disables and enables no drip, and keeps the
settings in range. -/
structure EditFrame (k : Fin 3) (w w' : World) : Prop where
  solo : w'.solo k = w.solo k
  timeIsValid : w'.info.timeIsValid = w.info.timeIsValid
  others : ∀ j, j ≠ k → w'.info.dripInfo j = w.info.dripInfo j

theorem EditFrame.apply (k : Fin 3) (e : Edit) (w : World) : EditFrame k w (e.apply k w) := by
  cases e with
  | startTime v =>
    refine ⟨rfl, rfl, fun j hj => ?_⟩
    exact Function.update_of_ne hj _ _
  | duration v =>
    refine ⟨rfl, rfl, fun j hj => ?_⟩
    exact Function.update_of_ne hj _ _

theorem Edit.InRange.apply {k : Fin 3} {e : Edit} (he : e.InRange) {w : World}
    (h : (w.info.dripInfo k).InRange) : ((e.apply k w).info.dripInfo k).InRange := by
  cases e with
  | startTime v =>
    have hself : (Edit.apply k (.startTime v) w).info.dripInfo k =
        { w.info.dripInfo k with startTime := v } := Function.update_self _ _ _
    rw [hself]
    exact ⟨he, h.2⟩
  | duration v =>
    have hself : (Edit.apply k (.duration v) w).info.dripInfo k =
        { w.info.dripInfo k with duration := v } := Function.update_self _ _ _
    rw [hself]
    exact ⟨h.1, he⟩

theorem applyEdits_frame (k : Fin 3) (es : List Edit) (w : World) :
    EditFrame k w (applyEdits k es w) := by
  unfold applyEdits
  induction es generalizing w with
  | nil => exact ⟨rfl, rfl, fun _ _ => rfl⟩
  | cons e es ih =>
    have h1 := EditFrame.apply k e w
    have h2 := ih (e.apply k w)
    exact ⟨h2.solo.trans h1.solo, h2.timeIsValid.trans h1.timeIsValid,
      fun j hj => (h2.others j hj).trans (h1.others j hj)⟩

theorem applyEdits_inRange {k : Fin 3} {es : List Edit} (hes : ∀ e ∈ es, e.InRange) {w : World}
    (h : (w.info.dripInfo k).InRange) : ((applyEdits k es w).info.dripInfo k).InRange := by
  unfold applyEdits
  induction es generalizing w with
  | nil => exact h
  | cons e es ih =>
    exact ih (fun e' he' => hes e' (List.mem_cons_of_mem _ he'))
      ((hes e List.mem_cons_self).apply h)

/-- With the other drips disabled, an iteration is a step of the abstract drip. -/
theorem scheduler_solo {k : Fin 3} {w : World} (hv : w.info.timeIsValid = true)
    (ho : OthersDisabled k w) (c : Sample) :
    Agree True k (w.info.dripInfo k) ((scheduler k).step w c).1
        ((w.solo k).next (w.info.dripInfo k) c) ∧
      ((scheduler k).step w c).2 =
        ((Solo.machine (w.info.dripInfo k)).step (w.solo k) c).2 := by
  have hagree : Agree True k (w.info.dripInfo k) w (w.solo k) :=
    ⟨hv, rfl, rfl, rfl, fun _ _ => rfl⟩
  have ho' : OthersDisabled k (w.atSample c) := ho
  exact scheduler_step (fun _ => trivial) hagree fun j => (ho'.callWorld j).spares True j

structure EditInv (k : Fin 3) (w : World) : Prop where
  timeIsValid : w.info.timeIsValid = true
  others : OthersDisabled k w
  range : (w.info.dripInfo k).InRange
  held : Held (w.info.dripInfo k) (w.solo k)
  prev : 0 ≤ w.prevTimeInMin ∧ w.prevTimeInMin < 1440

theorem DripInfo.InRange.of_setting {d d' : DripInfo} (h : d.InRange)
    (he : d'.setting = d.setting) : d'.InRange := by
  unfold DripInfo.InRange
  rw [DripInfo.startTime_eq he, DripInfo.duration_eq he]
  exact h

theorem Held.of_setting {d d' : DripInfo} {s s' : Solo} (h : Held d s)
    (he : d'.setting = d.setting) (hon : s'.on = s.on) (hp : s'.prev = s.prev)
    (hr : s.on = true → s'.roll = s.roll) : Held d' s' := by
  intro hs'
  have hs : s.on = true := hon ▸ hs'
  rw [DripInfo.startTime_eq he, DripInfo.duration_eq he, hp, hr hs]
  exact h hs

/-- **One iteration with edits.** If the edits are harmless and the clock is regular while the drip
is open, the invariant is kept and the drip is inside of its window. -/
theorem EditInv.step {k : Fin 3} {w : World} (h : EditInv k w) {es : List Edit} {c : Sample}
    (hes : ∀ e ∈ es, e.InRange) (hsafe : EditSafe k w (es, c))
    (hrange : 0 ≤ c.minute ∧ c.minute < 1440)
    (hclock : w.dripStatus k = true →
      c.minute = w.prevTimeInMin ∨ c.minute = (w.prevTimeInMin + 1) % 1440) :
    EditInv k ((edited k).step w (es, c)).1 ∧ ((edited k).step w (es, c)).2.InWindow ∧
      ((edited k).step w (es, c)).1.prevTimeInMin = c.minute := by
  have hframe := applyEdits_frame k es w
  have hd := applyEdits_inRange hes h.range
  have ho : OthersDisabled k (applyEdits k es w) := fun j hj => by
    rw [hframe.others j hj]
    exact h.others j hj
  have hagree := (scheduler_solo (hframe.timeIsValid.trans h.timeIsValid) ho c).1
  have hstep : StepSafe ((applyEdits k es w).info.dripInfo k) ((applyEdits k es w).solo k) c := by
    by_cases hnil : es = []
    · subst hnil
      exact h.held.stepSafe h.range h.prev hclock
    · intro hon
      rcases hsafe hnil hon with hlo | ⟨hx, hr⟩
      · exact Or.inl hlo
      · exact Or.inr ⟨hd.crosses.1 hx, hr⟩
  have hheld := hstep.held hd
  have hset := hagree.setting
  have hd₁ := hd.of_setting hset
  have hheld₁ : Held (((edited k).step w (es, c)).1.info.dripInfo k)
      (((edited k).step w (es, c)).1.solo k) :=
    hheld.of_setting hset hagree.on hagree.prev fun hon => hagree.roll hon trivial
  have hprev₁ : ((edited k).step w (es, c)).1.prevTimeInMin = c.minute := hagree.prev
  have hprevRange : 0 ≤ ((edited k).step w (es, c)).1.prevTimeInMin ∧
      ((edited k).step w (es, c)).1.prevTimeInMin < 1440 := by rw [hprev₁]; exact hrange
  refine ⟨⟨hagree.timeIsValid, ho.step c, hd₁, hheld₁, hprevRange⟩, ?_, hprev₁⟩
  intro hon
  have := hheld₁.inWindow hd₁ hprevRange hon
  rw [show (((edited k).step w (es, c)).1.solo k).prev = c.minute from hprev₁] at this
  exact this

theorem EditInv.run {k : Fin 3} : ∀ {steps : List (List Edit × Sample)} {w : World},
    EditInv k w → (∀ i ∈ steps, ∀ e ∈ i.1, e.InRange) →
    (∀ i ∈ steps, 0 ≤ i.2.minute ∧ i.2.minute < 1440) →
    (steps.map (·.2)).IsChain (fun a b => b.minute = a.minute ∨ b.minute = (a.minute + 1) % 1440) →
    (w.dripStatus k = true → ∀ i ∈ steps.head?,
      i.2.minute = w.prevTimeInMin ∨ i.2.minute = (w.prevTimeInMin + 1) % 1440) →
    (edited k).Along (EditSafe k) w steps → ∀ o ∈ (edited k).run w steps, o.InWindow
  | [], _, _, _, _, _, _, _ => fun _ ho => nomatch ho
  | (es, c) :: steps, w, h, hes, hrange, hchain, hfirst, hsafe => by
    obtain ⟨hinv, hin, hprev⟩ := h.step (hes _ List.mem_cons_self) hsafe.1
      (hrange _ List.mem_cons_self) fun hon => hfirst hon _ rfl
    have htail := EditInv.run hinv (fun i hi => hes i (List.mem_cons_of_mem _ hi))
      (fun i hi => hrange i (List.mem_cons_of_mem _ hi)) hchain.of_cons (by
        intro _ i hi
        rw [hprev]
        cases steps with
        | nil => cases hi
        | cons i' steps =>
          rw [List.head?_cons, Option.mem_some_iff] at hi
          subst hi
          exact (List.isChain_cons_cons.1 hchain).1) hsafe.2
    intro o ho
    rcases List.mem_cons.1 ho with rfl | ho
    · exact hin
    · exact htail o ho

/-- **Harmless edits never leave a valve open outside of its window.** For every run from boot in
which only drip `k` is enabled, the clock goes on by at most a minute and the values are in range:
if every edit that finds the drip open leaves the minute at or behind the new start, or gives a
window over midnight with midnight behind, then after every iteration an open drip is inside of the
window in force. -/
theorem edited_in_window (k : Fin 3) (w : World) (hw : Booted w) (hothers : OthersDisabled k w)
    (hd : (w.info.dripInfo k).InRange) (steps : List (List Edit × Sample))
    (hes : ∀ i ∈ steps, ∀ e ∈ i.1, e.InRange) (hclock : Advancing (steps.map (·.2)))
    (hsafe : (edited k).Along (EditSafe k) w steps) :
    ∀ o ∈ (edited k).run w steps, o.InWindow := by
  have hinv : EditInv k w :=
    { timeIsValid := hw.timeIsValid
      others := hothers
      range := hd
      held := fun hon => absurd ((hw.dripStatus k).symm.trans hon) (by decide)
      prev := by rw [hw.prevTimeInMin]; decide }
  refine hinv.run hes ?_ hclock.chain ?_ hsafe
  · intro i hi
    exact hclock.range i.2 (List.mem_map_of_mem hi)
  · intro hon
    rw [hw.dripStatus k] at hon
    cases hon

theorem edited_in_window_earlier :
    (edited 0).Along (EditSafe 0)
        (bootWith ![⟨false, 30, 600, 127⟩, ⟨false, 1, 0, 0⟩, ⟨false, 1, 0, 0⟩])
        [([], ⟨10, 0, 3⟩), ([.startTime 590], ⟨10, 1, 3⟩), ([.duration 11], ⟨10, 1, 3⟩)] ∧
      ∀ o ∈ (edited 0).run (bootWith ![⟨false, 30, 600, 127⟩, ⟨false, 1, 0, 0⟩, ⟨false, 1, 0, 0⟩])
        [([], ⟨10, 0, 3⟩), ([.startTime 590], ⟨10, 1, 3⟩), ([.duration 11], ⟨10, 1, 3⟩)],
        o.InWindow :=
  ⟨by decide, edited_in_window 0 _ (booted_bootWith _) (by decide) (by decide) _ (by decide)
    ⟨by decide, by simp [Sample.minute]⟩ (by decide)⟩

/-- The first drip waters from 10:00; at 10:01 its start moves to 12:00, and the valve stays open
outside of every window. -/
theorem edited_outside :
    ¬ ∀ (k : Fin 3) (w : World), Booted w → OthersDisabled k w → (w.info.dripInfo k).InRange →
      ∀ steps : List (List Edit × Sample), (∀ i ∈ steps, ∀ e ∈ i.1, e.InRange) →
        Advancing (steps.map (·.2)) → ∀ o ∈ (edited k).run w steps, o.InWindow := by
  intro h
  have := h 0 (bootWith ![⟨false, 30, 600, 127⟩, ⟨false, 1, 0, 0⟩, ⟨false, 1, 0, 0⟩])
    (booted_bootWith _) (by decide) (by decide)
    [([], ⟨10, 0, 3⟩), ([.startTime 720], ⟨10, 1, 3⟩)] (by decide)
    ⟨by decide, by simp [Sample.minute]⟩
  revert this
  decide

end GreenHouse
