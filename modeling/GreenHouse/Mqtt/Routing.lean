import GreenHouse.Mqtt.Effects
import GreenHouse.Mqtt.Reading

/-!
# Routing

Each test of the handler searches the topic and all that follows it up to a NUL. So besides the
branch of the topic, a branch runs whose constant occurs in what follows (`Collides`): in the
payload, in what earlier messages left behind it, or, for the three topics that continue to the
topic of a branch, across the border between topic and payload.

`ran_handle_iff` says exactly when a message runs the branch of its topic and no other. The tests
behind that branch see less: after it has terminated the payload they see the payload only, and
after it has read through a NULL pointer there are no more tests.
-/

namespace GreenHouse

open CText

/-! ## Runs of tests -/

namespace Hearing

section Run

variable {topic payload : Text}

theorem run_cons (b : Branch) (l : List Branch) (h : Hearing) :
    run topic payload (b :: l) h = run topic payload l (test topic payload h b) := rfl

theorem run_append (l l' : List Branch) (h : Hearing) :
    run topic payload (l ++ l') h = run topic payload l' (run topic payload l h) :=
  List.foldl_append

theorem run_of_fault {h : Hearing} (hf : h.fault.isSome = true) (l : List Branch) :
    run topic payload l h = h := by
  induction l with
  | nil => rfl
  | cons b l ih => rw [run_cons, test, if_pos hf, ih]

theorem test_of_not_hit {h : Hearing} {b : Branch} (hb : ¬ Hit topic h.text b) :
    test topic payload h b = h := by
  unfold test
  rw [if_neg hb]
  split <;> rfl

theorem run_of_not_hit {h : Hearing} {l : List Branch} (hl : ∀ b ∈ l, ¬ Hit topic h.text b) :
    run topic payload l h = h := by
  induction l with
  | nil => rfl
  | cons b l ih =>
    rw [run_cons, test_of_not_hit (hl b List.mem_cons_self),
      ih fun c hc => hl c (List.mem_cons_of_mem _ hc)]

theorem test_of_hit {h : Hearing} {b : Branch} (hf : h.fault = none) (hb : Hit topic h.text b) :
    test topic payload h b = h.enter payload b := by
  unfold test
  rw [hf, if_neg (by simp), if_pos hb]

@[simp] theorem ran_enter (payload : Text) (b : Branch) (h : Hearing) :
    (h.enter payload b).ran = h.ran ++ [b] := by
  unfold enter
  cases b.use with
  | none => rfl
  | read => dsimp only; split <;> rfl
  | terminate => dsimp only; split <;> rfl

theorem ran_prefix_run (topic payload : Text) (l : List Branch) (h : Hearing) :
    h.ran <+: (run topic payload l h).ran := by
  induction l generalizing h with
  | nil => exact List.prefix_rfl
  | cons b l ih =>
    have htest : h.ran <+: (test topic payload h b).ran := by
      unfold test
      split
      · exact List.prefix_rfl
      · split
        · rw [ran_enter]
          exact List.prefix_append _ _
        · exact List.prefix_rfl
    exact htest.trans (ih _)

/-- The first test that succeeds leaves its branch in the record. -/
theorem exists_ran_of_hit (payload : Text) {h : Hearing} {l : List Branch} (hf : h.fault = none)
    (hl : ∃ b ∈ l, Hit topic h.text b) :
    ∃ b ∈ l, h.ran ++ [b] <+: (run topic payload l h).ran := by
  induction l with
  | nil => obtain ⟨b, hb, -⟩ := hl; cases hb
  | cons c l ih =>
    rw [run_cons]
    by_cases hc : Hit topic h.text c
    · refine ⟨c, List.mem_cons_self, ?_⟩
      rw [test_of_hit hf hc, ← ran_enter payload c h]
      exact ran_prefix_run _ _ _ _
    · have hrest := ((List.exists_mem_cons_iff _ _ _).1 hl).resolve_left hc
      obtain ⟨b, hb, hran⟩ := ih hrest
      rw [test_of_not_hit hc]
      exact ⟨b, List.mem_cons_of_mem _ hb, hran⟩

/-- Where one test alone succeeds, and its branch leaves the text as it is, the run is that
branch. -/
theorem run_of_only {h : Hearing} {b : Branch} {l : List Branch} (hb : b ∈ l) (hl : l.Nodup)
    (hf : h.fault = none) (hit : Hit topic h.text b) (hother : ∀ c, c ≠ b → ¬ Hit topic h.text c)
    (htext : (h.enter payload b).text = h.text) :
    run topic payload l h = h.enter payload b := by
  obtain ⟨before, after, rfl⟩ := List.append_of_mem hb
  obtain ⟨-, hafter, hdisjoint⟩ := List.nodup_append.1 hl
  have hbefore : ∀ c ∈ before, ¬ Hit topic h.text c := fun c hc =>
    hother c fun heq => hdisjoint c hc b List.mem_cons_self heq
  have hrest : ∀ c ∈ after, ¬ Hit topic (h.enter payload b).text c := by
    rw [htext]
    exact fun c hc => hother c fun heq => (List.nodup_cons.1 hafter).1 (heq ▸ hc)
  rw [run_append, run_of_not_hit hbefore, run_cons, test_of_hit hf hit, run_of_not_hit hrest]

/-- No branch runs exactly when no test succeeds. -/
theorem ran_run_eq_iff {h : Hearing} (hf : h.fault = none) (l : List Branch) :
    (run topic payload l h).ran = h.ran ↔ ∀ b ∈ l, ¬ Hit topic h.text b := by
  constructor
  · intro heq b hb hit
    obtain ⟨c, -, hran⟩ := exists_ran_of_hit payload hf ⟨b, hb, hit⟩
    have hlen := hran.length_le
    rw [heq, List.length_append, List.length_singleton] at hlen
    omega
  · intro hl
    rw [run_of_not_hit hl]

end Run

end Hearing

/-! ## Which constants a test can find -/

/-- Behind the topic `topic`, the text `text` makes the test of `b` succeed: it contains the
constant of `b`, or it continues a days topic to a constant. -/
def Collides (topic text : Text) (b : Branch) : Prop :=
  b.topic <:+: text ∨ ∃ num, topic = dripDaysTopic num ∧
    ((b = .dripRequestDays num ∧ ascii "/request" <+: text) ∨
      (b = .dripSetDays num ∧ ascii "/set" <+: text))

theorem mem_all (b : Branch) : b ∈ Branch.all := by
  match b with
  | .tempRequest | .tempHistoryRequest | .humidityRequest | .humidityHistoryRequest => decide
  | .fanSetState | .fanGetState | .fanSetTempOn | .fanGetTempOn => decide
  | .dripCtrl 0 | .dripCtrl 1 | .dripCtrl 2 => decide
  | .dripRequestStatus 0 | .dripRequestStatus 1 | .dripRequestStatus 2 => decide
  | .dripRequestStartTime 0 | .dripRequestStartTime 1 | .dripRequestStartTime 2 => decide
  | .dripSetStartTime 0 | .dripSetStartTime 1 | .dripSetStartTime 2 => decide
  | .dripRequestDuration 0 | .dripRequestDuration 1 | .dripRequestDuration 2 => decide
  | .dripSetDuration 0 | .dripSetDuration 1 | .dripSetDuration 2 => decide
  | .dripRequestDays 0 | .dripRequestDays 1 | .dripRequestDays 2 => decide
  | .dripSetDays 0 | .dripSetDays 1 | .dripSetDays 2 => decide

/-- `/gr` is found at the beginning of a topic only, whole or cut off. -/
theorem eq_of_take_isPrefix : ∀ t ∈ subscribed, ∀ u ∈ t.tails,
    u ≠ [] → u.take 3 <+: ascii "/gr" → u = t := by
  decide +kernel

theorem topic_take : ∀ b ∈ Branch.all, b.topic.take 3 = ascii "/gr" := by decide +kernel

theorem eq_of_topic_isPrefix : ∀ t ∈ subscribed, ∀ b ∈ Branch.all, b.topic <+: t → b.topic = t := by
  decide +kernel

theorem days_of_prefix_topic : ∀ t ∈ subscribed, ∀ b ∈ Branch.all, t <+: b.topic → b.topic = t ∨
    ∃ num, t = dripDaysTopic num ∧ (b = .dripRequestDays num ∨ b = .dripSetDays num) := by
  decide +kernel

/-- An end of a topic that a constant starts with, or that starts with a constant, is the whole
topic. -/
theorem eq_of_suffix {t u : Text} (ht : t ∈ subscribed) (hu : u <:+ t) (hne : u ≠ []) {b : Branch}
    (hb : u <+: b.topic ∨ b.topic <+: u) : u = t := by
  have htake : u.take 3 <+: ascii "/gr" := by
    have h3 := topic_take b (mem_all b)
    rcases hb with h | h
    · rw [← h3]
      exact h.take 3
    · have hlen : 3 ≤ b.topic.length := by
        have := congrArg List.length h3
        rw [List.length_take] at this
        have hgr : (ascii "/gr").length = 3 := by decide
        omega
      obtain ⟨v, rfl⟩ := h
      rw [List.take_append_of_le_length hlen, h3]
  exact eq_of_take_isPrefix t ht u ((List.mem_tails u t).2 hu) hne htake

theorem topic_ne_nil (b : Branch) : b.topic ≠ [] := by
  intro h
  have := topic_take b (mem_all b)
  rw [h] at this
  exact absurd this (by decide)

theorem dripRequestDaysTopic_eq (num : Fin 3) :
    dripRequestDaysTopic num = dripDaysTopic num ++ ascii "/request" := by
  match num with
  | 0 | 1 | 2 => rfl

theorem dripSetDaysTopic_eq (num : Fin 3) :
    dripSetDaysTopic num = dripDaysTopic num ++ ascii "/set" := by
  match num with
  | 0 | 1 | 2 => rfl

/-- **What a test finds.** Behind a subscribed topic, the test of another branch succeeds exactly on
the texts that collide. -/
theorem hit_iff {t : Text} (ht : t ∈ subscribed) {b : Branch} (hb : b.topic ≠ t) (text : Text) :
    Hearing.Hit t text b ↔ Collides t text b := by
  unfold Hearing.Hit Collides
  rw [List.infix_append_iff_ne_nil]
  constructor
  · rintro (h | h | ⟨u, v, hu, hv, hsplit, hsuff, hpre⟩)
    · -- inside the topic
      obtain ⟨v, hv, hsuff⟩ := List.infix_iff_prefix_suffix.1 h
      have hne : v ≠ [] := by
        rintro rfl
        exact topic_ne_nil b (List.prefix_nil.1 hv)
      rw [eq_of_suffix ht hsuff hne (Or.inr hv)] at hv
      exact absurd (eq_of_topic_isPrefix t ht b (mem_all b) hv) hb
    · exact Or.inl h
    · -- across the border
      obtain rfl := eq_of_suffix ht hsuff hu (Or.inl ⟨v, hsplit.symm⟩)
      rcases days_of_prefix_topic u ht b (mem_all b) ⟨v, hsplit.symm⟩ with h | ⟨num, rfl, hcase⟩
      · exact absurd h hb
      · refine Or.inr ⟨num, rfl, ?_⟩
        rcases hcase with rfl | rfl
        · rw [List.append_cancel_left (hsplit.symm.trans (dripRequestDaysTopic_eq num))] at hpre
          exact Or.inl ⟨rfl, hpre⟩
        · rw [List.append_cancel_left (hsplit.symm.trans (dripSetDaysTopic_eq num))] at hpre
          exact Or.inr ⟨rfl, hpre⟩
  · rintro (h | ⟨num, rfl, ⟨rfl, h⟩ | ⟨rfl, h⟩⟩)
    · exact Or.inr (Or.inl h)
    · refine Or.inr (Or.inr ⟨dripDaysTopic num, ascii "/request", ?_, by decide,
        dripRequestDaysTopic_eq num, List.suffix_rfl, h⟩)
      match num with
      | 0 | 1 | 2 => decide
    · refine Or.inr (Or.inr ⟨dripDaysTopic num, ascii "/set", ?_, by decide,
        dripSetDaysTopic_eq num, List.suffix_rfl, h⟩)
      match num with
      | 0 | 1 | 2 => decide

/-! ## The branch of the topic -/

/-- The payload makes the branch read or write through NULL. -/
def Branch.Stops (b : Branch) (payload : Text) : Prop :=
  (b.use ≠ .none ∧ payload = []) ∨ ((∃ num, b = .dripSetStartTime num) ∧ 58 ∉ cstr payload)

theorem Branch.act_fault (b : Branch) (data : Text) (w : World) :
    (b.act data w).2.isSome = true ↔ (∃ num, b = .dripSetStartTime num) ∧ 58 ∉ data := by
  rw [act_snd]
  cases b with
  | dripSetStartTime num => by_cases h : 58 ∈ data <;> simp [faultOf, h]
  | _ => simp [faultOf]

theorem Hearing.fault_enter (b : Branch) (payload : Text) (h : Hearing) :
    (h.enter payload b).fault.isSome = true ↔ b.Stops payload := by
  unfold Branch.Stops
  cases hu : b.use with
  | none =>
    have hne : ¬ ∃ num, b = .dripSetStartTime num := by
      rintro ⟨num, rfl⟩
      cases hu
    simp [enter, hu, Branch.act_fault, hne]
  | read =>
    have hne : ¬ ∃ num, b = .dripSetStartTime num := by
      rintro ⟨num, rfl⟩
      cases hu
    by_cases hp : payload = [] <;> simp [enter, hu, hp, Branch.act_fault, hne]
  | terminate =>
    by_cases hp : payload = [] <;> simp [enter, hu, hp, Branch.act_fault]

theorem Hearing.text_enter (b : Branch) (payload : Text) (h : Hearing) :
    (h.enter payload b).text =
      if b.use = .terminate ∧ payload ≠ [] then cstr payload else h.text := by
  cases hu : b.use <;> by_cases hp : payload = [] <;> simp [enter, hu, hp]

/-- The text the tests behind `b` see, once `b` has run to its end. -/
theorem Hearing.text_enter_of_not_stops {b : Branch} {payload : Text} (hb : ¬ b.Stops payload)
    (h : Hearing) :
    (h.enter payload b).text = if b.use = .terminate then cstr payload else h.text := by
  have hp : b.use = .terminate → payload ≠ [] := fun hu hp =>
    hb (Or.inl ⟨by rw [hu]; decide, hp⟩)
  rw [text_enter]
  by_cases hu : b.use = .terminate
  · rw [if_pos ⟨hu, hp hu⟩, if_pos hu]
  · rw [if_neg fun h => hu h.1, if_neg hu]

/-! ## When the topic alone decides -/

namespace Publish

def rest (m : Publish) : Text := cstr (m.payload ++ m.residue)

/-- The branches tested before the branch of the topic; all of them where there is none. -/
def before (m : Publish) : List Branch := Branch.all.takeWhile (·.topic ≠ m.topic)

def fromOwn (m : Publish) : List Branch := Branch.all.dropWhile (·.topic ≠ m.topic)

/-- Nothing that the tests see behind the topic collides: up to the branch of the topic that is the
payload with what follows it; then, unless the branch stopped the handler, the payload only if the
branch terminated it, else the same as before. -/
structure Alone (m : Publish) : Prop where
  before : ∀ b ∈ m.before, ¬ Collides m.topic m.rest b
  after : ∀ own ∈ m.fromOwn.head?, ¬ own.Stops m.payload → ∀ b ∈ m.fromOwn.tail,
    ¬ Collides m.topic (if own.use = .terminate then cstr m.payload else m.rest) b

end Publish

instance (topic text : Text) (b : Branch) : Decidable (Collides topic text b) :=
  inferInstanceAs (Decidable (_ <:+: _ ∨ ∃ num, _ = dripDaysTopic num ∧ ((_ ∧ _) ∨ (_ ∧ _))))

instance (b : Branch) (payload : Text) : Decidable (b.Stops payload) :=
  inferInstanceAs (Decidable (_ ∨ (∃ num, b = .dripSetStartTime num) ∧ _))

theorem topic_ne_of_mem_before {m : Publish} {b : Branch} (hb : b ∈ m.before) :
    b.topic ≠ m.topic := by
  simpa using List.mem_takeWhile_imp hb

theorem nodup_topics : (Branch.all.map Branch.topic).Nodup := by decide +kernel

theorem topic_injective : Function.Injective Branch.topic := fun b c h =>
  List.inj_on_of_nodup_map nodup_topics (mem_all b) (mem_all c) h

theorem nodup_all : Branch.all.Nodup := nodup_topics.of_map

theorem slash_mem_topic (b : Branch) : (47 : UInt8) ∈ b.topic := by
  have hmem : (47 : UInt8) ∈ b.topic.take 3 := by
    rw [topic_take b (mem_all b)]
    decide
  exact List.mem_of_mem_take hmem

theorem fromOwn_cases (m : Publish) : m.fromOwn = [] ∨ ∃ own later, m.fromOwn = own :: later ∧
    own.topic = m.topic ∧ ∀ b ∈ later, b.topic ≠ m.topic := by
  have hhead := List.head?_dropWhile_not (fun b : Branch => decide (b.topic ≠ m.topic)) Branch.all
  cases h : m.fromOwn with
  | nil => exact Or.inl rfl
  | cons own later =>
    rw [show Branch.all.dropWhile _ = own :: later from h] at hhead
    have hown : own.topic = m.topic := by simpa using hhead
    refine Or.inr ⟨own, later, rfl, hown, fun b hb heq => ?_⟩
    have hsuff : m.fromOwn <:+ Branch.all := List.dropWhile_suffix _
    have hnodup := ((hsuff.sublist.map Branch.topic).nodup nodup_topics)
    rw [h, List.map_cons, List.nodup_cons] at hnodup
    exact hnodup.1 (List.mem_map.2 ⟨b, hb, heq.trans hown.symm⟩)

theorem filter_all (m : Publish) :
    Branch.all.filter (fun b => b.topic = m.topic) = m.fromOwn.head?.toList := by
  have hsplit : Branch.all = m.before ++ m.fromOwn := (List.takeWhile_append_dropWhile).symm
  have hbefore : m.before.filter (fun b => b.topic = m.topic) = [] := by
    rw [List.filter_eq_nil_iff]
    intro b hb
    simpa using topic_ne_of_mem_before hb
  rw [hsplit, List.filter_append, hbefore, List.nil_append]
  rcases fromOwn_cases m with h | ⟨own, later, h, hown, hlater⟩
  · rw [h]
    rfl
  · have hnil : later.filter (fun b => b.topic = m.topic) = [] := by
      rw [List.filter_eq_nil_iff]
      intro b hb
      simpa using hlater b hb
    rw [h, List.filter_cons, if_pos (by simpa using hown), hnil]
    rfl

section Own

variable {m : Publish} (ht : m.topic ∈ subscribed)

include ht

theorem not_hit_before_iff :
    (∀ b ∈ m.before, ¬ Hearing.Hit m.topic m.rest b) ↔
      ∀ b ∈ m.before, ¬ Collides m.topic m.rest b :=
  forall₂_congr fun b hb => by rw [hit_iff ht (topic_ne_of_mem_before hb)]

theorem ran_own_iff {own : Branch} {later : List Branch} (hown : own.topic = m.topic)
    (hlater : ∀ b ∈ later, b.topic ≠ m.topic) (w : World) :
    (Hearing.run m.topic m.payload (own :: later) ⟨w, m.rest, none, []⟩).ran = [own] ↔
      (¬ own.Stops m.payload → ∀ b ∈ later,
        ¬ Collides m.topic (if own.use = .terminate then cstr m.payload else m.rest) b) := by
  have hhit : Hearing.Hit m.topic m.rest own := by
    unfold Hearing.Hit
    rw [hown]
    exact (List.prefix_append _ _).isInfix
  rw [Hearing.run_cons, Hearing.test_of_hit rfl hhit]
  by_cases hstop : own.Stops m.payload
  · rw [Hearing.run_of_fault ((Hearing.fault_enter _ _ _).2 hstop), Hearing.ran_enter]
    simp [hstop]
  · have hnone : (Hearing.enter m.payload own ⟨w, m.rest, none, []⟩).fault = none := by
      rw [← Option.not_isSome_iff_eq_none, Hearing.fault_enter]
      exact hstop
    have hran : (Hearing.enter m.payload own ⟨w, m.rest, none, []⟩).ran = [own] :=
      Hearing.ran_enter _ _ _
    rw [← hran, Hearing.ran_run_eq_iff hnone, Hearing.text_enter_of_not_stops hstop]
    simp only [hstop, not_false_eq_true, true_imp_iff]
    exact forall₂_congr fun b hb => by rw [hit_iff ht (hlater b hb)]

/-- **Routing.** A message on a subscribed topic runs the branch of its topic, and no other, exactly
when nothing the tests see behind the topic collides. -/
theorem ran_handle_iff (w : World) :
    (m.handle w).ran = Branch.all.filter (fun b => b.topic = m.topic) ↔ m.Alone := by
  have halone : m.Alone ↔ (∀ b ∈ m.before, ¬ Collides m.topic m.rest b) ∧
      ∀ own ∈ m.fromOwn.head?, ¬ own.Stops m.payload → ∀ b ∈ m.fromOwn.tail,
        ¬ Collides m.topic (if own.use = .terminate then cstr m.payload else m.rest) b :=
    ⟨fun h => ⟨h.1, h.2⟩, fun h => ⟨h.1, h.2⟩⟩
  have hsplit : Branch.all = m.before ++ m.fromOwn := (List.takeWhile_append_dropWhile).symm
  have hrun : m.hear w = Hearing.run m.topic m.payload m.fromOwn
      (Hearing.run m.topic m.payload m.before ⟨w, m.rest, none, []⟩) := by
    unfold Publish.hear
    rw [hsplit, Hearing.run_append]
    rfl
  rw [(handle_reads (zero_notMem_of_subscribed _ ht) w).ran, hrun, filter_all, halone,
    ← not_hit_before_iff ht]
  by_cases hbefore : ∀ b ∈ m.before, ¬ Hearing.Hit m.topic m.rest b
  · have hstart : Hearing.run m.topic m.payload m.before ⟨w, m.rest, none, []⟩ =
        ⟨w, m.rest, none, []⟩ := Hearing.run_of_not_hit hbefore
    rw [hstart]
    rcases fromOwn_cases m with h | ⟨own, later, h, hown, hlater⟩
    · rw [h]
      simpa [Hearing.run] using hbefore
    · rw [h]
      simp only [List.head?_cons, Option.toList_some, List.tail_cons, Option.mem_def,
        Option.some.injEq, forall_eq']
      rw [ran_own_iff ht hown hlater]
      exact ⟨fun h => ⟨hbefore, h⟩, fun h => h.2⟩
  · -- a branch before the own one runs, and the record starts with it
    refine ⟨fun heq => absurd ?_ hbefore, fun h => absurd h.1 hbefore⟩
    intro b hb hit
    obtain ⟨c, hc, hran⟩ := Hearing.exists_ran_of_hit m.payload
      (h := ⟨w, m.rest, none, []⟩) rfl ⟨b, hb, hit⟩
    have hpre := hran.trans (Hearing.ran_prefix_run m.topic m.payload
      m.fromOwn _)
    rw [heq] at hpre
    rcases fromOwn_cases m with h | ⟨own, later, h, hown, hlater⟩
    · rw [h] at hpre
      exact absurd (hpre.length_le) (by simp)
    · rw [h] at hpre
      have hco : c = own := by simpa using hpre
      exact topic_ne_of_mem_before hc (hco ▸ hown)

end Own

def shorterDuration : Publish :=
  ⟨[0x30, 34, 0, 30], dripSetDurationTopic 0, ascii "30", ascii "0 minutes"⟩

theorem ran_handle_duration :
    (shorterDuration.handle (cleared fun _ => none)).ran =
      Branch.all.filter (fun b => b.topic = dripSetDurationTopic 0) :=
  (ran_handle_iff (m := shorterDuration) (by decide +kernel) _).2
    ⟨by decide +kernel, by decide +kernel⟩

/-- A message `/request` on a days topic, which has no branch, is answered as a request. -/
theorem ran_handle_days_request :
    dripDaysTopic 0 ∈ subscribed ∧
      (Publish.handle ⟨[0x30, 32, 0, 22], dripDaysTopic 0, ascii "/request", []⟩
        (cleared fun _ => none)).ran ≠ Branch.all.filter (fun b => b.topic = dripDaysTopic 0) := by
  decide +kernel

end GreenHouse
