import GreenHouse.Mqtt.Memory
import GreenHouse.System.Runs

/-!
# Message after message in one buffer

Each message is read to the head of the input buffer, over what is left of the earlier ones, and the
handler reads into what it does not overwrite (`Session`). Whether that does harm is a matter of the
whole history. A topic always lies over the beginning of the topics before it, so that no constant
survives in what is left of them (`Clean`). `session_routed` concludes: as long as the payloads have
no slash, and none on a days topic is empty, every message of every run is handled by the branch of
its own topic and by no other, and those that set a start time, a duration or days mean what their
payload says.

What a command for a fan or a valve means does depend on the history. `drip_off_after_fan_on` is the
case that happens in use: behind the command ON for the fans, the command OFF opens a valve.
`echo_idle` is about the topics that the board both publishes on and is subscribed to.
-/

namespace GreenHouse

open CText

/-! ## The session -/

/-- The memory from the input buffer on, and the firmware. -/
structure Session where
  mem : Text
  world : World

/-- What the handler did with a message. -/
structure Heard where
  before : Session
  message : Message
  handling : Handling

namespace Session

/-- A message that fits into the buffer, read over what is there. -/
def publish (m : Message) (s : Session) : Publish :=
  ⟨m.header, m.topic, m.payload,
    s.mem.drop (m.header.length + m.topic.length + m.payload.length)⟩

def handle (m : Message) (s : Session) : Handling := (s.publish m).handle s.world

def after (m : Message) (s : Session) : Session := ⟨(s.handle m).mem, (s.handle m).world⟩

def afterAll (s : Session) (messages : List Message) : Session :=
  messages.foldl (fun s m => s.after m) s

end Session

def session : Mealy Session Message Heard where
  step s m := (s.after m, ⟨s, m, s.handle m⟩)

/-- What a branch is to do with a message of its topic: `text` is the string at the payload. -/
def Branch.obey (b : Branch) (payload text : Text) (w : World) : World × Option Fault :=
  match b.use with
  | .none => b.act [] w
  | .read => if payload = [] then (w, some .nullRead) else b.act text w
  | .terminate => if payload = [] then (w, some .nullWrite) else b.act (cstr payload) w

/-- The branch of the topic ran and no other, and it did what it is to do. -/
structure Heard.Routed (o : Heard) : Prop where
  ran : o.handling.ran = Branch.all.filter fun b => b.topic = o.message.topic
  obeyed : ∀ b : Branch, b.topic = o.message.topic → (o.handling.world, o.handling.fault) =
    b.obey o.message.payload (o.before.publish o.message).rest o.before.world
  idle : (∀ b : Branch, b.topic ≠ o.message.topic) →
    o.handling.world = o.before.world ∧ o.handling.fault = none

/-! ## What is left of earlier messages -/

/-- No topic begins behind the shortest message. -/
def Clean (mem : Text) : Prop := ¬ ascii "/gr" <:+: mem.drop 20

instance (mem : Text) : Decidable (Clean mem) := inferInstanceAs (Decidable (¬ _ <:+: _))

/-- A message on a subscribed topic, with a header of the format and a payload without a slash. -/
structure Message.Plain (m : Message) : Prop where
  subscribed : m.topic ∈ subscribed
  header_ge : 4 ≤ m.header.length
  header_le : m.header.length ≤ 7
  no_slash : (47 : UInt8) ∉ m.payload

/-- On a days topic it has a payload. Without one, what an earlier message left behind the topic can
make that of a request or of a setting out of it. -/
structure Message.Routable (m : Message) : Prop extends m.Plain where
  days : ∀ num, m.topic = dripDaysTopic num → m.payload ≠ []

theorem length_subscribed : ∀ t ∈ subscribed, 16 ≤ t.length := by decide +kernel

theorem ascii_gr : ascii "/gr" = [47, 103, 114] := by decide

section Clean

variable {m : Message} {r : Text}

/-- Behind a payload without a slash. -/
theorem not_infix_payload {payload : Text} (h : (47 : UInt8) ∉ payload)
    (hr : ¬ ascii "/gr" <:+: r) : ¬ ascii "/gr" <:+: payload ++ r := by
  rw [ascii_gr] at hr ⊢
  rwa [infix_append_of_notMem h]

/-- Inside a topic none begins. -/
theorem not_infix_suffix {t u : Text} (ht : t ∈ subscribed) (hu : u <:+ t) (hne : u ≠ t)
    (hr : ¬ ascii "/gr" <:+: r) : ¬ ascii "/gr" <:+: u ++ r := by
  have hlen : ∀ v, v <:+ u → v.length < t.length := fun v hv => by
    have hlt : u.length < t.length :=
      Nat.lt_of_le_of_ne hu.length_le fun h => hne (hu.eq_of_length h)
    exact hv.length_le.trans_lt hlt
  have hwhole : ∀ v, v <:+ u → v ≠ [] → v.take 3 <+: ascii "/gr" → False := fun v hv hv' htake => by
    have := eq_of_take_isPrefix t ht v ((List.mem_tails v t).2 (hv.trans hu)) hv' htake
    exact (hlen v hv).ne (congrArg List.length this)
  rw [List.infix_append_iff_ne_nil]
  rintro (h | h | ⟨v, v', hv, -, hsplit, hsuff, -⟩)
  · obtain ⟨v, hv, hsuff⟩ := List.infix_iff_prefix_suffix.1 h
    obtain ⟨v', rfl⟩ := hv
    refine hwhole _ hsuff (by simp [ascii_gr]) ?_
    rw [ascii_gr]
    exact List.prefix_rfl
  · exact hr h
  · have hpre : v <+: ascii "/gr" := ⟨v', hsplit.symm⟩
    exact hwhole v hsuff hv ((List.take_prefix 3 v).trans hpre)

/-- A message over a clean memory leaves it clean. -/
theorem Message.Plain.clean (h : m.Plain) (hr : ¬ ascii "/gr" <:+: r) :
    Clean (m.header ++ m.topic ++ m.payload ++ r) := by
  have hlen := length_subscribed _ h.subscribed
  have hheader := h.header_ge
  have hheader' := h.header_le
  have hdrop : (m.header ++ m.topic ++ m.payload ++ r).drop 20 =
      m.topic.drop (20 - m.header.length) ++ (m.payload ++ r) := by
    rw [List.append_assoc, List.append_assoc, List.drop_append, List.drop_of_length_le (by omega),
      List.nil_append, List.drop_append_of_le_length (by omega)]
  unfold Clean
  rw [hdrop]
  refine not_infix_suffix h.subscribed (List.drop_suffix _ _) ?_ (not_infix_payload h.no_slash hr)
  intro heq
  have := congrArg List.length heq
  rw [List.length_drop] at this
  omega

theorem Session.clean_residue {s : Session} (hs : Clean s.mem) (h : m.Plain) :
    ¬ ascii "/gr" <:+: (s.publish m).residue := by
  have hlen := length_subscribed _ h.subscribed
  have hheader := h.header_ge
  intro hinside
  refine hs (hinside.trans ?_)
  have hdrop : (s.publish m).residue = (s.mem.drop 20).drop
      (m.header.length + m.topic.length + m.payload.length - 20) := by
    rw [List.drop_drop]
    show s.mem.drop _ = s.mem.drop _
    congr 1
    omega
  rw [hdrop]
  exact (List.drop_suffix _ _).isInfix

theorem Clean.zeroAt {mem : Text} (h : Clean mem) (i : Nat) : Clean (zeroAt mem i) := by
  intro hinside
  unfold GreenHouse.zeroAt at hinside
  by_cases hi : i < 20
  · rw [List.drop_set_of_lt hi] at hinside
    exact h hinside
  · rw [List.drop_set, if_neg hi] at hinside
    exact h (infix_of_infix_set (by decide) hinside)

/-- **The memory stays clean.** -/
theorem clean_after {s : Session} (hs : Clean s.mem) (h : m.Plain) : Clean (s.after m).mem := by
  have hzero : ∀ (l : List Nat) (mem : Text), Clean mem → Clean (l.foldl zeroAt mem) := by
    intro l
    induction l with
    | nil => exact fun mem hmem => hmem
    | cons i l ih => exact fun mem hmem => ih _ (hmem.zeroAt i)
  unfold Session.after Session.handle Publish.handle
  dsimp only
  rw [mem_mqttEventData]
  exact hzero _ _ (h.clean (Session.clean_residue hs h))

end Clean

/-! ## Routing -/

/-- Where one test alone succeeds, on the text before its branch and on that behind it, the run is
that branch. -/
theorem Hearing.run_of_alone {topic payload : Text} {h : Hearing} {b : Branch} {l : List Branch}
    (hb : b ∈ l) (hl : l.Nodup) (hf : h.fault = none) (hit : Hit topic h.text b)
    (hbefore : ∀ c, c ≠ b → ¬ Hit topic h.text c)
    (hafter : ∀ c, c ≠ b → ¬ Hit topic (h.enter payload b).text c) :
    run topic payload l h = h.enter payload b := by
  obtain ⟨before, after, rfl⟩ := List.append_of_mem hb
  obtain ⟨-, hnodup, hdisjoint⟩ := List.nodup_append.1 hl
  have hfirst : ∀ c ∈ before, ¬ Hit topic h.text c := fun c hc =>
    hbefore c fun heq => hdisjoint c hc b List.mem_cons_self heq
  have hrest : ∀ c ∈ after, ¬ Hit topic (h.enter payload b).text c := fun c hc =>
    hafter c fun heq => (List.nodup_cons.1 hnodup).1 (heq ▸ hc)
  rw [run_append, run_of_not_hit hfirst, run_cons, test_of_hit hf hit, run_of_not_hit hrest]

theorem Hearing.enter_obey (payload : Text) (b : Branch) (h : Hearing) :
    ((h.enter payload b).world, (h.enter payload b).fault) = b.obey payload h.text h.world := by
  unfold Hearing.enter Branch.obey
  cases b.use with
  | none => rfl
  | read => dsimp only; split <;> rfl
  | terminate => dsimp only; split <;> rfl

section Routing

variable {m : Message} {s : Session}

/-- No other test succeeds on a text without a topic in it. -/
theorem Message.Routable.not_hit (h : m.Routable) {b : Branch} (hb : b.topic ≠ m.topic)
    {text : Text} (hclean : ¬ ascii "/gr" <:+: text)
    (hslash : m.payload ≠ [] → text.head? ≠ some 47) : ¬ Hearing.Hit m.topic text b := by
  rw [hit_iff h.subscribed hb]
  rintro (hinside | ⟨num, htopic, hcase⟩)
  · refine hclean (List.IsInfix.trans ?_ hinside)
    rw [← topic_take b (mem_all b)]
    exact (List.take_prefix 3 b.topic).isInfix
  · have hhead : ∀ u : Text, ascii "/" <+: u → u <+: text → text.head? = some 47 := by
      rintro u ⟨v, rfl⟩ ⟨v', rfl⟩
      rfl
    refine hslash (h.days num htopic) ?_
    rcases hcase with ⟨-, hpre⟩ | ⟨-, hpre⟩
    · exact hhead _ (by decide) hpre
    · exact hhead _ (by decide) hpre

/-- What the handler sees behind the topic. -/
theorem Message.Plain.cstr_clean (h : m.Plain) {r : Text} (hr : ¬ ascii "/gr" <:+: r) :
    ¬ ascii "/gr" <:+: cstr (m.payload ++ r) ∧
      (m.payload ≠ [] → (cstr (m.payload ++ r)).head? ≠ some 47) := by
  have hprefix : cstr (m.payload ++ r) <+: m.payload ++ r := List.takeWhile_prefix _
  refine ⟨fun hinside => not_infix_payload h.no_slash hr (hinside.trans hprefix.isInfix), ?_⟩
  intro hne hhead
  have hslash := h.no_slash
  cases hp : m.payload with
  | nil => exact hne hp
  | cons b p =>
    rw [hp] at hhead hslash
    unfold cstr at hhead
    rw [List.cons_append, List.takeWhile_cons] at hhead
    split at hhead
    · rw [List.head?_cons, Option.some_inj] at hhead
      exact hslash (hhead ▸ List.mem_cons_self)
    · cases hhead

/-- A message over a clean memory is handled by its own branch. -/
theorem routed_of_clean (hs : Clean s.mem) (h : m.Routable) : Heard.Routed ⟨s, m, s.handle m⟩ := by
  have hzero := zero_notMem_of_subscribed _ h.subscribed
  obtain ⟨hworld, hfault, hran, -⟩ := handle_reads (m := s.publish m) hzero s.world
  unfold Session.handle
  generalize (s.publish m).handle s.world = handling at hworld hfault hran ⊢
  have hresidue := Session.clean_residue hs h.toPlain
  obtain ⟨hclean, hhead⟩ := h.cstr_clean hresidue
  have hnil : ¬ ascii "/gr" <:+: [] := by decide
  obtain ⟨hclean', hhead'⟩ := h.cstr_clean hnil
  rw [List.append_nil] at hclean' hhead'
  have hother : ∀ b, b.topic ≠ m.topic → ¬ Hearing.Hit m.topic (s.publish m).rest b :=
    fun b hb => h.not_hit hb hclean hhead
  by_cases hown : ∃ b : Branch, b.topic = m.topic
  · obtain ⟨own, hown⟩ := hown
    have hne : ∀ c, c ≠ own → c.topic ≠ m.topic := fun c hc heq =>
      hc (topic_injective (heq.trans hown.symm))
    have hit : Hearing.Hit m.topic (s.publish m).rest own := by
      unfold Hearing.Hit
      rw [hown]
      exact (List.prefix_append _ _).isInfix
    have hrun : (s.publish m).hear s.world =
        Hearing.enter m.payload own ⟨s.world, (s.publish m).rest, none, []⟩ := by
      refine Hearing.run_of_alone (mem_all own) nodup_all rfl hit
        (fun c hc => hother c (hne c hc)) ?_
      intro c hc
      rw [Hearing.text_enter]
      split
      · exact h.not_hit (hne c hc) hclean' hhead'
      · exact hother c (hne c hc)
    have hobey := Hearing.enter_obey m.payload own ⟨s.world, (s.publish m).rest, none, []⟩
    have hfilter : Branch.all.filter (fun b => b.topic = m.topic) = [own] := by
      have hcongr : Branch.all.filter (fun b => b.topic = m.topic) =
          Branch.all.filter (fun b => b = own) := by
        refine List.filter_congr fun b _ => decide_eq_decide.2 ⟨fun hb => ?_, fun hb => ?_⟩
        · by_contra hne'
          exact hne b hne' hb
        · rw [hb, hown]
      rw [hcongr, List.filter_eq, List.count_eq_one_of_mem nodup_all (mem_all own)]
      rfl
    rw [hrun] at hworld hfault hran
    refine ⟨?_, fun b hb => ?_, fun hnone => absurd hown (hnone own)⟩
    · rw [hfilter]
      refine Eq.trans hran ?_
      rw [Hearing.ran_enter]
      rfl
    · obtain rfl := topic_injective (hb.trans hown.symm)
      rw [← hobey]
      exact Prod.ext hworld hfault
  · have hnone : ∀ b : Branch, b.topic ≠ m.topic := fun b hb => hown ⟨b, hb⟩
    have hrun : (s.publish m).hear s.world = ⟨s.world, (s.publish m).rest, none, []⟩ :=
      Hearing.run_of_not_hit fun b _ => hother b (hnone b)
    have hfilter : Branch.all.filter (fun b => b.topic = m.topic) = [] :=
      List.filter_eq_nil_iff.2 fun b _ => by simpa using hnone b
    rw [hrun] at hworld hfault hran
    refine ⟨?_, fun b hb => absurd hb (hnone b), fun _ => ⟨hworld, hfault⟩⟩
    rw [hfilter]
    exact hran

end Routing

section Command

variable {s : Session} {m : Message}

/-- The handler writes nothing for a topic whose branch terminates nothing. -/
theorem mem_after_of_read (hs : Clean s.mem) (h : m.Routable)
    (huse : ∀ b : Branch, b.topic = m.topic → b.use ≠ .terminate) :
    (s.after m).mem = (s.publish m).mem := by
  have hran := (routed_of_clean hs h).ran
  unfold Session.after
  unfold Session.handle Publish.handle at hran ⊢
  dsimp only at hran ⊢
  rw [mem_mqttEventData, hran]
  have hnone : (s.publish m).event.stores
      (Branch.all.filter fun b => b.topic = m.topic) = [] := by
    unfold DataEvent.stores
    rw [List.filterMap_eq_nil_iff]
    intro b hb
    rw [if_neg (huse b (by simpa using (List.mem_filter.1 hb).2))]
  rw [hnone]
  rfl

/-- **A valve command in a session** is ON exactly if the string at the payload has an ON in it,
which may be one of an earlier message. -/
theorem drip_after_ctrl (hs : Clean s.mem) (h : m.Routable) {num : Fin 3}
    (htopic : m.topic = dripCtrlTopic num) (hp : m.payload ≠ []) :
    (s.after m).world.drip num =
      (s.world.drip num).commanded (strstr (s.publish m).rest (ascii "ON")) := by
  have hobeyed := (routed_of_clean hs h).obeyed (.dripCtrl num) htopic.symm
  unfold Branch.obey Branch.use at hobeyed
  dsimp only at hobeyed
  rw [if_neg hp] at hobeyed
  have hworld := congrArg Prod.fst hobeyed
  unfold Session.after
  dsimp only at hworld ⊢
  rw [hworld, Branch.act, controlDrip_succ, drip_controlDripNum, if_pos rfl]

end Command

def fanOn (header : Text) : Message := ⟨header, fanSetStateSubTopic, ascii "ON"⟩

def dripOff (header : Text) (num : Fin 3) : Message := ⟨header, dripCtrlTopic num, ascii "OFF"⟩

theorem routable_of_length {header topic payload : Text} (h : header.length = 4)
    (ht : topic ∈ subscribed) (hslash : (47 : UInt8) ∉ payload) (hne : payload ≠ []) :
    Message.Routable ⟨header, topic, payload⟩ :=
  ⟨⟨ht, h.ge, h.le.trans (by decide), hslash⟩, fun _ _ => hne⟩

theorem on_ne_nil : ascii "ON" ≠ [] := by decide

theorem off_ne_nil : ascii "OFF" ≠ [] := by decide

theorem routable_fanOn {header : Text} (h : header.length = 4) : (fanOn header).Routable :=
  routable_of_length h (by decide +kernel) (by decide) on_ne_nil

theorem routable_dripOff {header : Text} (h : header.length = 4) (num : Fin 3) :
    (dripOff header num).Routable := by
  refine routable_of_length h ?_ (by decide) off_ne_nil
  match num with
  | 0 | 1 | 2 => decide +kernel

/-- The payload of a command for the fans lies where that of a valve command OFF ends. -/
theorem residue_dripOff {s : Session} (hs : Clean s.mem) {header header' : Text}
    (hlen : header.length = 4) (hlen' : header'.length = 4) (num : Fin 3) :
    ((s.after (fanOn header)).publish (dripOff header' num)).residue =
      ascii "ON" ++ (s.publish (fanOn header)).residue := by
  have hmem : (s.after (fanOn header)).mem = (s.publish (fanOn header)).mem := by
    refine mem_after_of_read hs (routable_fanOn hlen) fun b hb => ?_
    obtain rfl : b = .fanSetState := topic_injective hb
    decide
  have hctrl : (dripCtrlTopic num).length = 26 := by
    match num with
    | 0 | 1 | 2 => decide +kernel
  have hfan : fanSetStateSubTopic.length = 29 := by decide +kernel
  have hoff : (ascii "OFF").length = 3 := by decide
  have hhead : (header ++ fanSetStateSubTopic).length =
      header'.length + (dripCtrlTopic num).length + (ascii "OFF").length := by
    rw [List.length_append, hlen, hlen', hctrl, hfan, hoff]
  unfold Session.publish at hmem ⊢
  unfold Publish.mem at hmem
  dsimp only [fanOn, dripOff] at hmem ⊢
  rw [hmem, ← hhead, List.append_assoc (header ++ _), List.drop_left]

theorem clean_afterAll {s : Session} (hs : Clean s.mem) {messages : List Message}
    (h : ∀ m ∈ messages, m.Plain) : Clean (s.afterAll messages).mem := by
  induction messages generalizing s with
  | nil => exact hs
  | cons m messages ih =>
    obtain ⟨hm, hrest⟩ := List.forall_mem_cons.1 h
    rw [Session.afterAll, List.foldl_cons]
    exact ih (clean_after hs hm) hrest

/-- **OFF behind ON.** Behind the command ON for the fans, at any point of any session of plain
messages from a clean memory, the command OFF opens a valve. -/
theorem drip_off_after_fan_on {s : Session} (hs : Clean s.mem) {before : List Message}
    (h : ∀ m ∈ before, m.Plain) {header header' : Text} (hlen : header.length = 4)
    (hlen' : header'.length = 4) (num : Fin 3) :
    (s.afterAll (before ++ [fanOn header, dripOff header' num])).world.drip num =
      ((s.afterAll (before ++ [fanOn header])).world.drip num).commanded true := by
  have hbefore := clean_afterAll hs h
  have hstart : s.afterAll (before ++ [fanOn header]) =
      (s.afterAll before).after (fanOn header) := by
    simp [Session.afterAll]
  have hend : s.afterAll (before ++ [fanOn header, dripOff header' num]) =
      ((s.afterAll before).after (fanOn header)).after (dripOff header' num) := by
    simp [Session.afterAll]
  rw [hend, hstart]
  generalize s.afterAll before = s' at hbefore
  have hclean := clean_after hbefore (routable_fanOn hlen).toPlain
  have hrest : strstr ((s'.after (fanOn header)).publish (dripOff header' num)).rest
      (ascii "ON") = true := by
    have hno : 0 ∉ ascii "OFF" ++ ascii "ON" := by decide
    have hinside : ascii "ON" <:+: ascii "OFF" ++ ascii "ON" := (List.suffix_append _ _).isInfix
    unfold Publish.rest
    rw [residue_dripOff hbefore hlen hlen', strstr_iff, ← List.append_assoc]
    refine hinside.trans ?_
    have happend := cstr_append hno (s'.publish (fanOn header)).residue
    exact happend ▸ (List.prefix_append _ _).isInfix
  rw [drip_after_ctrl hclean (routable_dripOff hlen' num) rfl off_ne_nil, hrest]

/-- From a buffer of zeros, behind a day for the first drip. -/
theorem drip_off_opens :
    Clean [] ∧
      ((⟨[], cleared fun _ => none⟩ : Session).afterAll
          ([⟨[0x30, 29, 0, 26], dripSetDaysTopic 0, ascii "3"⟩] ++
            [fanOn [0x30, 33, 0, 29], dripOff [0x30, 31, 0, 26] 1])).world.drip 1 =
        (((⟨[], cleared fun _ => none⟩ : Session).afterAll
          ([⟨[0x30, 29, 0, 26], dripSetDaysTopic 0, ascii "3"⟩] ++
            [fanOn [0x30, 33, 0, 29]])).world.drip 1).commanded true := by
  refine ⟨by decide, drip_off_after_fan_on (by decide) ?_ rfl rfl 1⟩
  rw [List.forall_mem_singleton]
  exact (routable_of_length rfl (by decide +kernel) (by decide) (by decide)).toPlain

/-! ## What the board says to itself -/

/-- Of the topics that the board publishes on it is subscribed to those of the days. -/
theorem Answer.days_of_subscribed {topic payload : Text} (h : Answer topic payload)
    (ht : topic ∈ subscribed) : ∃ num v, topic = dripDaysTopic num ∧ payload = itoa v := by
  have hother : ∀ num, dripStatusTopic num ∉ subscribed ∧ dripStartTimeTopic num ∉ subscribed ∧
      dripDurationTopic num ∉ subscribed := by
    decide +kernel
  cases h with
  | days num v => exact ⟨num, v, rfl, rfl⟩
  | status num on => exact absurd ht (hother num).1
  | startTime num v => exact absurd ht (hother num).2.1
  | duration num v => exact absurd ht (hother num).2.2
  | temp v => exact absurd ht (by decide +kernel)
  | tempHistory history => exact absurd ht (by decide +kernel)
  | humidity v => exact absurd ht (by decide +kernel)
  | humidityHistory history => exact absurd ht (by decide +kernel)
  | fanState on => exact absurd ht (by decide +kernel)
  | fanTempOn v => exact absurd ht (by decide +kernel)

/-- **No feedback.** What the board published at any time of any run, and gets back into a clean
memory because it is subscribed to the topic, runs no branch: nothing is answered, set or
switched. -/
theorem echo_idle (flash : Text → Option Int) (inputs : List Board.Input) :
    ∀ b ∈ board.run (.booted flash) inputs, ∀ topic payload,
      .publish topic payload ∈ b.world.trace → topic ∈ subscribed →
      ∀ (s : Session) (header : Text), Clean s.mem → 4 ≤ header.length → header.length ≤ 7 →
        (s.handle ⟨header, topic, payload⟩).ran = [] ∧
          (s.handle ⟨header, topic, payload⟩).world = s.world ∧
          (s.handle ⟨header, topic, payload⟩).fault = none := by
  intro b hb topic payload hm ht s header hs hge hle
  obtain ⟨booted, hphrased⟩ := stable_phrased.run trivial (fun _ _ _ => trivial) b hb
  obtain ⟨num, v, rfl, rfl⟩ := (hphrased.answer hm).days_of_subscribed ht
  have hroutable : Message.Routable ⟨header, dripDaysTopic num, itoa v⟩ :=
    ⟨⟨ht, hge, hle, notMem_itoa (by decide) (by decide) v⟩, fun _ _ => itoa_ne_nil v⟩
  have hrouted := routed_of_clean hs hroutable
  have hnone : ∀ b : Branch, b.topic ≠ dripDaysTopic num := by
    have hall : ∀ num, ∀ b ∈ Branch.all, b.topic ≠ dripDaysTopic num := by decide +kernel
    exact fun b => hall num b (mem_all b)
  refine ⟨hrouted.ran.trans ?_, hrouted.idle hnone⟩
  exact List.filter_eq_nil_iff.2 fun b _ => by simpa using hnone b

/-- A request for the days of the first drip. -/
def daysRequest : Publish :=
  ⟨[0x30, 29, 0, 26], Branch.topic (.dripRequestDays 0), ascii "1", []⟩

/-- A board that is asked for the days. -/
def asked : List Board.Input :=
  [.reset false, .gotIp wifiTag, .data daysRequest.event daysRequest.mem]

/-- The answer to the request comes back to a board with nothing in its buffer. -/
theorem echo_idle_days :
    (Event.publish (dripDaysTopic 0) (ascii "127") ∈
        (board.after (.booted morningFlash) asked).world.trace ∧ dripDaysTopic 0 ∈ subscribed) ∧
      ((⟨[], cleared fun _ => none⟩ : Session).handle
          ⟨[0x30, 28, 0, 23], dripDaysTopic 0, ascii "127"⟩).ran = [] ∧
        ((⟨[], cleared fun _ => none⟩ : Session).handle
          ⟨[0x30, 28, 0, 23], dripDaysTopic 0, ascii "127"⟩).world = cleared (fun _ => none) ∧
        ((⟨[], cleared fun _ => none⟩ : Session).handle
          ⟨[0x30, 28, 0, 23], dripDaysTopic 0, ascii "127"⟩).fault = none := by
  have hsent : Event.publish (dripDaysTopic 0) (ascii "127") ∈
      (board.after (.booted morningFlash) asked).world.trace := by
    decide +kernel
  have hsub : dripDaysTopic 0 ∈ subscribed := by decide +kernel
  have hmem : board.after (.booted morningFlash) asked ∈ board.run (.booted morningFlash) asked :=
    Mealy.after_mem_run (fun _ _ => rfl) _ _ _
  exact ⟨⟨hsent, hsub⟩, echo_idle morningFlash asked _ hmem (dripDaysTopic 0) (ascii "127") hsent
    hsub ⟨[], cleared fun _ => none⟩ [0x30, 28, 0, 23] (by decide) (by decide) (by decide)⟩

end GreenHouse
