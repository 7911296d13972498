import GreenHouse.Mqtt.Routing

/-!
# Memory safety of the handler

The client posts a message in events of at most a buffer each (`deliver_publish`). The first event
points at the topic and at the payload behind it, as far as that is in the buffer, or at nothing if
there is none; the events that follow have no topic. The handler looks at none of this before it
reads and writes.

`safe_iff` says which events it survives, in every delivery of every message on a subscribed topic.
No test succeeds that makes it use a payload that is not there, write behind a message that ends
where the buffer ends, or look for the minutes of a start time without a colon; and every event
behind the first is a read through NULL.
-/

namespace GreenHouse

open CText

/-! ## Deliveries (`deliver_publish`) -/

/-- A QoS 0 PUBLISH as the broker sends it. -/
structure Message where
  header : Text
  topic : Text
  payload : Text

/-- An event with the memory it points into: the head of a message, or a further part of its payload
at the head of the buffer, with what lies behind it. -/
inductive Chunk where
  | first (m : Publish)
  | more (data residue : Text)

namespace Chunk

def event : Chunk → DataEvent
  | first m => m.event
  | more data _ => ⟨none, 0, if data.length > 0 then some 0 else none, data.length⟩

def mem : Chunk → Text
  | first m => m.mem
  | more data residue => data ++ residue

def handle (c : Chunk) (w : World) : Handling := mqttEventData c.event c.mem w

end Chunk

/-- The loop of `deliver_publish` behind its first event, on what is left of the payload. A read
brings at least a byte and at most a buffer; a read that fails ends the delivery. -/
inductive Continues (bufLen : Nat) : Text → List Chunk → Prop
  | done : Continues bufLen [] []
  | failed {left : Text} (hne : left ≠ []) : Continues bufLen left []
  | read {data left : Text} {chunks : List Chunk} (residue : Text) (hne : data ≠ [])
      (hle : data.length ≤ bufLen) (h : Continues bufLen left chunks) :
      Continues bufLen (data ++ left) (.more data residue :: chunks)

/-- The events posted for a message whose topic fits into the buffer. -/
inductive Delivers (bufLen : Nat) (m : Message) : List Chunk → Prop
  | deliver {chunks : List Chunk} (residue : Text)
      (hfit : m.header.length + m.topic.length ≤ bufLen)
      (h : Continues bufLen (m.payload.drop (bufLen - (m.header.length + m.topic.length))) chunks) :
      Delivers bufLen m
        (.first ⟨m.header, m.topic,
          m.payload.take (bufLen - (m.header.length + m.topic.length)), residue⟩ :: chunks)

theorem Continues.exists_more {bufLen : Nat} {left : Text} {chunks : List Chunk}
    (h : Continues bufLen left chunks) {c : Chunk} (hc : c ∈ chunks) :
    ∃ data residue, c = .more data residue := by
  induction h with
  | done => cases hc
  | failed => cases hc
  | read residue hne hle h ih =>
    rcases List.mem_cons.1 hc with rfl | hc
    · exact ⟨_, _, rfl⟩
    · exact ih hc

theorem Delivers.cases_mem {bufLen : Nat} {m : Message} {chunks : List Chunk}
    (h : Delivers bufLen m chunks) {c : Chunk} (hc : c ∈ chunks) :
    (∃ p : Publish, c = .first p ∧ p.topic = m.topic) ∨ ∃ data residue, c = .more data residue := by
  cases h with
  | deliver residue hfit h =>
    rcases List.mem_cons.1 hc with rfl | hc
    · exact Or.inl ⟨_, rfl, rfl⟩
    · exact Or.inr (h.exists_more hc)

/-- A message that fits into the buffer is one event. -/
theorem delivers_whole {bufLen : Nat} {m : Message}
    (hfit : m.header.length + m.topic.length + m.payload.length ≤ bufLen) (residue : Text) :
    Delivers bufLen m [.first ⟨m.header, m.topic, m.payload, residue⟩] := by
  have hlen : m.payload.length ≤ bufLen - (m.header.length + m.topic.length) := by omega
  have hleft : Continues bufLen
      (m.payload.drop (bufLen - (m.header.length + m.topic.length))) [] := by
    rw [List.drop_of_length_le hlen]
    exact .done
  have hdeliver := Delivers.deliver residue (by omega) hleft
  rwa [List.take_of_length_le hlen] at hdeliver

/-! ## What the handler writes -/

/-- The indices written by the branches that were entered: each that terminates the payload writes
a NUL behind it. -/
def DataEvent.stores (ev : DataEvent) (ran : List Branch) : List Nat :=
  ran.filterMap fun b => if b.use = .terminate then ev.data.map (· + ev.dataLen) else none

def zeroAt (mem : Text) (i : Nat) : Text := mem.set i 0

section Stores

variable (ev : DataEvent) (mem : Text)

theorem stores_append (ran ran' : List Branch) :
    ev.stores (ran ++ ran') = ev.stores ran ++ ev.stores ran' :=
  List.filterMap_append

theorem mem_enter {h : Handling} (hm : h.mem = (ev.stores h.ran).foldl zeroAt mem) (b : Branch) :
    (h.enter ev b).mem = (ev.stores (h.enter ev b).ran).foldl zeroAt mem := by
  have hstep : (ev.stores (h.ran ++ [b])).foldl zeroAt mem =
      (ev.stores [b]).foldl zeroAt h.mem := by
    rw [stores_append, List.foldl_append, hm]
  unfold Handling.enter
  cases hu : b.use <;> cases hd : ev.data <;> simp only [hstep] <;>
    simp [DataEvent.stores, hu, hd, zeroAt]

theorem mem_test {h : Handling} (hm : h.mem = (ev.stores h.ran).foldl zeroAt mem) (b : Branch) :
    (h.test ev b).mem = (ev.stores (h.test ev b).ran).foldl zeroAt mem := by
  unfold Handling.test
  split
  · exact hm
  · split
    · exact hm
    · split
      · exact mem_enter ev mem hm b
      · exact hm

/-- **The stores are all there is**: the handler leaves every other byte as it was. -/
theorem mem_mqttEventData (w : World) :
    (mqttEventData ev mem w).mem =
      (ev.stores (mqttEventData ev mem w).ran).foldl zeroAt mem := by
  have hrun : ∀ (l : List Branch) (h : Handling), h.mem = (ev.stores h.ran).foldl zeroAt mem →
      (l.foldl (Handling.test ev) h).mem =
        (ev.stores (l.foldl (Handling.test ev) h).ran).foldl zeroAt mem := by
    intro l
    induction l with
    | nil => exact fun h hm => hm
    | cons b l ih => exact fun h hm => ih _ (mem_test ev mem hm b)
  exact hrun _ _ rfl

end Stores

/-! ## The requirement -/

/-- The event is handled without a read or write through NULL and without a write outside of the
buffer. -/
structure Chunk.Safe (bufLen : Nat) (c : Chunk) (w : World) : Prop where
  no_null : (c.handle w).fault = none
  in_buffer : ∀ i ∈ c.event.stores (c.handle w).ran, i < bufLen

/-- The memory behind the buffer is left alone by an event that is safe. -/
theorem Chunk.Safe.drop_mem {bufLen : Nat} {c : Chunk} {w : World} (h : c.Safe bufLen w) :
    (c.handle w).mem.drop bufLen = c.mem.drop bufLen := by
  have hzero : ∀ (l : List Nat) (mem : Text), (∀ i ∈ l, i < bufLen) →
      (l.foldl zeroAt mem).drop bufLen = mem.drop bufLen := by
    intro l
    induction l with
    | nil => exact fun mem _ => rfl
    | cons i l ih =>
      intro mem hl
      have hi : i < bufLen := hl i List.mem_cons_self
      rw [List.foldl_cons, ih _ fun j hj => hl j (List.mem_cons_of_mem _ hj), zeroAt,
        List.drop_set_of_lt hi]
  unfold Chunk.handle
  rw [mem_mqttEventData]
  exact hzero _ _ h.in_buffer

/-- The messages that do no harm: of the tests on the topic and the text behind it, none succeeds
whose branch uses a payload that is not there, terminates a payload that ends where the buffer ends,
or sets a start time from a payload without a colon. -/
structure Publish.Harmless (bufLen : Nat) (m : Publish) : Prop where
  payload : m.payload = [] → ∀ b, Hearing.Hit m.topic m.rest b → b.use = .none
  room : m.payload ≠ [] → ∀ b, Hearing.Hit m.topic m.rest b → b.use = .terminate →
    m.header.length + m.topic.length + m.payload.length < bufLen
  colon : m.payload ≠ [] → ∀ num, Hearing.Hit m.topic m.rest (.dripSetStartTime num) →
    58 ∈ cstr m.payload

def Chunk.Harmless (bufLen : Nat) : Chunk → Prop
  | first m => m.Harmless bufLen
  | more _ _ => False

/-! ## Faults -/

namespace Hearing

section Fault

variable {topic payload : Text}

theorem fault_enter_of_not_stops {b : Branch} (hb : ¬ b.Stops payload) (h : Hearing) :
    (h.enter payload b).fault = none := by
  rw [← Option.not_isSome_iff_eq_none, fault_enter]
  exact hb

theorem fault_run_of_not_stops {l : List Branch} (hl : ∀ b ∈ l, ¬ b.Stops payload) {h : Hearing}
    (hf : h.fault = none) : (run topic payload l h).fault = none := by
  induction l generalizing h with
  | nil => exact hf
  | cons b l ih =>
    rw [run_cons]
    apply ih fun c hc => hl c (List.mem_cons_of_mem _ hc)
    by_cases hit : Hit topic h.text b
    · rw [test_of_hit hf hit, fault_enter_of_not_stops (hl b List.mem_cons_self)]
    · rw [test_of_not_hit hit, hf]

/-- Where every branch that would change the text stops the handler instead, all tests up to the
fault see the same text. -/
theorem fault_run_iff {l : List Branch} (hl : ∀ b ∈ l, b.use = .terminate → b.Stops payload)
    {h : Hearing} (hf : h.fault = none) :
    (run topic payload l h).fault = none ↔ ∀ b ∈ l, Hit topic h.text b → ¬ b.Stops payload := by
  induction l generalizing h with
  | nil => exact iff_of_true hf fun b hb => absurd hb List.not_mem_nil
  | cons b l ih =>
    have ih' := fun h' => ih (h := h') fun c hc => hl c (List.mem_cons_of_mem _ hc)
    rw [run_cons, List.forall_mem_cons]
    by_cases hit : Hit topic h.text b
    · by_cases hstop : b.Stops payload
      · have hfault : (h.enter payload b).fault.isSome = true := (fault_enter b payload h).2 hstop
        rw [test_of_hit hf hit, run_of_fault hfault]
        constructor
        · intro hnone
          rw [hnone] at hfault
          exact absurd hfault (by decide)
        · exact fun hall => absurd hstop (hall.1 hit)
      · have htext : (h.enter payload b).text = h.text := by
          rw [text_enter_of_not_stops hstop, if_neg]
          exact fun hu => hstop (hl b List.mem_cons_self hu)
        rw [test_of_hit hf hit, ih' _ (fault_enter_of_not_stops hstop h), htext]
        exact ⟨fun hall => ⟨fun _ => hstop, hall⟩, And.right⟩
    · rw [test_of_not_hit hit, ih' _ hf]
      exact ⟨fun hall => ⟨fun h => absurd h hit, hall⟩, And.right⟩

theorem not_stops_of_colon (hp : payload ≠ []) (hcolon : 58 ∈ cstr payload) (b : Branch) :
    ¬ b.Stops payload := by
  rintro (⟨-, h⟩ | ⟨-, h⟩)
  · exact hp h
  · exact h hcolon

theorem not_stops_later (hp : payload ≠ []) {b : Branch} (hb : b ∈ Branch.later) :
    ¬ b.Stops payload := by
  have hnot : ∀ num, Branch.dripSetStartTime num ∉ Branch.later := by decide
  rintro (⟨-, h⟩ | ⟨⟨num, rfl⟩, -⟩)
  · exact hp h
  · exact hnot num hb

/-- **The handler faults** exactly if a test that succeeds on the text it starts with belongs to a
branch that the payload stops. -/
theorem fault_run_all_iff {h : Hearing} (hf : h.fault = none) :
    (run topic payload Branch.all h).fault = none ↔
      ∀ b, Hit topic h.text b → ¬ b.Stops payload := by
  by_cases hp : payload = []
  · rw [fault_run_iff (fun b _ hu => Or.inl ⟨by rw [hu]; decide, hp⟩) hf]
    exact ⟨fun hall b => hall b (mem_all b), fun hall b _ => hall b⟩
  · by_cases hcolon : 58 ∈ cstr payload
    · have hstops := not_stops_of_colon hp hcolon
      exact iff_of_true (fault_run_of_not_stops (fun b _ => hstops b) hf) fun b _ => hstops b
    · -- only the start times stop the handler, and nothing is terminated before them
      let front : List Branch :=
        Branch.unterminated ++ [.dripSetStartTime 0, .dripSetStartTime 1, .dripSetStartTime 2]
      have hfront : ∀ b ∈ front, b.use = .terminate → ∃ num, b = .dripSetStartTime num := by
        decide
      have hiff : (run topic payload front h).fault = none ↔
          ∀ b ∈ front, Hit topic h.text b → ¬ b.Stops payload :=
        fault_run_iff (fun b hb hu => Or.inr ⟨hfront b hb hu, hcolon⟩) hf
      have hlater : (run topic payload Branch.all h).fault = none ↔
          (run topic payload front h).fault = none := by
        show (run topic payload (front ++ Branch.later) h).fault = none ↔ _
        rw [run_append]
        by_cases hnone : (run topic payload front h).fault = none
        · exact iff_of_true (fault_run_of_not_stops (fun b hb => not_stops_later hp hb) hnone) hnone
        · rw [run_of_fault (Option.isSome_iff_ne_none.2 hnone)]
      rw [hlater, hiff]
      refine ⟨fun hall b hit => ?_, fun hall b _ => hall b⟩
      rcases List.mem_append.1 (mem_all b) with hb | hb
      · exact hall b hb hit
      · exact not_stops_later hp hb

end Fault

/-! ## Terminated payloads -/

theorem not_stops_of_use_ne {payload : Text} (hp : payload ≠ []) {b : Branch}
    (hb : b.use ≠ .terminate) : ¬ b.Stops payload := by
  rintro (⟨-, h⟩ | ⟨⟨num, rfl⟩, -⟩)
  · exact hp h
  · exact hb rfl

/-- A payload that is there is terminated exactly if a test of such a branch succeeds on the text
the run starts with: the text is the same until then, and nothing stops the handler before. -/
theorem exists_terminate_ran_iff {topic payload : Text} (hp : payload ≠ []) (l : List Branch)
    {h : Hearing} (hf : h.fault = none) (hran : ∀ b ∈ h.ran, b.use ≠ .terminate) :
    (∃ b ∈ (run topic payload l h).ran, b.use = .terminate) ↔
      ∃ b ∈ l, Hit topic h.text b ∧ b.use = .terminate := by
  induction l generalizing h with
  | nil =>
    refine iff_of_false ?_ ?_
    · rintro ⟨b, hb, hu⟩
      exact hran b hb hu
    · rintro ⟨b, hb, -⟩
      cases hb
  | cons b l ih =>
    rw [run_cons, List.exists_mem_cons_iff]
    by_cases hit : Hit topic h.text b
    · rw [test_of_hit hf hit]
      by_cases hu : b.use = .terminate
      · refine iff_of_true ⟨b, ?_, hu⟩ (Or.inl ⟨hit, hu⟩)
        apply (ran_prefix_run topic payload l (h.enter payload b)).subset
        rw [ran_enter]
        exact List.mem_append_right _ List.mem_cons_self
      · have hstop := not_stops_of_use_ne hp hu
        have htext : (h.enter payload b).text = h.text := by
          rw [text_enter_of_not_stops hstop, if_neg hu]
        have hran' : ∀ c ∈ (h.enter payload b).ran, c.use ≠ .terminate := by
          rw [ran_enter, List.forall_mem_append]
          exact ⟨hran, fun c hc => List.mem_singleton.1 hc ▸ hu⟩
        rw [ih (fault_enter_of_not_stops hstop h) hran', htext]
        exact (or_iff_right fun hb => hu hb.2).symm
    · rw [test_of_not_hit hit, ih hf hran]
      exact (or_iff_right fun hb => hit hb.1).symm

end Hearing

/-! ## Safe events -/

theorem stores_handle_of_nil {m : Publish} (hp : m.payload = []) (w : World) :
    m.event.stores (m.handle w).ran = [] := by
  have hdata : m.event.data = none := by
    unfold Publish.event
    rw [hp]
    rfl
  unfold DataEvent.stores
  rw [List.filterMap_eq_nil_iff]
  intro b _
  rw [hdata, Option.map_none, ite_self]

section First

variable {m : Publish} (htopic : 0 ∉ m.topic) (w : World)

include htopic

theorem fault_handle_iff :
    (m.handle w).fault = none ↔ ∀ b, Hearing.Hit m.topic m.rest b → ¬ b.Stops m.payload := by
  rw [(handle_reads htopic w).fault]
  exact Hearing.fault_run_all_iff rfl

/-- Where there is a payload, the stores are one index or none. -/
theorem stores_handle_iff (hp : m.payload ≠ []) (bufLen : Nat) :
    (∀ i ∈ m.event.stores (m.handle w).ran, i < bufLen) ↔
      ∀ b, Hearing.Hit m.topic m.rest b → b.use = .terminate →
        m.header.length + m.topic.length + m.payload.length < bufLen := by
  have hdata : m.event.data = some (m.header.length + m.topic.length) := by
    unfold Publish.event
    exact if_pos (List.length_pos_iff.2 hp)
  have hmem : ∀ i, i ∈ m.event.stores (m.handle w).ran ↔
      (∃ b ∈ (m.hear w).ran, b.use = .terminate) ∧
        i = m.header.length + m.topic.length + m.payload.length := by
    intro i
    unfold DataEvent.stores
    rw [(handle_reads htopic w).ran, List.mem_filterMap]
    constructor
    · rintro ⟨b, hb, hi⟩
      split at hi
      · next hu =>
        rw [hdata, Option.map_some] at hi
        exact ⟨⟨b, hb, hu⟩, (Option.some.inj hi).symm⟩
      · cases hi
    · rintro ⟨⟨b, hb, hu⟩, rfl⟩
      refine ⟨b, hb, ?_⟩
      rw [if_pos hu, hdata]
      rfl
  have hterm : (∃ b ∈ (m.hear w).ran, b.use = .terminate) ↔
      ∃ b ∈ Branch.all, Hearing.Hit m.topic m.rest b ∧ b.use = .terminate :=
    Hearing.exists_terminate_ran_iff hp Branch.all (h := ⟨w, m.rest, none, []⟩) rfl
      (fun b hb => absurd hb List.not_mem_nil)
  constructor
  · intro hall b hit hu
    exact hall _ ((hmem _).2 ⟨hterm.2 ⟨b, mem_all b, hit, hu⟩, rfl⟩)
  · intro hall i hi
    obtain ⟨hran, rfl⟩ := (hmem i).1 hi
    obtain ⟨b, -, hit, hu⟩ := hterm.1 hran
    exact hall b hit hu

theorem first_safe_iff (bufLen : Nat) : (Chunk.first m).Safe bufLen w ↔ m.Harmless bufLen := by
  have hfault : (Chunk.first m |>.handle w).fault = none ↔ _ := fault_handle_iff htopic w
  by_cases hp : m.payload = []
  · constructor
    · intro h
      refine ⟨fun _ b hit => ?_, fun h => absurd hp h, fun h => absurd hp h⟩
      by_contra hu
      exact hfault.1 h.no_null b hit (Or.inl ⟨hu, hp⟩)
    · intro h
      refine ⟨hfault.2 fun b hit hstop => ?_, fun i hi => ?_⟩
      · have hu := h.payload hp b hit
        rcases hstop with ⟨hne, -⟩ | ⟨⟨num, rfl⟩, -⟩
        · exact hne hu
        · cases hu
      · have hnil : (Chunk.first m).event.stores ((Chunk.first m).handle w).ran = [] :=
          stores_handle_of_nil hp w
        rw [hnil] at hi
        cases hi
  · have hstores := stores_handle_iff htopic w hp bufLen
    constructor
    · intro h
      refine ⟨fun h => absurd h hp, fun _ => hstores.1 h.in_buffer, fun _ num hit => ?_⟩
      by_contra hcolon
      exact hfault.1 h.no_null _ hit (Or.inr ⟨⟨num, rfl⟩, hcolon⟩)
    · intro h
      refine ⟨hfault.2 fun b hit hstop => ?_, hstores.2 (h.room hp)⟩
      rcases hstop with ⟨-, hnil⟩ | ⟨⟨num, rfl⟩, hcolon⟩
      · exact hp hnil
      · exact hcolon (h.colon hp num hit)

end First

/-- An event without a topic is read through NULL by the first test. -/
theorem fault_more (data residue : Text) (w : World) :
    ((Chunk.more data residue).handle w).fault = some .nullRead := by
  have hstop : ∀ (ev : DataEvent) (l : List Branch) (h : Handling), h.fault = some .nullRead →
      (l.foldl (Handling.test ev) h).fault = some .nullRead := by
    intro ev l
    induction l with
    | nil => exact fun h hf => hf
    | cons b l ih =>
      intro h hf
      apply ih
      unfold Handling.test
      rw [if_pos (by rw [hf]; rfl), hf]
  have hall : Branch.all = .tempRequest :: Branch.all.tail := rfl
  unfold Chunk.handle mqttEventData
  rw [hall, List.foldl_cons]
  apply hstop
  rfl

/-- **Memory safety of the handler.** Take any event of any delivery of any message on a subscribed
topic, with a buffer of any length. In every state of the firmware, the handler neither uses a NULL
pointer nor writes outside of the buffer exactly if the event is harmless: it is the first of its
message, and of the tests that succeed on its text none belongs to a branch that uses an empty
payload, terminates a payload at the end of the buffer, or sets a start time without a colon. -/
theorem safe_iff {bufLen : Nat} {m : Message} (ht : m.topic ∈ subscribed) {chunks : List Chunk}
    (hd : Delivers bufLen m chunks) {c : Chunk} (hc : c ∈ chunks) (w : World) :
    c.Safe bufLen w ↔ c.Harmless bufLen := by
  rcases hd.cases_mem hc with ⟨p, rfl, htopic⟩ | ⟨data, residue, rfl⟩
  · refine first_safe_iff ?_ w bufLen
    rw [htopic]
    exact zero_notMem_of_subscribed _ ht
  · refine iff_of_false (fun h => ?_) id
    have hfault := h.no_null
    rw [fault_more] at hfault
    cases hfault

def duration30 : Message := ⟨[0x30, 34, 0, 30], dripSetDurationTopic 0, ascii "30"⟩

theorem duration30_safe :
    Delivers 1024 duration30 [.first shorterDuration] ∧
      (Chunk.first shorterDuration).Safe 1024 (cleared fun _ => none) := by
  have hd : Delivers 1024 duration30 [.first shorterDuration] :=
    delivers_whole (by decide +kernel) (ascii "0 minutes")
  have hstart : ∀ num, ¬ Hearing.Hit shorterDuration.topic shorterDuration.rest
      (.dripSetStartTime num) := by decide +kernel
  have hne : shorterDuration.payload ≠ [] := by decide
  refine ⟨hd, (safe_iff (by decide +kernel) hd List.mem_cons_self _).2 ⟨?_, ?_, ?_⟩⟩
  · exact fun h => absurd h hne
  · exact fun _ _ _ _ => by decide +kernel
  · exact fun _ num hit => absurd hit (hstart num)

/-- A duration of no bytes at all, one that fills a buffer of 1024 bytes to its end, and one that is
a byte longer. -/
def emptyDuration : Message := ⟨[0x30, 32, 0, 30], dripSetDurationTopic 0, []⟩

def fullDuration : Message :=
  ⟨[0x30, 253, 7, 0, 30], dripSetDurationTopic 0, List.replicate 989 48⟩

def longDuration : Message :=
  ⟨[0x30, 254, 7, 0, 30], dripSetDurationTopic 0, List.replicate 989 48 ++ [48]⟩

theorem length_dripSetDurationTopic : (dripSetDurationTopic 0).length = 30 := by decide +kernel

theorem delivers_long :
    Delivers 1024 longDuration
      [.first ⟨longDuration.header, longDuration.topic, List.replicate 989 48, []⟩,
        .more [48] []] := by
  have hroom : 1024 - (longDuration.header.length + longDuration.topic.length) =
      (List.replicate 989 (48 : UInt8)).length := by
    have htopic : longDuration.topic.length = 30 := length_dripSetDurationTopic
    have hheader : longDuration.header.length = 5 := rfl
    rw [htopic, hheader, List.length_replicate]
  have htake : longDuration.payload.take
      (1024 - (longDuration.header.length + longDuration.topic.length)) =
      List.replicate 989 48 := by
    rw [hroom]
    exact List.take_left
  have hleft : Continues 1024 (longDuration.payload.drop
      (1024 - (longDuration.header.length + longDuration.topic.length))) [.more [48] []] := by
    have hdrop : longDuration.payload.drop (List.replicate 989 (48 : UInt8)).length = [48] :=
      List.drop_left
    have hread : Continues 1024 ([48] ++ []) [.more [48] []] :=
      .read [] (List.cons_ne_nil _ _) (by decide) .done
    rw [hroom, hdrop]
    exact hread
  have hdeliver := Delivers.deliver [] (by decide +kernel) hleft
  rwa [htake] at hdeliver

/-- The first is written through NULL, the second behind the buffer, and the second event of the
third is read through NULL. -/
theorem durations_not_safe :
    dripSetDurationTopic 0 ∈ subscribed ∧
      (Delivers 1024 emptyDuration [.first ⟨emptyDuration.header, emptyDuration.topic, [], []⟩] ∧
        ¬ (Chunk.first ⟨emptyDuration.header, emptyDuration.topic, [], []⟩).Safe 1024
          (cleared fun _ => none)) ∧
      (Delivers 1024 fullDuration
          [.first ⟨fullDuration.header, fullDuration.topic, fullDuration.payload, []⟩] ∧
        ¬ (Chunk.first ⟨fullDuration.header, fullDuration.topic, fullDuration.payload, []⟩).Safe
          1024 (cleared fun _ => none)) ∧
      Delivers 1024 longDuration
          [.first ⟨longDuration.header, longDuration.topic, List.replicate 989 48, []⟩,
            .more [48] []] ∧
        ¬ (Chunk.more [48] []).Safe 1024 (cleared fun _ => none) := by
  have hzero : 0 ∉ dripSetDurationTopic 0 := by decide +kernel
  have hown : ∀ text, Hearing.Hit (dripSetDurationTopic 0) text (.dripSetDuration 0) :=
    fun text => List.infix_append [] _ text
  have htopic : fullDuration.topic.length = 30 := length_dripSetDurationTopic
  have hheader : fullDuration.header.length = 5 := rfl
  have hpayload : fullDuration.payload.length = 989 := List.length_replicate
  refine ⟨by decide +kernel, ⟨delivers_whole (by decide +kernel) [], fun h => ?_⟩,
    ⟨delivers_whole (by omega) [], fun h => ?_⟩, delivers_long, fun h => ?_⟩
  · have hharmless := (first_safe_iff hzero _ 1024).1 h
    exact absurd (hharmless.payload rfl _ (hown _)) (by decide)
  · have hharmless : Publish.Harmless 1024 ⟨fullDuration.header, fullDuration.topic,
        fullDuration.payload, []⟩ := (first_safe_iff hzero _ 1024).1 h
    have hne : fullDuration.payload ≠ [] := List.ne_nil_of_length_pos (by omega)
    have hroom := hharmless.room hne (.dripSetDuration 0) (hown _) rfl
    dsimp only at hroom
    omega
  · have hfault := h.no_null
    rw [fault_more] at hfault
    cases hfault

end GreenHouse
