import GreenHouse.Mqtt.Deliver

/-!
# Any bytes

What the client does with bytes that are no packets. A remaining length has at most four bytes in
the format; the reader takes up to five and does not check that the last one ends it.

* `received_in_buffer`: as long as the remaining lengths end within four bytes, whatever else the
  bytes are, nothing is read behind the end of the input buffer and every event points into it.
* `receive_overruns`: a remaining length that does not end is read on and on, behind the end of the
  buffer as far as the sender likes.
-/

namespace GreenHouse

open CText

/-! ## Lengths that end -/

/-- Of a packet that begins with these bytes, the remaining length ends within four bytes. -/
def ShortLength (bytes : Text) : Prop :=
  5 ≤ bytes.length → ∃ i < 4, Varint.more (bytes.getD (i + 1) 0) = false

instance (bytes : Text) : Decidable (ShortLength bytes) :=
  inferInstanceAs (Decidable (_ → ∃ i < 4, _))

section Length

variable {s : Inbox} {t : Transport}

theorem size_le_of_short (h : ShortLength (s.read ++ t.pending)) :
    Varint.size s.read.tail ≤ 4 := by
  by_cases hfive : 5 ≤ s.read.length
  · obtain ⟨i, hi, hmore⟩ := h (by rw [List.length_append]; omega)
    rw [List.getD_append _ _ _ _ (by omega)] at hmore
    have htail : s.read.tail.getD i 0 = s.read.getD (i + 1) 0 := by
      cases hread : s.read with
      | nil => rfl
      | cons b bs => rw [List.tail_cons, List.getD_cons_succ]
    rw [← htail] at hmore
    exact (Varint.size_le_of_not_more hmore).trans hi
  · refine (Varint.size_le_length _).trans ?_
    rw [List.length_tail]
    omega

/-- The length of such a packet is no `int` that is negative, and its fixed header has five bytes at
most. -/
theorem mqttGetTotalLength_of_short (h : ShortLength (s.read ++ t.pending)) :
    (mqttGetTotalLength s.read).1 < 2 ^ 31 ∧ (mqttGetTotalLength s.read).2 ≤ 5 := by
  have hsize := size_le_of_short h
  have hpow : 128 ^ Varint.size s.read.tail ≤ 128 ^ 4 := Nat.pow_le_pow_right (by decide) hsize
  have hvalue := Varint.value_lt_size s.read.tail
  have hloop := lengthLoop_eq s.read.tail (i := 1) (by decide)
    (by rw [Nat.sub_self, pow_zero]; omega : 0 + 128 ^ (1 - 1) * Varint.value s.read.tail < 2 ^ 32)
  unfold mqttGetTotalLength
  rw [hloop]
  dsimp only
  rw [Nat.sub_self, pow_zero, Nat.mod_eq_of_lt (by omega)]
  omega

end Length

/-! ## One call -/

/-- At most `n` bytes are in the buffer, and the stream is what it was unless the call fails. -/
def Stage.InBuffer (n : Nat) (stream : Text) : Stage → Prop :=
  Stage.Sat (fun r s t => s.read.length ≤ n ∧ (r = .failed ∨ s.read ++ t.pending = stream))
    fun s t => s.read.length ≤ n ∧ s.read ++ t.pending = stream

section Call

variable {stream : Text} {bufLen : Nat} {s : Inbox} {t : Transport}

theorem Stage.InBuffer.mono {m n : Nat} (hle : m ≤ n) {x : Stage} (h : x.InBuffer m stream) :
    x.InBuffer n stream :=
  Stage.Sat.mono h (fun _ _ _ h => ⟨h.1.trans hle, h.2⟩) fun _ _ h => ⟨h.1.trans hle, h.2⟩

theorem Stage.InBuffer.ite {n : Nat} {P : Prop} [Decidable P] {x y : Stage}
    (hx : P → x.InBuffer n stream) (hy : ¬ P → y.InBuffer n stream) :
    (if P then x else y).InBuffer n stream := by
  split
  · next h => exact hx h
  · next h => exact hy h

theorem fetch_inBuffer (h : s.read ++ t.pending = stream) (n : Nat) :
    (fetch n s t).InBuffer (s.read.length + n) stream := by
  unfold fetch
  rcases t.read_cases n with ⟨t', ht', -⟩ | ⟨data, t', ht', hbrings⟩
  · rw [ht']
    exact ⟨Nat.le_add_right _ _, Or.inl rfl⟩
  · rw [ht']
    have hstream : s.read ++ data ++ t'.pending = stream := by
      rw [List.append_assoc, ← hbrings.pending, h]
    cases data with
    | nil =>
      rw [List.append_nil] at hstream
      exact ⟨Nat.le_add_right _ _, Or.inr hstream⟩
    | cons b data =>
      refine ⟨?_, hstream⟩
      show (s.read ++ b :: data).length ≤ _
      rw [List.length_append]
      exact Nat.add_le_add_left hbrings.length_le _

theorem readFirst_inBuffer (h : s.read ++ t.pending = stream) (hbuf : 0 < bufLen)
    (hle : s.read.length ≤ bufLen) : (readFirst s t).InBuffer bufLen stream := by
  unfold readFirst
  refine .ite (fun hempty => ?_) fun _ => ⟨hle, h⟩
  rcases t.read_cases 1 with ⟨t', ht', -⟩ | ⟨data, t', ht', hbrings⟩
  · rw [ht']
    exact ⟨hle, Or.inl rfl⟩
  · rw [ht']
    have hpending := hbrings.pending
    cases data with
    | nil => exact ⟨hle, Or.inr (by rw [← h, hpending]; rfl)⟩
    | cons b data =>
      obtain rfl : data = [] := List.length_eq_zero_iff.1 (by have := hbrings.length_le; simpa)
      refine .ite (fun _ => ⟨?_, ?_⟩) fun _ => ⟨hle, Or.inl rfl⟩
      · show (s.read ++ [b]).length ≤ _
        rw [List.length_append, hempty]
        exact hbuf
      · rw [← h, hpending]
        exact List.append_assoc _ _ _

theorem readLengthLoop_inBuffer (h : s.read ++ t.pending = stream) (n : Nat)
    (hle : s.read.length ≤ 5) : (readLengthLoop n s t).InBuffer 6 stream := by
  induction n generalizing s t with
  | zero => exact ⟨Nat.le_succ_of_le hle, h⟩
  | succ n ih =>
    refine ((fetch_inBuffer h 1).mono (Nat.succ_le_succ hle)).andThen fun s' t' hs' => ?_
    refine Stage.InBuffer.ite (fun hopen => ih hs'.2 ?_) fun _ => hs'
    have hsix := (Bool.and_eq_true_iff.1 hopen).1
    exact Nat.le_of_lt_succ (of_decide_eq_true hsix)

theorem readLength_inBuffer (h : s.read ++ t.pending = stream) (hbuf : 10 ≤ bufLen)
    (hle : s.read.length ≤ bufLen) : (readLength s t).InBuffer bufLen stream := by
  unfold readLength
  refine .ite (fun hcase => ?_) fun _ => ⟨hle, h⟩
  refine (readLengthLoop_inBuffer h 5 ?_).mono (by omega)
  rcases hcase with hone | hopen
  · omega
  · exact Nat.le_of_lt_succ (of_decide_eq_true (Bool.and_eq_true_iff.1 hopen).1)

theorem readRest_inBuffer (h : s.read ++ t.pending = stream) (total : Nat) {upTo : Nat}
    (hle : s.read.length ≤ bufLen) (hupTo : upTo ≤ bufLen) :
    (readRest total upTo s t).InBuffer bufLen stream := by
  unfold readRest
  refine .ite (fun hlt => ?_) fun _ => ⟨hle, Or.inr h⟩
  refine ((fetch_inBuffer h _).mono (by omega)).andThen fun s' t' hs' => ?_
  exact Stage.InBuffer.ite (fun _ => ⟨hs'.1, Or.inr hs'.2⟩) fun _ => ⟨hs'.1, Or.inr hs'.2⟩

theorem readTopicLength_inBuffer (h : s.read ++ t.pending = stream) {fixed : Nat}
    (hfixed : fixed ≤ 5) (hbuf : 10 ≤ bufLen) (hle : s.read.length ≤ bufLen) :
    (readTopicLength fixed s t).InBuffer bufLen stream := by
  unfold readTopicLength
  refine .ite (fun hlt => ?_) fun _ => ⟨hle, h⟩
  refine ((fetch_inBuffer h _).mono (by omega)).andThen fun s' t' hs' => ?_
  exact Stage.InBuffer.ite (fun _ => ⟨hs'.1, Or.inr hs'.2⟩) fun _ => hs'

theorem readBody_inBuffer (h : s.read ++ t.pending = stream) (hshort : ShortLength stream)
    (hbuf : 10 ≤ bufLen) (hle : s.read.length ≤ bufLen) :
    (readBody bufLen s t).InBuffer bufLen stream := by
  obtain ⟨hint, hfixed⟩ := mqttGetTotalLength_of_short (h ▸ hshort)
  unfold readBody
  dsimp only
  refine .ite (fun _ => .ite (fun _ => ?_) fun _ => ⟨hle, Or.inl rfl⟩) fun hfits => ?_
  · refine (readTopicLength_inBuffer h hfixed hbuf hle).andThen fun s' t' hs' => ?_
    exact Stage.InBuffer.ite (fun _ => ⟨hs'.1, Or.inl rfl⟩) fun _ =>
      readRest_inBuffer hs'.2 _ hs'.1 (Nat.le_refl _)
  · exact readRest_inBuffer h _ hle (by omega)

/-- **A call stays in the buffer**, if the remaining length ends. -/
theorem mqttMessageReceive_inBuffer (hshort : ShortLength (s.read ++ t.pending))
    (hbuf : 10 ≤ bufLen) (hle : s.read.length ≤ bufLen) :
    (mqttMessageReceive bufLen s t).InBuffer bufLen (s.read ++ t.pending) := by
  have hheader : ((readFirst s t).andThen readLength).InBuffer bufLen (s.read ++ t.pending) :=
    (readFirst_inBuffer rfl (by omega) hle).andThen fun s' t' hs' =>
      readLength_inBuffer hs'.2 hbuf hs'.1
  exact hheader.andThen fun s' t' hs' => readBody_inBuffer hs'.2 hshort hbuf hs'.1

end Call

/-! ## Events -/

/-- What the event points at lies in the buffer. -/
structure DataEvent.Within (bufLen : Nat) (ev : DataEvent) : Prop where
  topic : ∀ i ∈ ev.topic, i + ev.topicLen ≤ bufLen
  data : ∀ i ∈ ev.data, i + ev.dataLen ≤ bufLen

section Events

variable {σ : Type} {bufLen : Nat} {dispatch : DataEvent → Text → σ → Option (Text × σ)}

theorem post_within {ev : DataEvent} (hev : ev.Within bufLen) {mem : Text} {app : σ}
    {k : Text → σ → List Posted × Delivery σ}
    (hk : ∀ mem app, ∀ p ∈ (k mem app).1, p.event.Within bufLen) :
    ∀ p ∈ (post dispatch ev mem app k).1, p.event.Within bufLen := by
  unfold post
  split
  · exact List.forall_mem_singleton.2 hev
  · exact List.forall_mem_cons.2 ⟨hev, hk _ _⟩

theorem deliverRest_within (turns left : Nat) (t : Transport) (mem : Text) (app : σ) :
    ∀ p ∈ (deliverRest bufLen dispatch turns left t mem app).1, p.event.Within bufLen := by
  induction turns generalizing left t mem app with
  | zero => exact List.forall_mem_nil _
  | succ turns ih =>
    rw [deliverRest]
    split
    · exact List.forall_mem_nil _
    · rcases t.read_cases (min left bufLen) with ⟨t', ht', -⟩ | ⟨data, t', ht', hbrings⟩
      · rw [ht']
        exact List.forall_mem_nil _
      · rw [ht']
        cases data with
        | nil => exact List.forall_mem_nil _
        | cons b data =>
          refine post_within ⟨fun i hi => absurd hi (Option.not_mem_none i), ?_⟩
            fun mem app => ih _ _ mem app
          rintro i hi
          obtain rfl : 0 = i := Option.some.inj hi
          rw [Nat.zero_add]
          exact hbrings.length_le.trans (Nat.min_le_right _ _)

theorem deliverPublish_within (total : Nat) {s : Inbox} (hle : s.read.length ≤ bufLen)
    (t : Transport) (app : σ) :
    ∀ p ∈ (deliverPublish bufLen dispatch total s t app).1, p.event.Within bufLen := by
  obtain ⟨htopic, hdata⟩ := publish_in_bounds s.read
  unfold deliverPublish
  split
  · exact List.forall_mem_nil _
  · next topic topicLen hget =>
    refine post_within ⟨?_, ?_⟩ fun mem app => deliverRest_within _ _ _ mem app
    · rintro i hi
      obtain rfl : topic = i := Option.some.inj hi
      exact (htopic _ _ hget).trans hle
    · unfold publishEvent
      dsimp only
      cases hpayload : mqttGetPublishData s.read with
      | none => exact nofun
      | some d =>
        obtain ⟨d, n⟩ := d
        rintro i hi
        have hbound := (hdata d n hpayload).1
        split at hi
        · obtain rfl : d = i := Option.some.inj hi
          exact hbound.trans hle
        · cases hi

/-- What a call keeps. -/
theorem mqttProcessReceive_within (hbuf : 10 ≤ bufLen) {c : Client σ}
    (hle : c.inbox.read.length ≤ bufLen)
    (hshort : ShortLength (c.inbox.read ++ c.transport.pending)) (answered : Bool) :
    (mqttProcessReceive bufLen dispatch answered c).1.inbox.read.length ≤ bufLen ∧
      ∀ p ∈ (mqttProcessReceive bufLen dispatch answered c).2, p.event.Within bufLen := by
  have hcall := mqttMessageReceive_inBuffer hshort hbuf hle
  unfold mqttProcessReceive
  cases hx : mqttMessageReceive bufLen c.inbox c.transport with
  | go s t =>
    rw [hx] at hcall
    exact ⟨hcall.1, List.forall_mem_nil _⟩
  | stop r s t =>
    rw [hx] at hcall
    obtain ⟨hread, -⟩ := hcall
    cases r with
    | failed => exact ⟨hread, List.forall_mem_nil _⟩
    | waiting => exact ⟨hread, List.forall_mem_nil _⟩
    | message total =>
      have hwithin : ∀ p ∈ (deliverPublish bufLen dispatch total s t c.app).1,
          p.event.Within bufLen := deliverPublish_within total hread t c.app
      dsimp only
      split
      · generalize deliverPublish bufLen dispatch total s t c.app = r at hwithin ⊢
        obtain ⟨posted, d⟩ := r
        cases d with
        | done mem t' app => exact ⟨Nat.zero_le _, hwithin⟩
        | failed => exact ⟨hread, hwithin⟩
        | crashed => exact ⟨hread, hwithin⟩
      · exact ⟨Nat.zero_le _, List.forall_mem_nil _⟩

/-- **Whatever the bytes are.** As long as the remaining lengths end within four bytes, in any
number of calls, however the transport cuts the bytes up and whatever the application does: no call
reads behind the end of the buffer, and no event points behind it. -/
theorem received_in_buffer (hbuf : 10 ≤ bufLen) {answers : List Bool} {c : Client σ}
    (hle : c.inbox.read.length ≤ bufLen)
    (hshort : (client bufLen dispatch).Along
      (fun c _ => ShortLength (c.inbox.read ++ c.transport.pending)) c answers) :
    (client bufLen dispatch).Along (fun c _ =>
        (mqttMessageReceive bufLen c.inbox c.transport).InBuffer bufLen
          (c.inbox.read ++ c.transport.pending)) c answers ∧
      ∀ p ∈ ((client bufLen dispatch).run c answers).flatten, p.event.Within bufLen := by
  induction answers generalizing c with
  | nil => exact ⟨trivial, List.forall_mem_nil _⟩
  | cons answered answers ih =>
    obtain ⟨hfirst, hrest⟩ := hshort
    have hstep : ((client bufLen dispatch).step c answered).1.inbox.read.length ≤ bufLen ∧
        ∀ p ∈ ((client bufLen dispatch).step c answered).2, p.event.Within bufLen := by
      show (if c.up then _ else _ : Client σ × List Posted).1.inbox.read.length ≤ bufLen ∧
        ∀ p ∈ (if c.up then _ else _ : Client σ × List Posted).2, _
      split
      · exact mqttProcessReceive_within hbuf hle hfirst answered
      · exact ⟨hle, List.forall_mem_nil _⟩
    obtain ⟨halong, hposted⟩ := ih hstep.1 hrest
    refine ⟨⟨mqttMessageReceive_inBuffer hfirst hbuf hle, halong⟩, ?_⟩
    rw [Mealy.run_cons, List.flatten_cons]
    intro p hp
    rcases List.mem_append.1 hp with hp | hp
    · exact hstep.2 p hp
    · exact hposted p hp

end Events

/-- A PUBLISH, one whose topic is longer than the packet, and a SUBACK without a body: one event is
posted. -/
theorem received_in_buffer_malformed :
    let dispatch := fun (_ : DataEvent) (mem : Text) (_ : Unit) => some (mem, ())
    let c : Client Unit := ⟨⟨[], []⟩, ⟨[0x30, 5, 0, 2, 0x67, 0x72, 0x31] ++
      [0x30, 4, 0xff, 0xff, 0x67, 0x72] ++ [0x90, 0], List.replicate 12 (some 8)⟩, (), true⟩
    (client 16 dispatch).Along
        (fun c _ => ShortLength (c.inbox.read ++ c.transport.pending)) c [true, true, true] ∧
      ((client 16 dispatch).run c [true, true, true]).flatten.length = 1 ∧
      (client 16 dispatch).Along (fun c _ =>
          (mqttMessageReceive 16 c.inbox c.transport).InBuffer 16
            (c.inbox.read ++ c.transport.pending)) c [true, true, true] ∧
        ∀ p ∈ ((client 16 dispatch).run c [true, true, true]).flatten, p.event.Within 16 := by
  intro dispatch c
  have hshort : (client 16 dispatch).Along
      (fun c _ => ShortLength (c.inbox.read ++ c.transport.pending)) c [true, true, true] := by
    decide +kernel
  exact ⟨hshort, by decide +kernel, received_in_buffer (by decide) (by decide) hshort⟩

/-! ## Lengths that do not end -/

/-- A PUBLISH with a remaining length that does not end. -/
def flood (n : Nat) : Text := 0x30 :: 0x82 :: List.replicate n 0x80

theorem length_flood (n : Nat) : (flood n).length = n + 2 := by
  simp [flood]

theorem lengthLoop_replicate (n i totlen : Nat) (h : totlen < 2 ^ 32) :
    lengthLoop (List.replicate n 0x80) i totlen = (totlen, i + n) := by
  induction n generalizing i with
  | zero => rfl
  | succ n ih =>
    have hzero : (0x80 : UInt8).toNat % 128 = 0 := by decide
    have hsame : (totlen + 0 * 128 ^ (i - 1)) % 2 ^ 32 = totlen := by
      rw [Nat.zero_mul, Nat.add_zero, Nat.mod_eq_of_lt h]
    rw [List.replicate_succ, lengthLoop, hzero, hsame, if_pos (by decide), ih, Nat.add_right_comm,
      Nat.add_assoc]

theorem mqttGetTotalLength_flood {n : Nat} (h : n + 4 < 2 ^ 31) :
    mqttGetTotalLength (flood n) = (n + 4, n + 2) := by
  have hloop : lengthLoop (flood n).tail 1 0 = (2, n + 2) := by
    show lengthLoop (0x82 :: List.replicate n 0x80) 1 0 = _
    have htwo : (0 + (0x82 : UInt8).toNat % 128 * 128 ^ (1 - 1)) % 2 ^ 32 = 2 := by decide
    rw [lengthLoop, htwo, if_pos (by decide), lengthLoop_replicate n 2 2 (by decide), Nat.add_comm]
  have hsum : (2 + (n + 2)) % 2 ^ 32 = n + 4 := by omega
  unfold mqttGetTotalLength
  rw [hloop]
  dsimp only
  rw [hsum]

theorem readBody_flood (bufLen : Nat) {n : Nat} (hlt : n + 4 < 2 ^ 31) (rest pending : Text)
    (reads : List (Option Nat)) :
    readBody bufLen ⟨flood n, rest⟩ ⟨0x80 :: pending, some 1 :: reads⟩ =
      .stop .waiting ⟨flood (n + 1), rest.drop 1⟩ ⟨pending, reads⟩ := by
  have hlen := length_flood n
  have hput : Inbox.put [0x80] ⟨flood n, rest⟩ = ⟨flood (n + 1), rest.drop 1⟩ := by
    unfold Inbox.put flood
    dsimp only
    rw [List.replicate_succ']
    rfl
  have hfetch : fetch 2 ⟨flood n, rest⟩ ⟨0x80 :: pending, some 1 :: reads⟩ =
      .go ⟨flood (n + 1), rest.drop 1⟩ ⟨pending, reads⟩ := by
    rw [← hput]
    rfl
  have hnext : (flood (n + 1)).length < n + 4 := by
    rw [length_flood]
    omega
  unfold readBody
  dsimp only
  rw [mqttGetTotalLength_flood hlt]
  dsimp only
  split
  · -- behind the end of the buffer it looks for the length of the topic
    have htype : mqttGetType ((flood n).getD 0 0) = mqttMsgTypePublish := by
      rw [flood, List.getD_cons_zero]
      decide
    have htwo : n + 2 - (n + 2) + 2 = 2 := by omega
    unfold readTopicLength
    rw [if_pos htype]
    dsimp only
    rw [hlen, if_pos (by omega), htwo, hfetch, Stage.andThen]
    dsimp only
    rw [if_pos hnext, Stage.andThen]
  · have htwo : n + 4 - (n + 2) = 2 := by omega
    unfold readRest
    dsimp only
    rw [hlen, if_pos (by omega), htwo, hfetch, Stage.andThen]
    dsimp only
    rw [if_pos hnext]

/-- Each call reads one byte more, inside the buffer and behind its end. -/
theorem mqttMessageReceive_flood (bufLen : Nat) {n : Nat} (hn : 4 ≤ n) (hlt : n + 4 < 2 ^ 31)
    (rest pending : Text) (reads : List (Option Nat)) :
    mqttMessageReceive bufLen ⟨flood n, rest⟩ ⟨0x80 :: pending, some 1 :: reads⟩ =
      .stop .waiting ⟨flood (n + 1), rest.drop 1⟩ ⟨pending, reads⟩ := by
  have hlen := length_flood n
  have hfirst : readFirst ⟨flood n, rest⟩ ⟨0x80 :: pending, some 1 :: reads⟩ =
      .go ⟨flood n, rest⟩ ⟨0x80 :: pending, some 1 :: reads⟩ := if_neg (by rw [hlen]; omega)
  have hlength : readLength ⟨flood n, rest⟩ ⟨0x80 :: pending, some 1 :: reads⟩ =
      .go ⟨flood n, rest⟩ ⟨0x80 :: pending, some 1 :: reads⟩ := by
    refine if_neg ?_
    rintro (hone | hopen)
    · have hone : (flood n).length = 1 := hone
      omega
    · have hsix : (flood n).length < 6 := of_decide_eq_true (Bool.and_eq_true_iff.1 hopen).1
      omega
  unfold mqttMessageReceive
  rw [hfirst, Stage.andThen, hlength, Stage.andThen, readBody_flood bufLen hlt]

/-- The first call reads the first byte, five bytes of the length and one more. -/
theorem mqttMessageReceive_flood_first (bufLen : Nat) (rest pending : Text)
    (reads : List (Option Nat)) :
    mqttMessageReceive bufLen ⟨[], rest⟩ ⟨flood 5 ++ pending, List.replicate 7 (some 1) ++ reads⟩ =
      .stop .waiting ⟨flood 5, rest.drop 7⟩ ⟨pending, reads⟩ := by
  have hheader : (readFirst ⟨[], rest⟩
      ⟨flood 5 ++ pending, List.replicate 7 (some 1) ++ reads⟩).andThen readLength =
      .go ⟨flood 4, rest.drop 6⟩ ⟨0x80 :: pending, some 1 :: reads⟩ := by
    have hvalid : mqttHasValidMsgHdr 0x30 = true := by decide
    have hmore : Varint.more 0x82 = true ∧ Varint.more 0x80 = true := by decide
    simp [readFirst, readLength, readLengthLoop, fetch, Transport.read, Stage.andThen, Inbox.put,
      Inbox.lengthOpen, flood, List.replicate, hvalid, hmore]
  unfold mqttMessageReceive
  rw [hheader, Stage.andThen, readBody_flood bufLen (by decide), List.drop_drop]

theorem receiveCalls_flood (bufLen : Nat) {n k : Nat} (hn : 4 ≤ n) (hlt : n + k + 4 < 2 ^ 31)
    (rest : Text) :
    receiveCalls bufLen k ⟨flood n, rest⟩ ⟨List.replicate k 0x80, List.replicate k (some 1)⟩ =
      .stop .waiting ⟨flood (n + k), rest.drop k⟩ ⟨[], []⟩ := by
  induction k generalizing n rest with
  | zero => rfl
  | succ k ih =>
    rw [receiveCalls, List.replicate_succ, List.replicate_succ,
      mqttMessageReceive_flood bufLen hn (by omega)]
    dsimp only
    rw [ih (by omega) (by omega), List.drop_drop, Nat.add_right_comm, Nat.add_assoc,
      Nat.add_comm 1 k]

/-- **A length that does not end.** However large the buffer is, there are bytes of which the calls
read that many into it and as many more behind its end as the sender likes. -/
theorem receive_overruns (bufLen extra : Nat) (hlt : bufLen + extra + 9 < 2 ^ 31) (rest : Text) :
    ∃ t s t', receiveCalls bufLen (bufLen + extra + 1) ⟨[], rest⟩ t = .stop .waiting s t' ∧
      s.read.length = bufLen + extra + 7 := by
  refine ⟨⟨flood 5 ++ List.replicate (bufLen + extra) 0x80,
    List.replicate 7 (some 1) ++ List.replicate (bufLen + extra) (some 1)⟩,
    ⟨flood (5 + (bufLen + extra)), (rest.drop 7).drop (bufLen + extra)⟩, ⟨[], []⟩, ?_, ?_⟩
  · rw [receiveCalls, mqttMessageReceive_flood_first]
    exact receiveCalls_flood bufLen (by decide) (by omega) _
  · rw [length_flood]
    omega

/-- A hundred bytes behind a buffer of the default size. -/
theorem receive_overruns_default :
    ∃ t s t', receiveCalls 1024 (1024 + 100 + 1) ⟨[], []⟩ t = .stop .waiting s t' ∧
      s.read.length = 1024 + 100 + 7 :=
  receive_overruns 1024 100 (by decide) []

end GreenHouse
