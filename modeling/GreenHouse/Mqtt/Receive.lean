import GreenHouse.Mqtt.Packet

/-!
# Receiving a packet (`mqtt_client.c`)

`mqtt_message_receive` reads one packet from the transport, in as many calls as it takes: a read
that brings nothing ends the call, and the next one goes on from what is in the input buffer. It
reads the first byte, the remaining length byte by byte and the rest in one piece; of a message that
is larger than the buffer it reads as much as the buffer holds.

A call that finds two to five bytes takes a last byte with the high bit for a part of the remaining
length, even if that is complete. `frames_iff` says when this does no harm: a packet is received as
it was sent, however the transport cuts it up, exactly if it is not one of the packets of four or
five bytes that end in two bytes with the high bit.
-/

namespace GreenHouse

open CText

/-! ## The transport -/

/-- The bytes to come, and what the reads to come bring of them: `none` is an error, `some 0` a
timeout. A read behind the last of them times out too. -/
structure Transport where
  pending : Text
  reads : List (Option Nat)

/-- `esp_transport_read` of up to `n` bytes; `none` is an error. -/
def Transport.read (n : Nat) (t : Transport) : Option Text × Transport :=
  match t.reads with
  | [] => (some [], t)
  | none :: reads => (none, { t with reads := reads })
  | some k :: reads => (some (t.pending.take (min n k)), ⟨t.pending.drop (min n k), reads⟩)

/-! ## The reader -/

/-- The input buffer: the bytes up to `in_buffer_read_len`, and the memory behind them. -/
structure Inbox where
  read : Text
  rest : Text

namespace Inbox

/-- Bytes read behind the ones that are there. -/
def put (data : Text) (s : Inbox) : Inbox := ⟨s.read ++ data, s.rest.drop data.length⟩

/-- `in_buffer_read_len < 6 && (*(buf - 1) & 0x80)`. -/
def lengthOpen (s : Inbox) : Bool :=
  decide (s.read.length < 6) && Varint.more (s.read.getD (s.read.length - 1) 0)

end Inbox

/-- What `mqtt_message_receive` returns: -1, 0, or 1 with the length of the message. -/
inductive Receipt where
  | failed
  | waiting
  | message (length : Nat)
  deriving DecidableEq

/-- A part of `mqtt_message_receive` returns, or is followed by the next one. -/
inductive Stage where
  | stop (r : Receipt) (s : Inbox) (t : Transport)
  | go (s : Inbox) (t : Transport)

namespace Stage

def andThen (x : Stage) (f : Inbox → Transport → Stage) : Stage :=
  match x with
  | stop r s t => stop r s t
  | go s t => f s t

/-- `R` holds of what is returned, and `G` where it goes on. -/
def Sat (R : Receipt → Inbox → Transport → Prop) (G : Inbox → Transport → Prop) : Stage → Prop
  | stop r s t => R r s t
  | go s t => G s t

section Sat

variable {R R' : Receipt → Inbox → Transport → Prop} {G G' : Inbox → Transport → Prop} {x : Stage}

theorem Sat.andThen {f : Inbox → Transport → Stage} (h : x.Sat R G)
    (hf : ∀ s t, G s t → (f s t).Sat R G') : (x.andThen f).Sat R G' := by
  cases x with
  | stop r s t => exact h
  | go s t => exact hf s t h

theorem Sat.mono (h : x.Sat R G) (hR : ∀ r s t, R r s t → R' r s t)
    (hG : ∀ s t, G s t → G' s t) : x.Sat R' G' := by
  cases x with
  | stop r s t => exact hR r s t h
  | go s t => exact hG s t h

end Sat

end Stage

/-- A read of up to `n` bytes into the buffer. -/
def fetch (n : Nat) (s : Inbox) (t : Transport) : Stage :=
  match t.read n with
  | (none, t) => .stop .failed s t
  | (some [], t) => .stop .waiting s t
  | (some data, t) => .go (s.put data) t

/-- The first byte: type and flags. -/
def readFirst (s : Inbox) (t : Transport) : Stage :=
  if s.read.length = 0 then
    match t.read 1 with
    | (none, t) => .stop .failed s t
    | (some [], t) => .stop .waiting s t
    | (some (b :: _), t) =>
      if mqttHasValidMsgHdr b then .go (s.put [b]) t
      -- the byte is in the buffer, but not counted
      else .stop .failed { s with rest := b :: s.rest.drop 1 } t
  else .go s t

/-- The loop over the remaining length. Its condition bounds the number of turns. -/
def readLengthLoop : Nat → Inbox → Transport → Stage
  | 0, s, t => .go s t
  | n + 1, s, t => (fetch 1 s t).andThen fun s t =>
    if s.lengthOpen then readLengthLoop n s t else .go s t

def readLength (s : Inbox) (t : Transport) : Stage :=
  if s.read.length = 1 ∨ s.lengthOpen then readLengthLoop 5 s t else .go s t

/-- The rest, up to `upTo` bytes in the buffer. -/
def readRest (total upTo : Nat) (s : Inbox) (t : Transport) : Stage :=
  if s.read.length < upTo then
    (fetch (upTo - s.read.length) s t).andThen fun s t =>
      if s.read.length < upTo then .stop .waiting s t else .stop (.message total) s t
  else .stop (.message total) s t

/-- The length of the topic, of a message that is larger than the buffer. -/
def readTopicLength (fixed : Nat) (s : Inbox) (t : Transport) : Stage :=
  if s.read.length < fixed + 2 then
    (fetch (s.read.length - fixed + 2) s t).andThen fun s t =>
      if s.read.length < fixed + 2 then .stop .waiting s t else .go s t
  else .go s t

/-- The length of the packet is compared with that of the buffer as an `int`, negative from `2 ^ 31`
on, and with `in_buffer_read_len` as a `size_t`. -/
def readBody (bufLen : Nat) (s : Inbox) (t : Transport) : Stage :=
  let (total, fixed) := mqttGetTotalLength s.read
  let first := s.read.getD 0 0
  if bufLen < total ∧ total < 2 ^ 31 then
    if mqttGetType first = mqttMsgTypePublish then
      (readTopicLength fixed s t).andThen fun s t =>
        let topicLen := twoByteLength s.read fixed
        if bufLen < fixed + topicLen + (if 0 < mqttGetQos first then 2 else 0) then
          .stop .failed s t
        else readRest total bufLen s t
    else .stop .failed s t
  else readRest total total s t

/-- `mqtt_message_receive`, with an input buffer of `bufLen` bytes. -/
def mqttMessageReceive (bufLen : Nat) (s : Inbox) (t : Transport) : Stage :=
  ((readFirst s t).andThen readLength).andThen (readBody bufLen)

/-- Up to so many calls, until one returns something else than 0. -/
def receiveCalls (bufLen : Nat) : Nat → Inbox → Transport → Stage
  | 0, s, t => .stop .waiting s t
  | n + 1, s, t =>
    match mqttMessageReceive bufLen s t with
    | .stop .waiting s t => receiveCalls bufLen n s t
    | x => x

/-! ## Reads -/

/-- The reads to come all bring something, and there are at least `k` of them. -/
structure Transport.Supplies (t : Transport) (k : Nat) : Prop where
  some_pos : ∀ r ∈ t.reads, ∃ m, r = some (m + 1)
  enough : k ≤ t.reads.length

/-- What a read of up to `n` bytes does. -/
structure Transport.Brings (n : Nat) (t : Transport) (data : Text) (t' : Transport) : Prop where
  pending : t.pending = data ++ t'.pending
  length_le : data.length ≤ n
  suffix : t'.reads <:+ t.reads
  supplied : ∀ k, t.Supplies (k + 1) → t.pending ≠ [] → 0 < n → data ≠ [] ∧ t'.Supplies k

theorem Transport.read_cases (n : Nat) (t : Transport) :
    (∃ t', t.read n = (none, t') ∧ none ∈ t.reads) ∨
      ∃ data t', t.read n = (some data, t') ∧ t.Brings n data t' := by
  unfold Transport.read
  obtain ⟨pending, reads⟩ := t
  cases reads with
  | nil =>
    refine Or.inr ⟨[], _, rfl, rfl, Nat.zero_le n, List.suffix_rfl, fun k h => ?_⟩
    exact absurd h.enough (by simp)
  | cons r reads =>
    cases r with
    | none => exact Or.inl ⟨_, rfl, List.mem_cons_self⟩
    | some k =>
      refine Or.inr ⟨_, _, rfl, (List.take_append_drop _ _).symm, ?_, List.suffix_cons _ _, ?_⟩
      · rw [List.length_take]
        omega
      · intro j h hpending hn
        obtain ⟨m, hm⟩ := h.some_pos _ List.mem_cons_self
        rw [Option.some_inj] at hm
        have hpos : 0 < pending.length := List.length_pos_iff.2 hpending
        refine ⟨List.length_pos_iff.1 ?_, fun r hr => h.some_pos r (List.mem_cons_of_mem _ hr), ?_⟩
        · rw [List.length_take, hm]
          exact Nat.lt_min.2 ⟨Nat.lt_min.2 ⟨hn, Nat.succ_pos m⟩, hpos⟩
        · exact Nat.le_of_succ_le_succ h.enough

/-! ## One packet -/

/-- Of a packet the buffer holds as much as fits into it. -/
def Packet.held (p : Packet) (bufLen : Nat) : Nat := min bufLen p.bytes.length

/-- The packet fits into the buffer, or is a message whose topic does. -/
def Packet.Fits (p : Packet) (bufLen : Nat) : Prop :=
  p.bytes.length ≤ bufLen ∨
    mqttGetType p.first = mqttMsgTypePublish ∧
      p.fixed + twoByteLength p.bytes p.fixed + (if 0 < mqttGetQos p.first then 2 else 0) ≤ bufLen

/-- The packet has six bytes or more, or does not end in two bytes with the high bit. -/
def Packet.Steady (p : Packet) : Prop :=
  p.bytes.length < 6 → ¬ (Varint.more (p.bytes.getD (p.bytes.length - 2) 0) = true ∧
    Varint.more (p.bytes.getD (p.bytes.length - 1) 0) = true)

instance (p : Packet) : Decidable p.Steady := inferInstanceAs (Decidable (_ → _))

section Underway

variable (p : Packet) (tail : Text) (bufLen : Nat) (reads : List (Option Nat)) (extra : Nat)
  (L : Prop)

/-- A part of the packet is in the buffer, and what follows is to come. `reads` are the reads from
the start of the packet on; if `L`, they suffice for it and for so many bytes behind it. -/
structure Underway (s : Inbox) (t : Transport) : Prop where
  bytes : s.read ++ t.pending = p.bytes ++ tail
  within : s.read.length ≤ p.held bufLen
  suffix : t.reads <:+ reads
  supply : L → t.Supplies (p.held bufLen - s.read.length + extra)

/-- What is returned, with at least `k` bytes in the buffer if it is to go on. -/
def Received (k : Nat) : Receipt → Inbox → Transport → Prop
  | .failed, _, _ => none ∈ reads
  | .waiting, s, t => Underway p tail bufLen reads extra L s t ∧ s.read.length < p.held bufLen ∧
      (L → k ≤ s.read.length)
  | .message n, s, t => Underway p tail bufLen reads extra L s t ∧ s.read.length = p.held bufLen ∧
      n = p.bytes.length

variable {p tail bufLen reads extra L} {s : Inbox} {t : Transport}

theorem Underway.read_eq (h : Underway p tail bufLen reads extra L s t) :
    s.read = p.bytes.take s.read.length := by
  have hle : s.read.length ≤ p.bytes.length := h.within.trans (Nat.min_le_right _ _)
  have htake : (p.bytes ++ tail).take s.read.length = p.bytes.take s.read.length :=
    List.take_append_of_le_length hle
  rw [← htake, ← h.bytes, List.take_left]

theorem Underway.pending_eq (h : Underway p tail bufLen reads extra L s t) :
    t.pending = p.bytes.drop s.read.length ++ tail := by
  have hle : s.read.length ≤ p.bytes.length := h.within.trans (Nat.min_le_right _ _)
  rw [← List.drop_append_of_le_length hle, ← h.bytes, List.drop_left]

theorem Underway.getD_eq (h : Underway p tail bufLen reads extra L s t) {i : Nat}
    (hi : i < s.read.length) : s.read.getD i 0 = p.bytes.getD i 0 := by
  rw [h.read_eq, List.getD_eq_getElem?_getD, List.getD_eq_getElem?_getD, List.getElem?_take,
    if_pos hi]

theorem Packet.two_le_length (p : Packet) : 2 ≤ p.bytes.length := by
  have hlen : 0 < p.len.length := List.length_pos_iff.2 p.isNumber.ne_nil
  rw [p.length_bytes, fixed]
  omega

/-- A read inside the packet. -/
theorem fetch_sat (h : Underway p tail bufLen reads extra L s t) {n : Nat} (hn : 0 < n)
    (k : Nat) (hle : s.read.length + n ≤ p.held bufLen) :
    (fetch n s t).Sat (Received p tail bufLen reads extra L k) fun s' t' =>
      Underway p tail bufLen reads extra L s' t' ∧ s.read.length < s'.read.length ∧
        s'.read.length ≤ s.read.length + n := by
  have hpending : t.pending ≠ [] := by
    rw [h.pending_eq]
    have hlt : s.read.length < p.bytes.length :=
      (Nat.lt_of_lt_of_le (by omega) hle).trans_le (Nat.min_le_right _ _)
    intro hnil
    have := congrArg List.length hnil
    simp at this
    omega
  have hsupplies : L → t.Supplies (p.held bufLen - s.read.length - 1 + extra + 1) := fun hL =>
    ⟨(h.supply hL).some_pos, by have := (h.supply hL).enough; omega⟩
  unfold fetch
  rcases t.read_cases n with ⟨t', ht', hnone⟩ | ⟨data, t', ht', hbrings⟩
  · rw [ht']
    exact h.suffix.subset hnone
  · rw [ht']
    cases data with
    | nil =>
      have hnot : ¬ L := fun hL => (hbrings.supplied _ (hsupplies hL) hpending hn).1 rfl
      refine ⟨⟨?_, h.within, hbrings.suffix.trans h.suffix, fun hL => absurd hL hnot⟩, by omega,
        fun hL => absurd hL hnot⟩
      rw [← h.bytes, hbrings.pending, List.nil_append]
    | cons b data =>
      have hlen := hbrings.length_le
      have hput : (s.put (b :: data)).read.length = s.read.length + (b :: data).length :=
        List.length_append
      refine ⟨⟨?_, ?_, hbrings.suffix.trans h.suffix, fun hL => ?_⟩, ?_, ?_⟩
      · rw [← h.bytes, hbrings.pending]
        exact List.append_assoc _ _ _
      · rw [hput]
        omega
      · have hsup := (hbrings.supplied _ (hsupplies hL) hpending hn).2
        refine ⟨hsup.some_pos, ?_⟩
        have := hsup.enough
        rw [hput, List.length_cons]
        omega
      · rw [hput, List.length_cons]
        omega
      · rw [hput]
        omega

/-- The first byte is read, or was read in an earlier call. -/
theorem readFirst_sat (h : Underway p tail bufLen reads extra L s t)
    (hlt : s.read.length < p.held bufLen) (hbuf : 10 ≤ bufLen) :
    (readFirst s t).Sat (Received p tail bufLen reads extra L (s.read.length + 1)) fun s' t' =>
      Underway p tail bufLen reads extra L s' t' ∧ s'.read.length < p.held bufLen ∧
        s.read.length ≤ s'.read.length ∧ 0 < s'.read.length := by
  have htwo := p.two_le_length
  by_cases hempty : s.read.length = 0
  · have hfetch := fetch_sat h Nat.one_pos (s.read.length + 1)
      (by rw [hempty, Packet.held]; omega)
    have hpending : t.pending = p.first :: (p.len ++ p.body ++ tail) := by
      rw [h.pending_eq, hempty]
      rfl
    unfold fetch at hfetch
    unfold readFirst
    rw [if_pos hempty]
    rcases t.read_cases 1 with ⟨t', ht', hnone⟩ | ⟨data, t', ht', hbrings⟩
    · rw [ht']
      exact h.suffix.subset hnone
    · rw [ht'] at hfetch ⊢
      cases data with
      | nil => exact hfetch
      | cons b data =>
        have hdata : data = [] := List.length_eq_zero_iff.1 (by have := hbrings.length_le; simpa)
        have hb : b = p.first := by
          have := hbrings.pending
          rw [hpending, List.cons_append] at this
          exact (List.cons.inj this).1.symm
        subst hdata hb
        obtain ⟨hreading, hlong, hshort⟩ := hfetch
        dsimp only
        rw [if_pos p.valid]
        refine ⟨hreading, ?_, hlong.le, Nat.lt_of_le_of_lt (Nat.zero_le _) hlong⟩
        rw [hempty] at hshort
        refine Nat.lt_of_le_of_lt hshort ?_
        rw [Packet.held]
        omega
  · unfold readFirst
    rw [if_neg hempty]
    exact ⟨h, hlt, le_rfl, Nat.pos_of_ne_zero hempty⟩

theorem Packet.getD_len (p : Packet) {i : Nat} (hi : i < p.len.length) :
    p.bytes.getD (i + 1) 0 = p.len.getD i 0 := by
  rw [bytes, List.getD_cons_succ, List.getD_append _ _ _ _ hi]

theorem Packet.more_bytes (p : Packet) {i : Nat} (hpos : 0 < i) (hi : i + 1 < p.fixed) :
    Varint.more (p.bytes.getD i 0) = true := by
  obtain ⟨j, rfl⟩ := Nat.exists_eq_add_one_of_ne_zero hpos.ne'
  unfold fixed at hi
  rw [p.getD_len (by omega)]
  exact p.isNumber.more_of_lt (by omega)

theorem Packet.more_last_len (p : Packet) : Varint.more (p.bytes.getD (p.fixed - 1) 0) = false := by
  have hlen : 0 < p.len.length := List.length_pos_iff.2 p.isNumber.ne_nil
  have hget := p.getD_len (i := p.len.length - 1) (by omega)
  rw [Nat.sub_add_cancel hlen] at hget
  rw [fixed, Nat.add_sub_cancel, hget]
  exact p.isNumber.more_last

/-- Where the loop over the remaining length ends, the fixed header is complete. -/
theorem fixed_le_of_not_lengthOpen (h : Underway p tail bufLen reads extra L s t)
    (htwo : 1 < s.read.length) (hclosed : s.lengthOpen = false) : p.fixed ≤ s.read.length := by
  have hshort : p.fixed ≤ 5 := Nat.succ_le_succ p.short
  by_contra hlt
  have hmore := p.more_bytes (i := s.read.length - 1) (by omega) (by omega)
  rw [← h.getD_eq (by omega)] at hmore
  have hopen : s.lengthOpen = true := by
    unfold Inbox.lengthOpen
    rw [hmore, decide_eq_true (by omega)]
    rfl
  rw [hopen] at hclosed
  cases hclosed

/-- A steady packet does not end where the loop would go on. -/
theorem lt_of_lengthOpen (h : Underway p tail bufLen reads extra L s t) (hsteady : p.Steady)
    (hbuf : 10 ≤ bufLen) (hopen : s.lengthOpen = true) (htwo : 1 < s.read.length)
    (hprev : s.read.length = 2 ∨ Varint.more (p.bytes.getD (s.read.length - 2) 0) = true) :
    s.read.length < p.held bufLen := by
  obtain ⟨hsix, hmore⟩ := Bool.and_eq_true_iff.1 hopen
  have hsix : s.read.length < 6 := of_decide_eq_true hsix
  rw [h.getD_eq (by omega)] at hmore
  refine Nat.lt_of_le_of_ne h.within fun heq => ?_
  have hend : s.read.length = p.bytes.length := by
    rw [heq, Packet.held] at hsix ⊢
    omega
  rw [hend] at hmore hprev hsix
  rcases hprev with htwo | hprev
  · have hlast := p.more_last_len
    have hfixed : p.fixed = 2 := by
      have hlen : 0 < p.len.length := List.length_pos_iff.2 p.isNumber.ne_nil
      have := p.length_bytes
      unfold Packet.fixed at this ⊢
      omega
    rw [hfixed] at hlast
    rw [htwo, hlast] at hmore
    cases hmore
  · exact hsteady hsix ⟨hprev, hmore⟩

theorem readLengthLoop_sat (hsteady : p.Steady) (hbuf : 10 ≤ bufLen) (k : Nat) {n : Nat} {s : Inbox}
    {t : Transport} (h : Underway p tail bufLen reads extra L s t) (hn : 6 ≤ s.read.length + n)
    (hsix : s.read.length < 6) (hpos : 0 < s.read.length) (hlt : s.read.length < p.held bufLen)
    (hprev : s.read.length = 1 ∨ Varint.more (p.bytes.getD (s.read.length - 1) 0) = true) :
    (readLengthLoop n s t).Sat (Received p tail bufLen reads extra L k) fun s' t' =>
      Underway p tail bufLen reads extra L s' t' ∧ s.read.length < s'.read.length ∧
        p.fixed ≤ s'.read.length := by
  induction n generalizing s t with
  | zero => omega
  | succ n ih =>
    refine (fetch_sat h Nat.one_pos k (by omega)).andThen fun s' t' hs' => ?_
    obtain ⟨hreading, hlong, hshort⟩ := hs'
    have hlen : s'.read.length = s.read.length + 1 := by omega
    have hprev' : s'.read.length = 2 ∨
        Varint.more (p.bytes.getD (s'.read.length - 2) 0) = true := by
      rw [hlen]
      exact hprev.imp (congrArg (· + 1)) id
    cases hopen : s'.lengthOpen with
    | true =>
      obtain ⟨hsix', hmore⟩ := Bool.and_eq_true_iff.1 hopen
      rw [hreading.getD_eq (by omega)] at hmore
      have hlt' := lt_of_lengthOpen hreading hsteady hbuf hopen (by omega) hprev'
      refine (ih hreading (by omega) (of_decide_eq_true hsix') (by omega) hlt'
        (Or.inr hmore)).mono (fun _ _ _ hR => hR) fun s'' t'' hs'' => ?_
      exact ⟨hs''.1, hlong.trans hs''.2.1, hs''.2.2⟩
    | false => exact ⟨hreading, hlong, fixed_le_of_not_lengthOpen hreading (by omega) hopen⟩

/-- The remaining length is read, or was read in an earlier call. -/
theorem readLength_sat (hsteady : p.Steady) (hbuf : 10 ≤ bufLen) (k : Nat)
    (h : Underway p tail bufLen reads extra L s t) (hpos : 0 < s.read.length)
    (hlt : s.read.length < p.held bufLen) :
    (readLength s t).Sat (Received p tail bufLen reads extra L k) fun s' t' =>
      Underway p tail bufLen reads extra L s' t' ∧ s.read.length ≤ s'.read.length ∧
        p.fixed ≤ s'.read.length := by
  unfold readLength
  by_cases hone : s.read.length = 1
  · rw [if_pos (Or.inl hone)]
    refine (readLengthLoop_sat hsteady hbuf k h (by omega) (by omega) hpos hlt
      (Or.inl hone)).mono (fun _ _ _ hR => hR) fun s' t' hs' => ?_
    exact ⟨hs'.1, hs'.2.1.le, hs'.2.2⟩
  · cases hopen : s.lengthOpen with
    | true =>
      obtain ⟨hsix, hmore⟩ := Bool.and_eq_true_iff.1 hopen
      have hsix : s.read.length < 6 := of_decide_eq_true hsix
      rw [h.getD_eq (by omega)] at hmore
      rw [if_pos (Or.inr rfl)]
      refine (readLengthLoop_sat hsteady hbuf k h (by omega) hsix hpos hlt
        (Or.inr hmore)).mono (fun _ _ _ hR => hR) fun s' t' hs' => ?_
      exact ⟨hs'.1, hs'.2.1.le, hs'.2.2⟩
    | false =>
      rw [if_neg (by simp [hone])]
      exact ⟨h, le_rfl, fixed_le_of_not_lengthOpen h (by omega) hopen⟩

/-- The rest is read, or a part of it. -/
theorem readRest_sat (h : Underway p tail bufLen reads extra L s t) {k : Nat}
    (hk : k ≤ s.read.length + 1) :
    (readRest p.bytes.length (p.held bufLen) s t).Sat (Received p tail bufLen reads extra L k)
      fun _ _ => False := by
  unfold readRest
  split
  · next hlt =>
    refine (fetch_sat h (by omega) k (by omega)).andThen fun s' t' hs' => ?_
    obtain ⟨hreading, hlong, -⟩ := hs'
    split
    · next hlt' => exact ⟨hreading, hlt', fun _ => by omega⟩
    · next hge => exact ⟨hreading, Nat.le_antisymm hreading.within (by omega), rfl⟩
  · next hge => exact ⟨h, Nat.le_antisymm h.within (by omega), rfl⟩

theorem readTopicLength_sat (h : Underway p tail bufLen reads extra L s t)
    (hfixed : p.fixed ≤ s.read.length) (hheld : p.fixed + 4 ≤ p.held bufLen) {k : Nat}
    (hk : k ≤ s.read.length + 1) :
    (readTopicLength p.fixed s t).Sat (Received p tail bufLen reads extra L k) fun s' t' =>
      Underway p tail bufLen reads extra L s' t' ∧ s.read.length ≤ s'.read.length ∧
        p.fixed + 2 ≤ s'.read.length := by
  unfold readTopicLength
  split
  · refine (fetch_sat h (by omega) k (by omega)).andThen fun s' t' hs' => ?_
    obtain ⟨hreading, hlong, -⟩ := hs'
    split
    · exact ⟨hreading, by omega, fun _ => by omega⟩
    · exact ⟨hreading, hlong.le, by omega⟩
  · exact ⟨h, le_rfl, by omega⟩

theorem readBody_sat (hfits : p.Fits bufLen) (hbuf : 10 ≤ bufLen)
    (h : Underway p tail bufLen reads extra L s t) (hfixed : p.fixed ≤ s.read.length) {k : Nat}
    (hk : k ≤ s.read.length + 1) :
    (readBody bufLen s t).Sat (Received p tail bufLen reads extra L k) fun _ _ => False := by
  have hshort : p.fixed ≤ 5 := Nat.succ_le_succ p.short
  have htotal : mqttGetTotalLength s.read = (p.bytes.length, p.fixed) := by
    have hsplit : p.bytes = (p.first :: p.len) ++ p.body := rfl
    have hlen : (p.first :: p.len).length = p.fixed := rfl
    rw [h.read_eq, hsplit, List.take_append, List.take_of_length_le (by omega), List.cons_append,
      p.mqttGetTotalLength_append]
    rfl
  have hpos : 0 < s.read.length := by
    unfold Packet.fixed at hfixed
    omega
  have hfirst : s.read.getD 0 0 = p.first := by
    rw [h.getD_eq hpos]
    rfl
  have hint : p.bytes.length < 2 ^ 31 := by
    have hbody := p.body_lt
    have hlen := p.length_bytes
    omega
  unfold readBody
  rw [htotal]
  dsimp only
  rw [hfirst]
  by_cases hlarge : bufLen < p.bytes.length
  · have hheld : p.held bufLen = bufLen := Nat.min_eq_left hlarge.le
    rcases hfits with hle | ⟨hpublish, htopic⟩
    · omega
    · rw [if_pos ⟨hlarge, hint⟩, if_pos hpublish]
      refine (readTopicLength_sat h hfixed (by omega) hk).andThen fun s' t' hs' => ?_
      obtain ⟨hreading, hlong, hthere⟩ := hs'
      have hget : twoByteLength s'.read p.fixed = twoByteLength p.bytes p.fixed := by
        unfold twoByteLength
        rw [hreading.getD_eq (by omega), hreading.getD_eq (by omega)]
      rw [hget, if_neg (by omega)]
      have hrest := readRest_sat hreading (hk.trans (Nat.succ_le_succ hlong))
      rwa [hheld] at hrest
  · have hheld : p.held bufLen = p.bytes.length := Nat.min_eq_right (by omega)
    rw [if_neg fun h => hlarge h.1]
    have hrest := readRest_sat h hk
    rwa [hheld] at hrest

/-- **One call of `mqtt_message_receive`** inside a steady packet that fits: it fails only if a read
does, stops inside the packet, having read something if there was something to read, or has the
packet, as far as the buffer holds it. -/
theorem mqttMessageReceive_sat (hfits : p.Fits bufLen) (hsteady : p.Steady) (hbuf : 10 ≤ bufLen)
    (h : Underway p tail bufLen reads extra L s t) (hlt : s.read.length < p.held bufLen) :
    (mqttMessageReceive bufLen s t).Sat (Received p tail bufLen reads extra L (s.read.length + 1))
      fun _ _ => False := by
  have hheader : ((readFirst s t).andThen readLength).Sat
      (Received p tail bufLen reads extra L (s.read.length + 1)) fun s' t' =>
        Underway p tail bufLen reads extra L s' t' ∧ s.read.length ≤ s'.read.length ∧
          p.fixed ≤ s'.read.length := by
    refine (readFirst_sat h hlt hbuf).andThen fun s' t' hs' => ?_
    obtain ⟨hreading, hlt', hlong, hpos⟩ := hs'
    refine (readLength_sat hsteady hbuf _ hreading hpos hlt').mono (fun _ _ _ hR => hR)
      fun s'' t'' hs'' => ?_
    exact ⟨hs''.1, hlong.trans hs''.2.1, hs''.2.2⟩
  refine hheader.andThen fun s' t' hs' => ?_
  exact readBody_sat hfits hbuf hs'.1 hs'.2.2 (Nat.succ_le_succ hs'.2.1)

/-- **Any number of calls.** -/
theorem receiveCalls_sat (hfits : p.Fits bufLen) (hsteady : p.Steady) (hbuf : 10 ≤ bufLen)
    (n : Nat) {s : Inbox} {t : Transport} (h : Underway p tail bufLen reads extra L s t)
    (hlt : s.read.length < p.held bufLen) :
    (receiveCalls bufLen n s t).Sat (Received p tail bufLen reads extra L (s.read.length + n))
      fun _ _ => False := by
  induction n generalizing s t with
  | zero => exact ⟨h, hlt, fun _ => le_rfl⟩
  | succ n ih =>
    have hcall := mqttMessageReceive_sat hfits hsteady hbuf h hlt
    rw [receiveCalls]
    cases hx : mqttMessageReceive bufLen s t with
    | go s' t' =>
      rw [hx] at hcall
      exact hcall.elim
    | stop r s' t' =>
      rw [hx] at hcall
      cases r with
      | failed => exact hcall
      | message m => exact hcall
      | waiting =>
        obtain ⟨hreading, hlt', hlong⟩ := hcall
        refine (ih hreading hlt').mono (fun r s'' t'' hR => ?_) fun _ _ hG => hG
        cases r with
        | failed => exact hR
        | message m => exact hR
        | waiting =>
          obtain ⟨hreading', hlt'', hlong'⟩ := hR
          refine ⟨hreading', hlt'', fun hL => ?_⟩
          have := hlong hL
          have := hlong' hL
          omega

end Underway

/-! ## Packets in a stream -/

namespace Packet

/-- What any number of calls may come to: the packet and nothing else is received, or a part of it,
and nothing behind it is touched. -/
def Framed (p : Packet) (tail : Text) (reads : List (Option Nat)) :
    Receipt → Inbox → Transport → Prop
  | .failed, _, _ => none ∈ reads
  | .waiting, s, t => s.read ++ t.pending = p.bytes ++ tail ∧ s.read.length < p.bytes.length
  | .message n, s, t => n = p.bytes.length ∧ s.read = p.bytes ∧ t.pending = tail

/-- Whatever follows the packet and however the transport cuts it up, it is received as it was sent,
and it is received if the reads bring something. -/
structure Frames (p : Packet) (bufLen : Nat) : Prop where
  sound : ∀ tail reads rest n,
    (receiveCalls bufLen n ⟨[], rest⟩ ⟨p.bytes ++ tail, reads⟩).Sat (p.Framed tail reads)
      fun _ _ => False
  complete : ∀ tail rest (reads : List (Option Nat)), (∀ r ∈ reads, ∃ m, r = some (m + 1)) →
    p.bytes.length ≤ reads.length → ∃ s t,
      receiveCalls bufLen p.bytes.length ⟨[], rest⟩ ⟨p.bytes ++ tail, reads⟩ =
        .stop (.message p.bytes.length) s t

end Packet

section Frames

variable {p : Packet} {bufLen : Nat}

theorem frames_of_steady (hsteady : p.Steady) (hfit : p.bytes.length ≤ bufLen)
    (hbuf : 10 ≤ bufLen) : p.Frames bufLen := by
  have hheld : p.held bufLen = p.bytes.length := Nat.min_eq_right hfit
  have hlt : ([] : Text).length < p.held bufLen := by
    have := p.two_le_length
    rw [hheld, List.length_nil]
    omega
  refine ⟨fun tail reads rest n => ?_, fun tail rest reads hpos hlong => ?_⟩
  · have hstart : Underway p tail bufLen reads 0 False ⟨[], rest⟩ ⟨p.bytes ++ tail, reads⟩ :=
      ⟨rfl, Nat.zero_le _, List.suffix_rfl, False.elim⟩
    refine (receiveCalls_sat (Or.inl hfit) hsteady hbuf n hstart hlt).mono (fun r s t hR => ?_)
      fun _ _ hG => hG
    cases r with
    | failed => exact hR
    | waiting => exact ⟨hR.1.bytes, hheld ▸ hR.2.1⟩
    | message m =>
      obtain ⟨hunderway, hlen, hm⟩ := hR
      have hread := hunderway.read_eq
      have hpending := hunderway.pending_eq
      rw [hlen, hheld, List.take_length] at hread
      rw [hlen, hheld, List.drop_length, List.nil_append] at hpending
      exact ⟨hm, hread, hpending⟩
  · have hstart : Underway p tail bufLen reads 0 True ⟨[], rest⟩ ⟨p.bytes ++ tail, reads⟩ :=
      ⟨rfl, Nat.zero_le _, List.suffix_rfl, fun _ => ⟨hpos, by rwa [hheld]⟩⟩
    have hcalls := receiveCalls_sat (Or.inl hfit) hsteady hbuf p.bytes.length hstart hlt
    cases hx : receiveCalls bufLen p.bytes.length ⟨[], rest⟩ ⟨p.bytes ++ tail, reads⟩ with
    | go s t =>
      rw [hx] at hcalls
      exact hcalls.elim
    | stop r s t =>
      rw [hx] at hcalls
      cases r with
      | failed =>
        obtain ⟨m, hm⟩ := hpos none hcalls
        cases hm
      | waiting =>
        obtain ⟨-, hshort, hread⟩ := hcalls
        have := hread trivial
        simp only [List.length_nil, Nat.zero_add] at this
        omega
      | message m => exact ⟨s, t, by rw [hcalls.2.2]⟩

/-- The short packets with at least two bytes of body. -/
theorem Packet.short_cases (p : Packet) (h : p.bytes.length < 6) (hbody : 2 ≤ p.body.length) :
    (∃ l c d, p.len = [l] ∧ p.body = [c, d]) ∨ (∃ l c d e, p.len = [l] ∧ p.body = [c, d, e]) ∨
      ∃ l m c d, p.len = [l, m] ∧ p.body = [c, d] := by
  have hlen := p.length_bytes
  unfold fixed at hlen
  match hl : p.len, hb : p.body with
  | [], _ => exact absurd hl p.isNumber.ne_nil
  | [l], [c, d] => exact Or.inl ⟨l, c, d, rfl, rfl⟩
  | [l], [c, d, e] => exact Or.inr (Or.inl ⟨l, c, d, e, rfl, rfl⟩)
  | [l, m], [c, d] => exact Or.inr (Or.inr ⟨l, m, c, d, rfl, rfl⟩)
  | _, [] => simp [hb] at hbody
  | _, [_] => simp [hb] at hbody
  | [_], _ :: _ :: _ :: _ :: _ => simp [hl, hb] at hlen; omega
  | [_, _], _ :: _ :: _ :: _ => simp [hl, hb] at hlen; omega
  | _ :: _ :: _ :: _, _ :: _ :: _ => simp [hl, hb] at hlen; omega

/-- A short packet that ends in two bytes with the high bit, if a call ends between these: the next
one takes a byte of what follows. -/
theorem overrun (hbuf : 10 ≤ bufLen) (hshort : p.bytes.length < 6) (hbody : 2 ≤ p.body.length)
    (hprev : Varint.more (p.bytes.getD (p.bytes.length - 2) 0) = true)
    (hlast : Varint.more (p.bytes.getD (p.bytes.length - 1) 0) = true) (rest : Text) :
    ∃ s t, receiveCalls bufLen 2 ⟨[], rest⟩ ⟨p.bytes ++ [0],
        List.replicate p.fixed (some 1) ++ [some (p.body.length - 1), some 1, some 1]⟩ =
      .stop (.message p.bytes.length) s t ∧ s.read = p.bytes ++ [0] := by
  have hzero : Varint.more 0 = false := by decide
  have hfour : ¬ bufLen < 4 := by omega
  have hfive : ¬ bufLen < 5 := by omega
  have hvalid := p.valid
  have hnumber := p.isNumber
  have htotal := p.mqttGetTotalLength_append
  rcases p.short_cases hshort hbody with ⟨l, c, d, hl, hb⟩ | ⟨l, c, d, e, hl, hb⟩ |
    ⟨l, m, c, d, hl, hb⟩
  all_goals
    simp only [Packet.bytes, Packet.fixed, hl, hb, Varint.IsNumber] at hnumber htotal hprev hlast ⊢
    simp only [List.cons_append, List.nil_append, List.length_cons, List.length_nil, Nat.reduceAdd,
      Nat.reduceSub, List.getD_cons_succ, List.getD_cons_zero] at htotal hprev hlast ⊢
    simp [receiveCalls, mqttMessageReceive, readFirst, readLength, readLengthLoop, readBody,
      readRest, fetch, Transport.read, Stage.andThen, Inbox.put, Inbox.lengthOpen, htotal, hnumber,
      hprev, hlast, hvalid, hzero, hfour, hfive, List.replicate]

/-- **When a packet is received as it was sent**, for every packet that fits into the buffer:
exactly if it has six bytes or more or does not end in two bytes with the high bit. -/
theorem frames_iff (hfit : p.bytes.length ≤ bufLen) (hbuf : 10 ≤ bufLen) :
    p.Frames bufLen ↔ p.Steady := by
  refine ⟨fun h hshort hends => ?_, fun h => frames_of_steady h hfit hbuf⟩
  obtain ⟨hprev, hlast⟩ := hends
  have hlen := p.length_bytes
  have hend := p.more_last_len
  -- the last two bytes are bytes of the body: the fixed header ends in one without the high bit
  have hbody : 2 ≤ p.body.length := by
    by_contra hlt
    have hcases : p.fixed - 1 = p.bytes.length - 1 ∨ p.fixed - 1 = p.bytes.length - 2 := by
      unfold Packet.fixed at hlen ⊢
      omega
    rcases hcases with heq | heq
    · rw [heq, hlast] at hend
      cases hend
    · rw [heq, hprev] at hend
      cases hend
  obtain ⟨s, t, hrun, hread⟩ := overrun hbuf hshort hbody hprev hlast []
  have hsound := h.sound [0] (List.replicate p.fixed (some 1) ++
    [some (p.body.length - 1), some 1, some 1]) [] 2
  rw [hrun] at hsound
  obtain ⟨-, hexact, -⟩ := hsound
  rw [hread] at hexact
  simp at hexact

theorem valid_suback : mqttHasValidMsgHdr 0x90 = true := by decide

/-- A SUBACK for one topic: the id of the request and what was granted. -/
def suback (hi lo granted : UInt8) : Packet where
  first := 0x90
  len := [3]
  body := [hi, lo, granted]
  valid := valid_suback
  isNumber := rfl
  short := Nat.succ_le_succ (Nat.zero_le 3)
  value := rfl

/-- A subscription that is granted is received as it was sent; one that is refused is not. -/
theorem frames_suback :
    (suback 0x12 0xff 0).Frames 1024 ∧ ¬ (suback 0x12 0xff 0x80).Frames 1024 :=
  ⟨(frames_iff (by decide) (by decide)).2 (by decide), fun h =>
    absurd ((frames_iff (by decide) (by decide)).1 h) (by decide)⟩

end Frames

end GreenHouse
