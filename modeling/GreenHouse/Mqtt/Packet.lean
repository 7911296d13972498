import GreenHouse.Lib.CText
import GreenHouse.Lib.Varint
import Mathlib.Data.List.GetD

/-!
# Control packets (`mqtt_msg.c`)

A control packet is a byte with its type and flags, the length of what remains, seven bits a byte,
and the body. `Packet` are the packets of the format, with their remaining length in up to four
bytes; `PublishPacket` are those that carry a message with QoS 0. The getters are those of
`mqtt_msg.c`; each is given the bytes `buffer[0 .. length)`.

* `mqttGetTotalLength_append`: the length of a packet is known as soon as its fixed header is there.
* `publish_in_bounds`: what the getters point at lies in the bytes they were given, whatever these
  are.
* `mqttGetPublishTopic_append`, `mqttGetPublishData_append`: on the head of a message they find its
  topic, and what is there of its payload.
-/

namespace GreenHouse

open CInt CText

/-! ## The getters -/

def mqttMsgTypePublish : UInt8 := 3

def mqttGetType (first : UInt8) : UInt8 := (first &&& 0xf0) >>> 4

def mqttGetDup (first : UInt8) : UInt8 := (first &&& 0x08) >>> 3

def mqttGetQos (first : UInt8) : UInt8 := (first &&& 0x06) >>> 1

/-- `mqtt_has_valid_msg_hdr` on the first byte of a packet. -/
def mqttHasValidMsgHdr (first : UInt8) : Bool :=
  if mqttGetType first ∈ [1, 2, 4, 5, 7, 9, 11, 12, 13, 14] then first &&& 0x0f == 0
  else if mqttGetType first ∈ [6, 8, 10] then first &&& 0x0f == 0x02
  else if mqttGetType first = mqttMsgTypePublish then
    decide (mqttGetQos first < 3) && (decide (0 < mqttGetQos first) || mqttGetDup first == 0)
  else false

/-- The loop over the remaining length: what it adds up to, and the index behind it. -/
def lengthLoop : Text → Nat → Nat → Nat × Nat
  | [], i, totlen => (totlen, i)
  | b :: bs, i, totlen =>
    let totlen := (totlen + b.toNat % 128 * 128 ^ (i - 1)) % 2 ^ 32
    if Varint.more b then lengthLoop bs (i + 1) totlen else (totlen, i + 1)

/-- `mqtt_get_total_length`: the length of the packet and that of its fixed header. -/
def mqttGetTotalLength (buffer : Text) : Nat × Nat :=
  let (totlen, i) := lengthLoop buffer.tail 1 0
  ((totlen + i) % 2 ^ 32, i)

/-- `buffer[i] << 8 | buffer[i + 1]`. -/
def twoByteLength (buffer : Text) (i : Nat) : Nat :=
  (buffer.getD i 0).toNat * 256 + (buffer.getD (i + 1) 0).toNat

/-- `mqtt_get_publish_topic`: the offset of the topic and its length; `none` is NULL. -/
def mqttGetPublishTopic (buffer : Text) : Option (Nat × Nat) :=
  let (_, i) := lengthLoop buffer.tail 1 0
  if i + 2 ≥ buffer.length then none
  else
    let topiclen := twoByteLength buffer i
    let i := i + 2
    if i + topiclen > buffer.length then none else some (i, topiclen)

/-- `mqtt_get_publish_data`: the offset of the payload and its length; NULL comes with length 0. -/
def mqttGetPublishData (buffer : Text) : Option (Nat × Nat) :=
  let (totlen, i) := lengthLoop buffer.tail 1 0
  let totlen := i32 (totlen + i)
  if i + 2 ≥ buffer.length then none
  else
    let topiclen := twoByteLength buffer i
    let i := i + 2
    if i + topiclen ≥ buffer.length then none
    else
      let i := i + topiclen
      let qos := decide (0 < mqttGetQos (buffer.getD 0 0))
      if qos && decide (i + 2 ≥ buffer.length) then none
      else
        let i := if qos then i + 2 else i
        if totlen < i then none
        else if totlen ≤ buffer.length then some (i, (totlen - i).toNat)
        else some (i, buffer.length - i)

/-! ## The format -/

/-- A control packet. -/
structure Packet where
  first : UInt8
  len : Text
  body : Text
  valid : mqttHasValidMsgHdr first = true
  isNumber : Varint.IsNumber len
  short : len.length ≤ 4
  value : Varint.value len = body.length

namespace Packet

def bytes (p : Packet) : Text := p.first :: (p.len ++ p.body)

def fixed (p : Packet) : Nat := p.len.length + 1

theorem length_bytes (p : Packet) : p.bytes.length = p.fixed + p.body.length := by
  simp [bytes, fixed]
  omega

end Packet

/-- A PUBLISH with QoS 0. -/
structure PublishPacket where
  retain : Bool
  len : Text
  topic : Text
  payload : Text
  isNumber : Varint.IsNumber len
  short : len.length ≤ 4
  value : Varint.value len = 2 + topic.length + payload.length
  named : topic ≠ []
  topic_lt : topic.length < 2 ^ 16

namespace PublishPacket

def first (m : PublishPacket) : UInt8 := if m.retain then 0x31 else 0x30

/-- The fixed header and the length of the topic. -/
def header (m : PublishPacket) : Text :=
  m.first :: (m.len ++ [UInt8.ofNat (m.topic.length / 256), UInt8.ofNat (m.topic.length % 256)])

theorem valid_first (m : PublishPacket) : mqttHasValidMsgHdr m.first = true := by
  unfold first
  cases m.retain <;> decide

def packet (m : PublishPacket) : Packet where
  first := m.first
  len := m.len
  body := [UInt8.ofNat (m.topic.length / 256), UInt8.ofNat (m.topic.length % 256)] ++
    (m.topic ++ m.payload)
  valid := m.valid_first
  isNumber := m.isNumber
  short := m.short
  value := by
    rw [m.value]
    simp
    omega

theorem bytes_packet (m : PublishPacket) : m.packet.bytes = m.header ++ (m.topic ++ m.payload) := by
  simp [Packet.bytes, packet, header]

theorem length_header (m : PublishPacket) : m.header.length = m.packet.fixed + 2 := by
  simp [header, packet, Packet.fixed]

end PublishPacket

/-! ## Reading the remaining length -/

theorem lengthLoop_eq (bs : Text) {i totlen : Nat} (hi : 0 < i)
    (h : totlen + 128 ^ (i - 1) * Varint.value bs < 2 ^ 32) :
    lengthLoop bs i totlen = (totlen + 128 ^ (i - 1) * Varint.value bs, i + Varint.size bs) := by
  induction bs generalizing i totlen with
  | nil => rfl
  | cons b bs ih =>
    rw [Varint.value, Nat.mul_add] at h
    rw [lengthLoop, Varint.value, Varint.size, Nat.mul_add, Nat.mul_comm (b.toNat % 128)]
    have hmod : (totlen + 128 ^ (i - 1) * (b.toNat % 128)) % 2 ^ 32 =
        totlen + 128 ^ (i - 1) * (b.toNat % 128) := Nat.mod_eq_of_lt (by omega)
    rw [hmod]
    cases hb : Varint.more b with
    | false => simp
    | true =>
      have hpow : 128 ^ (i + 1 - 1) * Varint.value bs =
          128 ^ (i - 1) * (128 * Varint.value bs) := by
        rw [Nat.add_sub_cancel, ← Nat.mul_assoc, ← pow_succ, Nat.sub_add_cancel hi]
      rw [hb, if_pos rfl, ← hpow, ← Nat.add_assoc] at h
      rw [if_pos rfl, if_pos rfl, if_pos rfl, ih (by omega) h, hpow]
      simp only [Prod.mk.injEq]
      omega

namespace Packet

variable (p : Packet)

theorem body_lt : p.body.length < 128 ^ 4 := by
  have hpow : 128 ^ p.len.length ≤ 128 ^ 4 := Nat.pow_le_pow_right (by decide) p.short
  have hvalue := Varint.value_lt p.len
  rw [p.value] at hvalue
  omega

theorem lengthLoop_append (v : Text) :
    lengthLoop (p.len ++ v) 1 0 = (p.body.length, p.fixed) := by
  have hbody := p.body_lt
  have hvalue := p.isNumber.value_append v
  rw [p.value] at hvalue
  rw [lengthLoop_eq _ (by decide) (by rw [hvalue]; omega), hvalue, p.isNumber.size_append]
  simp only [fixed, Prod.mk.injEq]
  omega

/-- **The length of a packet** is known as soon as its fixed header is there. -/
theorem mqttGetTotalLength_append (v : Text) :
    mqttGetTotalLength (p.first :: (p.len ++ v)) = (p.bytes.length, p.fixed) := by
  have hbody := p.body_lt
  have hshort := p.short
  unfold mqttGetTotalLength
  rw [List.tail_cons, p.lengthLoop_append, p.length_bytes]
  simp only [Prod.mk.injEq, and_true]
  rw [Nat.mod_eq_of_lt]
  · omega
  · unfold fixed
    omega

end Packet

/-! ## Topic and payload -/

/-- **The getters stay inside**, whatever the bytes are: topic and payload lie in what was given,
and the payload behind the topic. -/
theorem publish_in_bounds (buffer : Text) :
    (∀ t n, mqttGetPublishTopic buffer = some (t, n) → t + n ≤ buffer.length) ∧
      ∀ d n, mqttGetPublishData buffer = some (d, n) → d + n ≤ buffer.length ∧
        ∃ t k, mqttGetPublishTopic buffer = some (t, k) ∧ t + k ≤ d := by
  unfold mqttGetPublishTopic mqttGetPublishData
  generalize lengthLoop buffer.tail 1 0 = loop
  obtain ⟨totlen, i⟩ := loop
  dsimp only
  refine ⟨fun t n h => ?_, fun d n h => ?_⟩
  · split at h
    · cases h
    · split at h
      · cases h
      · simp only [Option.some.injEq, Prod.mk.injEq] at h
        omega
  · split at h
    · cases h
    · next hhead =>
      split at h
      · cases h
      · next htopic =>
        rw [if_neg hhead, if_neg (by omega)]
        generalize decide (0 < mqttGetQos (buffer.getD 0 0)) = qos at h
        generalize i32 (totlen + i) = total at h
        split at h
        · cases h
        · next hqos =>
          simp only [Bool.and_eq_true, decide_eq_true_eq, not_and] at hqos
          have hj : ∀ j, (if qos = true then i + 2 + twoByteLength buffer i + 2
              else i + 2 + twoByteLength buffer i) = j →
              i + 2 + twoByteLength buffer i ≤ j ∧ j < buffer.length := by
            intro j hj
            split at hj
            · next hq =>
              have := hqos hq
              omega
            · omega
          generalize (if qos = true then i + 2 + twoByteLength buffer i + 2
              else i + 2 + twoByteLength buffer i) = j at h hj
          obtain ⟨hle, hlt⟩ := hj j rfl
          split at h
          · cases h
          · split at h
            · simp only [Option.some.injEq, Prod.mk.injEq] at h
              exact ⟨by omega, _, _, rfl, by omega⟩
            · simp only [Option.some.injEq, Prod.mk.injEq] at h
              exact ⟨by omega, _, _, rfl, by omega⟩

namespace PublishPacket

variable (m : PublishPacket) (v : Text)

theorem lengthLoop_header : lengthLoop (m.header ++ v).tail 1 0 =
    (m.packet.body.length, m.packet.fixed) := by
  have htail : (m.header ++ v).tail = m.packet.len ++
      ([UInt8.ofNat (m.topic.length / 256), UInt8.ofNat (m.topic.length % 256)] ++ v) := by
    simp [header, packet]
  rw [htail, m.packet.lengthLoop_append]

theorem twoByteLength_header : twoByteLength (m.header ++ v) m.packet.fixed = m.topic.length := by
  have hlt := m.topic_lt
  have hget : ∀ k, (m.header ++ v).getD (m.packet.fixed + k) 0 =
      (UInt8.ofNat (m.topic.length / 256) :: UInt8.ofNat (m.topic.length % 256) :: v).getD k 0 := by
    intro k
    have hsplit : m.header ++ v = (m.first :: m.len) ++
        (UInt8.ofNat (m.topic.length / 256) :: UInt8.ofNat (m.topic.length % 256) :: v) := by
      simp [header]
    have hlen : (m.first :: m.len).length = m.packet.fixed := rfl
    rw [hsplit, ← hlen, List.getD_append_right _ _ _ _ (Nat.le_add_right _ _),
      Nat.add_sub_cancel_left]
  have hhi := hget 0
  have hlo := hget 1
  rw [Nat.add_zero] at hhi
  unfold twoByteLength
  rw [hhi, hlo, List.getD_cons_zero, List.getD_cons_succ, List.getD_cons_zero,
    Varint.toNat_ofNat (by omega), Varint.toNat_ofNat (by omega)]
  omega

/-- **The topic** is found as soon as it is there. -/
theorem mqttGetPublishTopic_append :
    mqttGetPublishTopic (m.header ++ (m.topic ++ v)) = some (m.header.length, m.topic.length) := by
  have hnamed : 0 < m.topic.length := List.length_pos_iff.2 m.named
  have hheader := m.length_header
  unfold mqttGetPublishTopic
  rw [m.lengthLoop_header]
  dsimp only
  rw [m.twoByteLength_header, if_neg, if_neg, hheader]
  · simp only [List.length_append]
    omega
  · simp only [List.length_append]
    omega

theorem mqttGetQos_first : decide (0 < mqttGetQos m.first) = false := by
  unfold first
  cases m.retain <;> decide

/-- **The payload** is found as far as it is there. -/
theorem mqttGetPublishData_append {data : Text} (h : data <+: m.payload) :
    mqttGetPublishData (m.header ++ (m.topic ++ data)) =
      if data = [] then none else some (m.header.length + m.topic.length, data.length) := by
  have hnamed : 0 < m.topic.length := List.length_pos_iff.2 m.named
  have hheader := m.length_header
  have hbody : m.packet.body.length = 2 + m.topic.length + m.payload.length := by
    rw [← m.packet.value]
    exact m.value
  have hlt := m.packet.body_lt
  have hfixed : m.packet.fixed ≤ 5 := Nat.succ_le_succ m.short
  have hle := h.length_le
  have htotal : i32 ((m.packet.body.length : Int) + m.packet.fixed) =
      m.packet.body.length + m.packet.fixed := i32_eq (by unfold InI32; omega)
  have hfirst : (m.header ++ (m.topic ++ data)).getD 0 0 = m.first := rfl
  unfold mqttGetPublishData
  rw [m.lengthLoop_header]
  dsimp only
  rw [m.twoByteLength_header, htotal, hfirst, m.mqttGetQos_first]
  simp only [List.length_append, Bool.false_and, Bool.false_eq_true, if_false]
  by_cases hdata : data = []
  · subst hdata
    rw [if_neg (by omega), if_pos (by simp; omega), if_pos rfl]
  · have hpos : 0 < data.length := List.length_pos_iff.2 hdata
    rw [if_neg (by omega), if_neg (by omega), if_neg (by omega), if_neg hdata]
    split <;> simp only [Option.some.injEq, Prod.mk.injEq] <;> omega

end PublishPacket

end GreenHouse
