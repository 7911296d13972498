import GreenHouse.Mqtt.Deliver

/-!
# Publishing (`mqtt_msg.c`, `mqtt_client.c`)

A packet is built in the output buffer behind the room for its fixed header, which is then written
in front of it. A message that is larger than the buffer goes out in pieces. What was sent of the
payload is counted by `fragmented_msg_data_offset`, a `size_t` that `fini_message` lowers for every
packet and that only a publish sets back.

* `transmitted`: over a whole connection, whatever is published and however the transport takes it,
  the bytes on the wire are the packets published, one behind the other, up to where it breaks.
* `published_relayed`: what one client publishes is what another one posts to its application.
-/

namespace GreenHouse

open CInt CText

/-! ## Building a packet (`mqtt_msg.c`) -/

def mqttMaxFixedHeaderSize : Nat := 5

def mqttMsgTypePingreq : UInt8 := 12

/-- `mqtt_connection_t`: the buffer, and the message from `data` on. -/
structure Connection where
  buffer : Text
  data : Nat
  length : Nat
  totalLength : Nat
  dataOffset : Int

/-- `memcpy` to index `i` of a buffer. -/
def copyTo (buffer : Text) (i : Nat) (bytes : Text) : Text :=
  buffer.take i ++ (bytes ++ buffer.drop (i + bytes.length))

/-- The length bytes `fini_message` writes. -/
def encodedLens (totalLength : Nat) : Text :=
  let encodedLength := totalLength % 128
  let rest := totalLength / 128
  if rest > 0 then UInt8.ofNat (encodedLength ||| 0x80) :: encodedLens rest
  else [UInt8.ofNat encodedLength]
termination_by totalLength

namespace Connection

/-- The message. -/
def bytes (c : Connection) : Text := (c.buffer.drop c.data).take c.length

def initMessage (c : Connection) : Connection := { c with length := mqttMaxFixedHeaderSize }

def failMessage (c : Connection) : Connection := { c with data := 0, length := 0 }

/-- `append_string`; `none` is -1. -/
def appendString (string : Text) (c : Connection) : Option Connection :=
  if c.length + string.length + 2 > c.buffer.length then none
  else
    some { c with
      buffer := copyTo c.buffer c.length (UInt8.ofNat (string.length / 256) ::
        UInt8.ofNat (string.length % 256) :: string)
      length := c.length + (string.length + 2) }

/-- `append_message_id` with the id it draws; `none` is 0. -/
def appendMessageId (id : Nat) (c : Connection) : Option Connection :=
  if c.length + 2 > c.buffer.length then none
  else
    some { c with
      buffer := copyTo c.buffer c.length [UInt8.ofNat (id / 256), UInt8.ofNat (id % 256)]
      length := c.length + 2 }

def finiMessage (type dup qos retain : UInt8) (c : Connection) : Connection :=
  let messageLength := c.length - mqttMaxFixedHeaderSize
  let totalLength := if c.totalLength ≠ 0 then c.totalLength - mqttMaxFixedHeaderSize
    else messageLength
  let lens := encodedLens totalLength
  if lens.length + 1 > mqttMaxFixedHeaderSize then c.failMessage
  else
    let offs := mqttMaxFixedHeaderSize - 1 - lens.length
    { c with
      length := messageLength + lens.length + 1
      data := offs
      dataOffset := u32 (c.dataOffset - offs)
      buffer := copyTo c.buffer offs
        (((type &&& 0x0f) <<< 4 ||| (dup &&& 1) <<< 3 ||| (qos &&& 3) <<< 1 ||| (retain &&& 1)) ::
          lens) }

/-- `data_length` bytes of the payload behind what is in the buffer, or as many as fit. -/
def appendData (data : Option Text) (dataLength : Nat) (c : Connection) : Connection :=
  let payload := (data.getD []).take dataLength
  if c.length + dataLength > c.buffer.length then
    { c with
      dataOffset := c.length
      buffer := copyTo c.buffer c.length (payload.take (c.buffer.length - c.length))
      length := c.buffer.length
      totalLength := dataLength + c.length }
  else
    { c with
      buffer := copyTo c.buffer c.length payload
      length := c.length + payload.length
      totalLength := 0 }

/-- `mqtt_msg_publish`; `id` is the message id that is drawn if one is needed. -/
def mqttMsgPublish (topic : Text) (data : Option Text) (dataLength : Nat) (qos retain : UInt8)
    (id : Nat) (c : Connection) : Connection :=
  let c := c.initMessage
  if topic = [] then c.failMessage
  else
    match c.appendString topic with
    | none => c.failMessage
    | some c =>
      if data = none ∧ 0 < dataLength then c.failMessage
      else
        match if 0 < qos then c.appendMessageId id else some c with
        | none => c.failMessage
        | some c => (c.appendData data dataLength).finiMessage mqttMsgTypePublish 0 qos retain

def mqttMsgPingreq (c : Connection) : Connection :=
  c.initMessage.finiMessage mqttMsgTypePingreq 0 0 0

end Connection

/-! ## Sending it (`mqtt_client.c`) -/

/-- What has been sent, and what the writes to come take: `none` is an error, `some 0` a timeout. A
write behind the last of them times out too. -/
structure Sink where
  sent : Text
  writes : List (Option Nat)

/-- `esp_transport_write`; `none` is an error. -/
def Sink.write (data : Text) (t : Sink) : Option Nat × Sink :=
  match t.writes with
  | [] => (some 0, t)
  | none :: writes => (none, { t with writes := writes })
  | some k :: writes => (some (min data.length k), ⟨t.sent ++ data.take k, writes⟩)

/-- `esp_mqtt_write`; every turn of its loop sends at least a byte. -/
def espMqttWrite : Nat → Text → Sink → Bool × Sink
  | 0, _, t => (true, t)
  | turns + 1, data, t =>
    if data = [] then (true, t)
    else
      match t.write data with
      | (none, t) => (false, t)
      | (some 0, t) => (false, t)
      | (some (k + 1), t) => espMqttWrite turns (data.drop (k + 1)) t

/-- Without a length the data is a string. -/
def publishLen (data : Option Text) (len : Nat) : Nat :=
  if len = 0 then (data.map fun d => (cstr d).length).getD len else len

/-- The client; `up` is whether it is connected. -/
structure Outbound where
  conn : Connection
  sink : Sink
  up : Bool

namespace Outbound

/-- `mqtt_write_data`, followed by `esp_mqtt_abort_connection` where it fails. -/
def writeData (o : Outbound) : Bool × Outbound :=
  match espMqttWrite o.conn.bytes.length o.conn.bytes o.sink with
  | (true, t) => (true, { o with sink := t })
  | (false, t) => (false, { o with sink := t, up := false })

/-- The loop of `esp_mqtt_client_publish` on the payload `data`, of which `remaining` bytes are
left. Every turn takes one of the writes to come. -/
def sendLoop (data : Text) : Nat → Int → Outbound → Bool × Outbound
  | 0, _, o => (false, o)
  | turns + 1, remaining, o =>
    match o.writeData with
    | (false, o) => (false, { o with conn.totalLength := 0 })
    | (true, o) =>
      let dataSent := i32 (o.conn.length - o.conn.dataOffset)
      let c := { o.conn with dataOffset := 0, totalLength := 0 }
      let remaining := i32 (remaining - dataSent)
      if remaining > 0 then
        let n := min remaining.toNat c.buffer.length
        let piece := (data.drop (data.length - remaining.toNat)).take n
        sendLoop data turns remaining
          { o with conn := { c with buffer := copyTo c.buffer 0 piece, length := n, data := 0 } }
      else (true, { o with conn := c })

/-- `esp_mqtt_client_publish` with QoS 0: whether the message was sent. -/
def espMqttClientPublish (topic : Text) (data : Option Text) (len : Nat) (retain : Bool)
    (o : Outbound) : Bool × Outbound :=
  let len := publishLen data len
  let c := o.conn.mqttMsgPublish topic data len 0 (if retain then 1 else 0) 0
  if c.length = 0 then (false, { o with conn := c })
  else if o.up = false then (false, { o with conn := { c with totalLength := 0 } })
  else sendLoop ((data.getD []).take len) (o.sink.writes.length + 1) len { o with conn := c }

/-- `esp_mqtt_client_ping`, with what `esp_mqtt_task` does if it fails. -/
def espMqttClientPing (o : Outbound) : Bool × Outbound :=
  let c := o.conn.mqttMsgPingreq
  if c.length = 0 then (false, { o with conn := c, up := false })
  else { o with conn := c }.writeData

end Outbound

/-! ## What is built -/

theorem encodedLens_eq (n : Nat) : encodedLens n = Varint.encode n := by
  induction n using Nat.strongRecOn with
  | ind n ih =>
    rw [encodedLens, Varint.encode]
    by_cases h : n < 128
    · rw [if_pos h, if_neg (by omega), Nat.mod_eq_of_lt h]
    · have hor : n % 128 ||| 0x80 = n % 128 + 128 :=
        Nat.or_two_pow_eq_add_of_lt (n := 7) (Nat.mod_lt n (by decide))
      rw [if_neg h, if_pos (by omega), hor, ih (n / 128) (by omega)]

theorem length_copyTo {buffer bytes : Text} {i : Nat} (h : i + bytes.length ≤ buffer.length) :
    (copyTo buffer i bytes).length = buffer.length := by
  simp only [copyTo, List.length_append, List.length_take, List.length_drop]
  omega

namespace Connection

/-- Behind the room for the fixed header the buffer holds `body`. -/
structure Holds (c : Connection) (body : Text) : Prop where
  length : c.length = 5 + body.length
  buffer : ∃ head tail, head.length = 5 ∧ c.buffer = head ++ (body ++ tail)

variable {c c' : Connection} {body bytes : Text}

theorem holds_initMessage (h : 5 ≤ c.buffer.length) : c.initMessage.Holds [] :=
  ⟨rfl, c.buffer.take 5, c.buffer.drop 5, List.length_take_of_le h,
    (List.take_append_drop 5 c.buffer).symm⟩

/-- Bytes copied behind what is there. -/
theorem Holds.append (h : c.Holds body) (hbuffer : c'.buffer = copyTo c.buffer c.length bytes)
    (hlength : c'.length = c.length + bytes.length) : c'.Holds (body ++ bytes) := by
  obtain ⟨hlen, head, tail, hhead, hbuf⟩ := h
  refine ⟨by rw [hlength, hlen, List.length_append, Nat.add_assoc], head, tail.drop bytes.length,
    hhead, ?_⟩
  have hsplit : c.length = (head ++ body).length := by rw [hlen, List.length_append, hhead]
  rw [hbuffer, copyTo, hbuf, hsplit, ← List.append_assoc head, List.take_left,
    List.drop_length_add_append]
  simp only [List.append_assoc]

/-- **The finished packet**: the fixed header is in front of the body. -/
theorem finiMessage_spec (h : c.Holds body) (type dup qos retain : UInt8) {total : Nat}
    (htotal : (if c.totalLength ≠ 0 then c.totalLength - 5 else body.length) = total)
    (hlt : total < 128 ^ 4) :
    (c.finiMessage type dup qos retain).bytes =
        ((type &&& 0x0f) <<< 4 ||| (dup &&& 1) <<< 3 ||| (qos &&& 3) <<< 1 ||| (retain &&& 1)) ::
          (Varint.encode total ++ body) ∧
      (c.finiMessage type dup qos retain).length = 1 + (Varint.encode total).length + body.length ∧
      (c.finiMessage type dup qos retain).buffer.length = c.buffer.length ∧
      (c.finiMessage type dup qos retain).dataOffset =
        u32 (c.dataOffset - (4 - (Varint.encode total).length : Nat)) ∧
      (c.finiMessage type dup qos retain).totalLength = c.totalLength := by
  obtain ⟨hlen, head, tail, hhead, hbuf⟩ := h
  have hbody : c.length - mqttMaxFixedHeaderSize = body.length := by
    rw [hlen]
    exact Nat.add_sub_cancel_left 5 _
  have hshort : (Varint.encode total).length ≤ 4 := Varint.length_encode_le (by decide) hlt
  unfold finiMessage
  dsimp only
  rw [hbody]
  unfold mqttMaxFixedHeaderSize
  rw [htotal, encodedLens_eq, if_neg (by omega)]
  dsimp only
  generalize (type &&& 0x0f) <<< 4 ||| (dup &&& 1) <<< 3 ||| (qos &&& 3) <<< 1 ||| (retain &&& 1) =
    first
  generalize Varint.encode total = lens at hshort
  have hend : 5 - 1 - lens.length + (first :: lens).length = head.length := by
    rw [hhead, List.length_cons]
    omega
  refine ⟨?_, by omega, length_copyTo ?_, rfl, rfl⟩
  · have hoffs : (head.take (5 - 1 - lens.length)).length = 5 - 1 - lens.length :=
      List.length_take_of_le (by omega)
    have hcopy : copyTo c.buffer (5 - 1 - lens.length) (first :: lens) =
        head.take (5 - 1 - lens.length) ++ ((first :: lens ++ body) ++ tail) := by
      rw [copyTo, hend, hbuf, List.drop_left, List.take_append_of_le_length (by omega),
        List.append_assoc]
    have hlength : body.length + lens.length + 1 = (first :: lens ++ body).length := by
      simp only [List.length_append, List.length_cons]
      omega
    unfold bytes
    dsimp only
    rw [hcopy, hlength, List.drop_left' hoffs, List.take_left]
    rfl
  · rw [hend, hbuf, List.length_append]
    exact Nat.le_add_right _ _

end Connection

/-! ## Messages -/

/-- A message as the application hands it over. -/
structure Publication where
  topic : Text
  data : Option Text
  len : Nat
  retain : Bool
  named : topic ≠ []
  topic_lt : topic.length < 2 ^ 16
  given : len ≤ (data.getD []).length
  total_lt : 2 + topic.length + ((data.getD []).take (publishLen data len)).length < 128 ^ 4

namespace Publication

variable (p : Publication)

def payload : Text := (p.data.getD []).take (publishLen p.data p.len)

theorem length_payload : p.payload.length = publishLen p.data p.len := by
  have hgiven := p.given
  refine List.length_take_of_le ?_
  unfold publishLen
  split
  · cases hd : p.data with
    | none =>
      rw [hd] at hgiven
      exact hgiven
    | some d => exact (List.takeWhile_prefix _).length_le
  · exact hgiven

theorem short_encode :
    (Varint.encode (2 + p.topic.length + p.payload.length)).length ≤ 4 :=
  Varint.length_encode_le (by decide) p.total_lt

/-- The message of the format. -/
def message : PublishPacket where
  retain := p.retain
  len := Varint.encode (2 + p.topic.length + p.payload.length)
  topic := p.topic
  payload := p.payload
  isNumber := Varint.isNumber_encode _
  short := p.short_encode
  value := Varint.value_encode _
  named := p.named
  topic_lt := p.topic_lt

/-- The topic with its length. -/
def head : Text :=
  UInt8.ofNat (p.topic.length / 256) :: UInt8.ofNat (p.topic.length % 256) :: p.topic

theorem length_head : p.head.length = p.topic.length + 2 := rfl

def first : UInt8 := if p.retain then 0x31 else 0x30

theorem bytes_message : p.message.packet.bytes =
    p.first :: (Varint.encode (2 + p.topic.length + p.payload.length) ++ (p.head ++ p.payload)) :=
  rfl

theorem first_eq : (mqttMsgTypePublish &&& 0x0f) <<< 4 ||| ((0 : UInt8) &&& 1) <<< 3 |||
    ((0 : UInt8) &&& 3) <<< 1 ||| ((if p.retain then 1 else 0) &&& 1) = p.first := by
  unfold first
  cases p.retain <;> decide

end Publication

namespace Connection

variable {c : Connection}

/-- The offset was lowered by at most `k` since it was set back. -/
def Behind (c : Connection) (k : Nat) : Prop := ∃ j ≤ k, c.dataOffset = u32 (-j)

/-- Of a packet `piece` is in the buffer and `rest`, the end of the payload, is left behind it. -/
structure Ready (c : Connection) (data : Text) (remaining : Int) (piece rest : Text) : Prop where
  bytes : c.bytes = piece
  length : c.length = piece.length
  ne_nil : piece ≠ []
  suffix : rest <:+ data
  left : (i32 (remaining - i32 (c.length - c.dataOffset))).toNat = rest.length

theorem appendString_spec {topic : Text} (hfit : 7 + topic.length ≤ c.buffer.length) :
    ∃ c', c.initMessage.appendString topic = some c' ∧
      c'.Holds (UInt8.ofNat (topic.length / 256) :: UInt8.ofNat (topic.length % 256) :: topic) ∧
      c'.buffer.length = c.buffer.length ∧ c'.dataOffset = c.dataOffset := by
  have hstart : c.initMessage.Holds [] := holds_initMessage (by omega)
  have hlength : c.initMessage.length = 5 := rfl
  have hbuffer : c.initMessage.buffer = c.buffer := rfl
  unfold appendString
  rw [hlength, hbuffer, if_neg (by omega)]
  refine ⟨_, rfl, hstart.append rfl rfl, length_copyTo ?_, rfl⟩
  rw [List.length_cons, List.length_cons]
  omega

theorem ready_finiMessage (p : Publication) {sent rest : Text} (hsplit : p.payload = sent ++ rest)
    (h : c.Holds (p.head ++ sent))
    (htotal : (if c.totalLength ≠ 0 then c.totalLength - 5 else (p.head ++ sent).length) =
      2 + p.topic.length + p.payload.length)
    (hleft : (i32 (p.payload.length - i32 (c.length - c.dataOffset))).toNat = rest.length) :
    let c' := c.finiMessage mqttMsgTypePublish 0 0 (if p.retain then 1 else 0)
    c'.buffer.length = c.buffer.length ∧
      ∃ piece, p.message.packet.bytes = piece ++ rest ∧
        c'.Ready p.payload p.payload.length piece rest := by
  intro c'
  have hshort := p.short_encode
  obtain ⟨hbytes, hlength, hbuffer, hoff, -⟩ := finiMessage_spec h mqttMsgTypePublish 0 0
    (if p.retain then 1 else 0) htotal p.total_lt
  rw [p.first_eq] at hbytes
  refine ⟨hbuffer, _, ?_, hbytes, ?_, List.cons_ne_nil _ _, ⟨sent, hsplit.symm⟩, ?_⟩
  · rw [p.bytes_message, hsplit]
    simp
  · refine hlength.trans ?_
    simp only [List.length_cons, List.length_append]
    omega
  · -- the header lies in front of the data by as much as the offset is lowered
    have hdist : (c'.length : Int) - (c.dataOffset -
        (4 - (Varint.encode (2 + p.topic.length + p.payload.length)).length : Nat)) =
        c.length - c.dataOffset := by
      rw [hlength, h.length]
      omega
    rw [hoff, i32_sub_u32, hdist, hleft]

theorem toNat_i32_sub {a : Nat} {b : Int} (ha : a < 2 ^ 31) (hb : 0 ≤ b) (hlt : b < 2 ^ 31) :
    (i32 (a - i32 b)).toNat = (a - b).toNat := by
  have hb32 : i32 b = b := i32_eq (by unfold InI32; omega)
  have hsub : i32 (a - b) = a - b := i32_eq (by unfold InI32; omega)
  rw [hb32, hsub]

/-- **A publish** builds the head of its packet, and knows what is left of the payload. -/
theorem mqttMsgPublish_spec (p : Publication) (hfit : 7 + p.topic.length ≤ c.buffer.length)
    {k : Nat} (hk : k < 2 ^ 30) (hbehind : c.Behind k) :
    let c' := c.mqttMsgPublish p.topic p.data (publishLen p.data p.len) 0
      (if p.retain then 1 else 0) 0
    c'.buffer.length = c.buffer.length ∧
      ∃ piece rest, p.message.packet.bytes = piece ++ rest ∧
        c'.Ready p.payload p.payload.length piece rest := by
  have hlen := p.length_payload
  have hlt := p.message.packet.body_lt
  have hbody : p.message.packet.body.length = 2 + p.topic.length + p.payload.length := by
    rw [← p.message.packet.value]
    exact p.message.value
  intro c'
  have hnull : ¬ (p.data = none ∧ 0 < publishLen p.data p.len) := by
    rintro ⟨hnone, hpos⟩
    rw [← hlen, Publication.payload, hnone] at hpos
    simp at hpos
  obtain ⟨c₁, hc₁, hholds, hbuf₁, hoff₁⟩ := appendString_spec hfit
  have hlength : c₁.length = 7 + p.topic.length := by
    rw [hholds.length, List.length_cons, List.length_cons]
    omega
  have hc' : c' = (c₁.appendData p.data p.payload.length).finiMessage mqttMsgTypePublish 0 0
      (if p.retain then 1 else 0) := by
    show mqttMsgPublish _ _ _ _ _ _ _ = _
    unfold mqttMsgPublish
    dsimp only
    rw [if_neg p.named, hc₁, hlen]
    dsimp only
    rw [if_neg hnull, if_neg (by decide)]
  have hpayload : (p.data.getD []).take p.payload.length = p.payload := by
    rw [hlen]
    rfl
  rw [hc']
  by_cases hlarge : c.buffer.length < 7 + p.topic.length + p.payload.length
  · -- the payload goes into the buffer as far as there is room
    have hdata : c₁.appendData p.data p.payload.length =
        { c₁ with
          dataOffset := (7 + p.topic.length : Nat)
          buffer := copyTo c₁.buffer c₁.length
            (p.payload.take (c.buffer.length - (7 + p.topic.length)))
          length := c.buffer.length
          totalLength := p.payload.length + (7 + p.topic.length) } := by
      unfold appendData
      rw [hpayload, hlength, hbuf₁]
      exact if_pos hlarge
    have hroom : (p.payload.take (c.buffer.length - (7 + p.topic.length))).length =
        c.buffer.length - (7 + p.topic.length) := List.length_take_of_le (by omega)
    have hsent : (c₁.appendData p.data p.payload.length).Holds
        (p.head ++ p.payload.take (c.buffer.length - (7 + p.topic.length))) := by
      rw [hdata]
      refine hholds.append rfl ?_
      dsimp only
      omega
    obtain ⟨hbuffer, piece, hpiece⟩ := ready_finiMessage p (List.take_append_drop _ _).symm hsent
      (by rw [hdata]; dsimp only; rw [if_pos (by omega)]; omega) (by
        rw [hdata, List.length_drop]
        dsimp only
        rw [toNat_i32_sub (by omega) (by omega) (by omega)]
        omega)
    refine ⟨hbuffer.trans ?_, piece, _, hpiece⟩
    rw [hdata]
    exact (length_copyTo (by omega)).trans hbuf₁
  · have hdata : c₁.appendData p.data p.payload.length =
        { c₁ with
          buffer := copyTo c₁.buffer c₁.length p.payload
          length := c₁.length + p.payload.length
          totalLength := 0 } := by
      unfold appendData
      rw [hpayload, hlength, hbuf₁]
      exact if_neg hlarge
    have hsent : (c₁.appendData p.data p.payload.length).Holds (p.head ++ p.payload) := by
      rw [hdata]
      exact hholds.append rfl rfl
    obtain ⟨j, hj, hoffset⟩ := hbehind
    obtain ⟨hbuffer, piece, hpiece⟩ := ready_finiMessage p (List.append_nil _).symm hsent
      (by rw [hdata, if_neg (by simp), List.length_append, p.length_head]; omega) (by
        rw [hdata]
        dsimp only
        rw [hoff₁, hoffset, i32_sub_u32, toNat_i32_sub (by omega) (by omega) (by omega),
          List.length_nil]
        omega)
    refine ⟨hbuffer.trans ?_, piece, _, hpiece⟩
    rw [hdata]
    exact (length_copyTo (by omega)).trans hbuf₁

end Connection

/-! ## What is sent -/

/-- The writes to come all take something, and there are at least `k` of them. -/
structure Sink.Accepts (t : Sink) (k : Nat) : Prop where
  some_pos : ∀ w ∈ t.writes, ∃ m, w = some (m + 1)
  enough : k ≤ t.writes.length

/-- What a try to send `data` does: it sends a part of it, all if it succeeds, and it succeeds if
the transport takes something every time. -/
structure Wrote (data : Text) (t : Sink) (ok : Bool) (t' : Sink) : Prop where
  sent : ∃ part, part <+: data ∧ t'.sent = t.sent ++ part ∧ (ok = true → part = data)
  le : t'.writes.length ≤ t.writes.length
  used : ok = true → data ≠ [] → t'.writes.length < t.writes.length
  live : ∀ k, t.Accepts (data.length + k) → ok = true ∧ t'.Accepts k

section Wrote

variable {data rest : Text} {t t' t'' : Sink} {ok : Bool}

theorem Wrote.nil (t : Sink) : Wrote [] t true t where
  sent := ⟨[], List.prefix_rfl, (List.append_nil _).symm, fun _ => rfl⟩
  le := Nat.le_refl _
  used _ hne := absurd rfl hne
  live k h := ⟨rfl, by rwa [List.length_nil, Nat.zero_add] at h⟩

theorem Wrote.trans (h : Wrote data t true t') (h' : Wrote rest t' ok t'') :
    Wrote (data ++ rest) t ok t'' where
  sent := by
    obtain ⟨part, -, hsent, hall⟩ := h.sent
    obtain ⟨part', hpart', hsent', hall'⟩ := h'.sent
    rw [hall rfl] at hsent
    refine ⟨data ++ part', (List.prefix_append_right_inj data).2 hpart', ?_, fun hok => ?_⟩
    · rw [hsent', hsent, List.append_assoc]
    · rw [hall' hok]
  le := h'.le.trans h.le
  used hok hne := by
    by_cases hdata : data = []
    · have hrest : rest ≠ [] := fun hrest => hne (by rw [hdata, hrest]; rfl)
      exact (h'.used hok hrest).trans_le h.le
    · exact h'.le.trans_lt (h.used rfl hdata)
  live k hk := by
    rw [List.length_append, Nat.add_assoc] at hk
    exact h'.live k (h.live _ hk).2

theorem Wrote.fail (h : Wrote data t false t') (rest : Text) : Wrote (data ++ rest) t false t' where
  sent := by
    obtain ⟨part, hpart, hsent, -⟩ := h.sent
    exact ⟨part, hpart.trans (List.prefix_append data rest), hsent, nofun⟩
  le := h.le
  used := nofun
  live k hk := by
    rw [List.length_append, Nat.add_assoc] at hk
    exact nomatch (h.live _ hk).1

/-- A write takes the beginning of what it is given. -/
theorem Sink.write_cases (hne : data ≠ []) (t : Sink) :
    (∃ t', t.write data = (none, t') ∧ Wrote data t false t') ∨
      (∃ t', t.write data = (some 0, t') ∧ Wrote data t false t') ∨
      ∃ k t', t.write data = (some (k + 1), t') ∧ k < data.length ∧
        Wrote (data.take (k + 1)) t true t' := by
  have hpos : 0 < data.length := List.length_pos_iff.2 hne
  unfold Sink.write
  obtain ⟨sent, writes⟩ := t
  cases writes with
  | nil =>
    refine Or.inr (Or.inl ⟨_, rfl, ⟨[], List.nil_prefix, (List.append_nil _).symm, nofun⟩,
      Nat.le_refl _, nofun, fun k hk => ?_⟩)
    have henough : data.length + k ≤ 0 := hk.enough
    omega
  | cons w writes =>
    cases w with
    | none =>
      refine Or.inl ⟨_, rfl, ⟨[], List.nil_prefix, (List.append_nil _).symm, nofun⟩,
        Nat.le_succ _, nofun, fun k hk => ?_⟩
      obtain ⟨m, hm⟩ := hk.some_pos _ List.mem_cons_self
      cases hm
    | some m =>
      cases m with
      | zero =>
        have hzero : data.take 0 = [] := List.take_zero
        refine Or.inr (Or.inl ⟨⟨sent ++ data.take 0, writes⟩, by dsimp only; rw [Nat.min_zero],
          ⟨[], List.nil_prefix, by rw [hzero], nofun⟩, Nat.le_succ _, nofun, fun k hk => ?_⟩)
        obtain ⟨m, hm⟩ := hk.some_pos _ List.mem_cons_self
        cases hm
      | succ m =>
        obtain ⟨n, hn⟩ : ∃ n, min data.length (m + 1) = n + 1 :=
          ⟨min data.length (m + 1) - 1, by omega⟩
        have htake : data.take (m + 1) = data.take (n + 1) := by
          rw [← hn, Nat.min_comm, ← List.take_eq_take_min]
        refine Or.inr (Or.inr ⟨n, ⟨sent ++ data.take (m + 1), writes⟩, by dsimp only; rw [hn],
          by omega, ⟨_, List.prefix_rfl, by rw [htake], fun _ => rfl⟩, Nat.le_succ _,
          fun _ _ => Nat.lt_succ_self _, fun k hk => ⟨rfl, ?_, ?_⟩⟩)
        · exact fun w hw => hk.some_pos w (List.mem_cons_of_mem _ hw)
        · have := hk.enough
          rw [List.length_take, List.length_cons] at this
          dsimp only
          omega

/-- **A packet is sent**, in as many writes as it takes. -/
theorem espMqttWrite_wrote {turns : Nat} (h : data.length ≤ turns) (t : Sink) :
    Wrote data t (espMqttWrite turns data t).1 (espMqttWrite turns data t).2 := by
  induction turns generalizing data t with
  | zero =>
    obtain rfl : data = [] := List.length_eq_zero_iff.1 (Nat.le_zero.1 h)
    exact .nil t
  | succ turns ih =>
    rw [espMqttWrite]
    by_cases hnil : data = []
    · subst hnil
      rw [if_pos rfl]
      exact .nil t
    · rw [if_neg hnil]
      rcases Sink.write_cases hnil t with ⟨t', ht', hw⟩ | ⟨t', ht', hw⟩ | ⟨k, t', ht', hk, hw⟩
      · rw [ht']
        exact hw
      · rw [ht']
        exact hw
      · rw [ht']
        have hrest : (data.drop (k + 1)).length ≤ turns := by
          rw [List.length_drop]
          omega
        have := hw.trans (ih hrest t')
        rwa [List.take_append_drop] at this

end Wrote

/-! ## One packet -/

/-- What a call does for a packet of these bytes: it sends them, and the connection is up if and
only if that succeeded. The offset is then at most `k` behind. -/
structure Sends (bytes : Text) (k : Nat) (o : Outbound) (ok : Bool) (o' : Outbound) : Prop where
  wrote : Wrote bytes o.sink ok o'.sink
  up : o'.up = ok
  buffer : o'.conn.buffer.length = o.conn.buffer.length
  total : o'.conn.totalLength = 0
  behind : ok = true → o'.conn.Behind k

/-- The next piece of a payload, at the head of the buffer. -/
theorem Connection.ready_piece (c : Connection) {data rest : Text} (hlt : data.length < 2 ^ 31)
    (hbuf : 0 < c.buffer.length) (hrest : rest ≠ []) (hsuffix : rest <:+ data) :
    let n := min rest.length c.buffer.length
    let buffer := copyTo c.buffer 0 ((data.drop (data.length - rest.length)).take n)
    Connection.Ready ⟨buffer, 0, n, 0, 0⟩ data rest.length (rest.take n) (rest.drop n) := by
  intro n buffer
  have hpos : 0 < rest.length := List.length_pos_iff.2 hrest
  have hle := hsuffix.length_le
  have hlen : (rest.take n).length = n := List.length_take_of_le (Nat.min_le_left _ _)
  have hdrop : data.drop (data.length - rest.length) = rest :=
    (List.suffix_iff_eq_drop.1 hsuffix).symm
  refine ⟨?_, hlen.symm, ?_, (List.drop_suffix n rest).trans hsuffix, ?_⟩
  · show (buffer.drop 0).take n = _
    have hbuffer : buffer = rest.take n ++ c.buffer.drop (0 + (rest.take n).length) := by
      show copyTo _ _ _ = _
      rw [hdrop, copyTo, List.take_zero, List.nil_append]
    rw [List.drop_zero, hbuffer]
    exact List.take_left' hlen
  · exact List.ne_nil_of_length_pos (by omega)
  · dsimp only
    rw [toNat_i32_sub (by omega) (by omega) (by omega), List.length_drop]
    omega

namespace Outbound

theorem writeData_cases (o : Outbound) :
    (∃ t, o.writeData = (true, { o with sink := t }) ∧ Wrote o.conn.bytes o.sink true t) ∨
      ∃ t, o.writeData = (false, { o with sink := t, up := false }) ∧
        Wrote o.conn.bytes o.sink false t := by
  have hwrote := espMqttWrite_wrote (Nat.le_refl o.conn.bytes.length) o.sink
  unfold writeData
  generalize espMqttWrite o.conn.bytes.length o.conn.bytes o.sink = r at hwrote ⊢
  obtain ⟨ok, t⟩ := r
  cases ok with
  | true => exact Or.inl ⟨t, rfl, hwrote⟩
  | false => exact Or.inr ⟨t, rfl, hwrote⟩

/-- **The loop sends what is left**, a buffer at a time. -/
theorem sendLoop_sends {data piece rest : Text} {remaining : Int} {turns : Nat} {o : Outbound}
    (hlt : data.length < 2 ^ 31) (hup : o.up = true) (hbuf : 0 < o.conn.buffer.length)
    (hturns : o.sink.writes.length < turns) (h : o.conn.Ready data remaining piece rest) :
    Sends (piece ++ rest) 0 o (sendLoop data turns remaining o).1
      (sendLoop data turns remaining o).2 := by
  induction turns generalizing piece rest remaining o with
  | zero => exact absurd hturns (Nat.not_lt_zero _)
  | succ turns ih =>
    obtain ⟨hbytes, hlength, hne, hsuffix, hleft⟩ := h
    rw [sendLoop]
    rcases o.writeData_cases with ⟨t, ht, hw⟩ | ⟨t, ht, hw⟩
    · rw [ht]
      rw [hbytes] at hw
      dsimp only
      split
      · next hpos =>
        have hrest : rest ≠ [] := fun hnil => by
          rw [hnil, List.length_nil] at hleft
          omega
        have hremaining : i32 (remaining - i32 (o.conn.length - o.conn.dataOffset)) =
            rest.length := by omega
        have hready := o.conn.ready_piece hlt hbuf hrest hsuffix
        dsimp only at hready
        rw [hremaining, Int.toNat_natCast]
        have hlen : (copyTo o.conn.buffer 0 ((data.drop (data.length - rest.length)).take
            (min rest.length o.conn.buffer.length))).length = o.conn.buffer.length := by
          refine length_copyTo ?_
          rw [Nat.zero_add, List.length_take]
          omega
        generalize min rest.length o.conn.buffer.length = n at hready hlen ⊢
        generalize copyTo o.conn.buffer 0 ((data.drop (data.length - rest.length)).take n) = buffer
          at hready hlen ⊢
        have hnext := ih (o := ⟨⟨buffer, 0, n, 0, 0⟩, t, o.up⟩) hup (hbuf.trans_eq hlen.symm)
          ((hw.used rfl hne).trans_le (Nat.le_of_lt_succ hturns)) hready
        rw [List.take_append_drop] at hnext
        exact ⟨hw.trans hnext.wrote, hnext.up, hnext.buffer.trans hlen, hnext.total, hnext.behind⟩
      · next hnone =>
        obtain rfl : rest = [] := by
          rw [← List.length_eq_zero_iff, ← hleft]
          omega
        rw [List.append_nil]
        exact ⟨hw, hup, rfl, rfl, fun _ => ⟨0, Nat.le_refl 0, rfl⟩⟩
    · rw [ht]
      rw [hbytes] at hw
      exact ⟨hw.fail rest, rfl, rfl, rfl, nofun⟩

/-- **A publish sends its packet.** -/
theorem espMqttClientPublish_sends (p : Publication) {k : Nat} {o : Outbound} (hup : o.up = true)
    (hfit : 7 + p.topic.length ≤ o.conn.buffer.length) (hk : k < 2 ^ 30)
    (hbehind : o.conn.Behind k) :
    Sends p.message.packet.bytes 0 o (o.espMqttClientPublish p.topic p.data p.len p.retain).1
      (o.espMqttClientPublish p.topic p.data p.len p.retain).2 := by
  obtain ⟨hbuffer, piece, rest, hpacket, hready⟩ := o.conn.mqttMsgPublish_spec p hfit hk hbehind
  have hlt : p.payload.length < 2 ^ 31 := by
    have := p.total_lt
    unfold Publication.payload
    omega
  unfold espMqttClientPublish
  dsimp only
  rw [← p.length_payload] at hbuffer hready ⊢
  generalize o.conn.mqttMsgPublish p.topic p.data p.payload.length 0 (if p.retain then 1 else 0) 0 =
    c at hbuffer hready ⊢
  have hlength : c.length ≠ 0 := by
    rw [hready.length]
    exact fun h => hready.ne_nil (List.length_eq_zero_iff.1 h)
  have hpayload : (p.data.getD []).take p.payload.length = p.payload := by
    rw [p.length_payload]
    rfl
  rw [if_neg hlength, if_neg (by rw [hup]; decide), hpayload, hpacket]
  have hloop := sendLoop_sends (o := { o with conn := c }) hlt hup (by rw [hbuffer]; omega)
    (Nat.lt_succ_self _) hready
  exact ⟨hloop.wrote, hloop.up, hloop.buffer.trans hbuffer, hloop.total, hloop.behind⟩

/-- A PINGREQ. -/
def pingreq : Text := [0xc0, 0]

/-- **So does a ping.** -/
theorem espMqttClientPing_sends {k : Nat} {o : Outbound} (hup : o.up = true)
    (hfit : 5 ≤ o.conn.buffer.length) (htotal : o.conn.totalLength = 0)
    (hbehind : o.conn.Behind k) :
    Sends pingreq (k + 3) o o.espMqttClientPing.1 o.espMqttClientPing.2 := by
  obtain ⟨j, hj, hoffset⟩ := hbehind
  have hholds : o.conn.initMessage.Holds [] := Connection.holds_initMessage hfit
  have hzero : (if o.conn.initMessage.totalLength ≠ 0 then o.conn.initMessage.totalLength - 5
      else ([] : Text).length) = 0 := by
    rw [if_neg (by rw [Connection.initMessage, htotal]; simp)]
    rfl
  obtain ⟨hbytes, hlength, hbuffer, hoff, htotal'⟩ := Connection.finiMessage_spec hholds
    mqttMsgTypePingreq 0 0 0 hzero (by decide)
  have hencode : Varint.encode 0 = [0] := by rw [Varint.encode]; rfl
  rw [hencode] at hbytes hlength hoff
  unfold espMqttClientPing Connection.mqttMsgPingreq
  dsimp only
  generalize o.conn.initMessage.finiMessage mqttMsgTypePingreq 0 0 0 = c at *
  have hbehind : c.Behind (k + 3) := by
    refine ⟨j + 3, Nat.add_le_add_right hj 3, ?_⟩
    have hoffset' : o.conn.initMessage.dataOffset = u32 (-j) := hoffset
    rw [hoff, hoffset', u32_sub]
    congr 1
    simp
    omega
  have hsent : c.bytes = pingreq := hbytes
  rw [if_neg (by rw [hlength]; simp)]
  rcases ({ o with conn := c } : Outbound).writeData_cases with ⟨t, ht, hw⟩ | ⟨t, ht, hw⟩
  · rw [ht]
    rw [hsent] at hw
    exact ⟨hw, hup, hbuffer, htotal'.trans htotal, fun _ => hbehind⟩
  · rw [ht]
    rw [hsent] at hw
    exact ⟨hw, rfl, hbuffer, htotal'.trans htotal, fun h => absurd h Bool.false_ne_true⟩

end Outbound

/-! ## A whole connection -/

/-- What the client is asked to send. -/
inductive Request where
  | publish (p : Publication)
  | ping

namespace Request

def bytes : Request → Text
  | publish p => p.message.packet.bytes
  | ping => Outbound.pingreq

/-- The topic fits into the buffer. -/
def Fits (bufLen : Nat) : Request → Prop
  | publish p => 7 + p.topic.length ≤ bufLen
  | ping => 5 ≤ bufLen

end Request

namespace Outbound

/-- A request; the task pings on a connection only. -/
def request (o : Outbound) : Request → Outbound
  | .publish p => (o.espMqttClientPublish p.topic p.data p.len p.retain).2
  | .ping => if o.up then o.espMqttClientPing.2 else o

def transmit (o : Outbound) (rs : List Request) : Outbound := rs.foldl request o

/-- Between two requests on a connection, with the offset at most `k` behind. -/
structure Idle (o : Outbound) (k : Nat) : Prop where
  up : o.up = true
  total : o.conn.totalLength = 0
  behind : o.conn.Behind k

/-- The bytes went out, or as many of them as the connection took before it broke; it does not break
if the transport takes something every time. -/
structure Carried (bytes : Text) (o o' : Outbound) : Prop where
  sent : ∃ part, part <+: bytes ∧ o'.sink.sent = o.sink.sent ++ part ∧ (o'.up = true → part = bytes)
  live : o.sink.Accepts bytes.length → o'.up = true

theorem request_sends {r : Request} {k : Nat} {o : Outbound} (h : o.Idle k) (hk : k < 2 ^ 30)
    (hfit : r.Fits o.conn.buffer.length) :
    ∃ ok, Sends r.bytes (k + 3) o ok (o.request r) := by
  cases r with
  | publish p =>
    have hsends := espMqttClientPublish_sends p h.up hfit hk h.behind
    refine ⟨_, hsends.wrote, hsends.up, hsends.buffer, hsends.total, fun hok => ?_⟩
    obtain ⟨j, hj, hoffset⟩ := hsends.behind hok
    exact ⟨j, hj.trans (Nat.zero_le _), hoffset⟩
  | ping =>
    have hsends := espMqttClientPing_sends h.up hfit h.total h.behind
    refine ⟨o.espMqttClientPing.1, ?_⟩
    unfold request
    rwa [if_pos h.up]

/-- Nothing is sent on a connection that broke. -/
theorem transmit_down {o : Outbound} (h : o.up = false) (rs : List Request) :
    (o.transmit rs).sink = o.sink ∧ (o.transmit rs).up = false := by
  induction rs generalizing o with
  | nil => exact ⟨rfl, h⟩
  | cons r rs ih =>
    have hstep : (o.request r).sink = o.sink ∧ (o.request r).up = false := by
      cases r with
      | publish p =>
        unfold request espMqttClientPublish
        dsimp only
        generalize Connection.mqttMsgPublish _ _ _ _ _ _ _ = c
        rw [if_pos h]
        split
        · exact ⟨rfl, h⟩
        · exact ⟨rfl, h⟩
      | ping =>
        unfold request
        rw [h, if_neg (by decide)]
        exact ⟨rfl, h⟩
    obtain ⟨hsink, hup⟩ := ih hstep.2
    exact ⟨hsink.trans hstep.1, hup⟩

/-- **What is published is on the wire.** Over a whole connection, whatever messages are published,
larger than the buffer or not, with pings between them, and however the transport takes the bytes:
what went out are the packets of these requests, one behind the other and each one once, up to where
the connection breaks. -/
theorem transmitted {o : Outbound} {k : Nat} (h : o.Idle k) {rs : List Request}
    (hk : k + 3 * rs.length < 2 ^ 30) (hfit : ∀ r ∈ rs, r.Fits o.conn.buffer.length) :
    Carried (rs.flatMap Request.bytes) o (o.transmit rs) := by
  induction rs generalizing o k with
  | nil =>
    exact ⟨⟨[], List.prefix_rfl, (List.append_nil _).symm, fun _ => rfl⟩, fun _ => h.up⟩
  | cons r rs ih =>
    obtain ⟨hr, hrs⟩ := List.forall_mem_cons.1 hfit
    rw [List.length_cons] at hk
    obtain ⟨ok, hsends⟩ := request_sends h (by omega) hr
    obtain ⟨part, hpart, hsent, hall⟩ := hsends.wrote.sent
    have hrun : o.transmit (r :: rs) = (o.request r).transmit rs := rfl
    rw [hrun, List.flatMap_cons]
    cases ok with
    | false =>
      obtain ⟨hsink, hdown⟩ := transmit_down hsends.up rs
      refine ⟨⟨part, hpart.trans (List.prefix_append _ _), by rw [hsink, hsent], ?_⟩,
        fun hlive => ?_⟩
      · rw [hdown]
        exact nofun
      · rw [List.length_append] at hlive
        exact nomatch (hsends.wrote.live _ hlive).1
    | true =>
      have hidle : (o.request r).Idle (k + 3) := ⟨hsends.up, hsends.total, hsends.behind rfl⟩
      obtain ⟨⟨part', hpart', hsent', hall'⟩, hlive'⟩ := ih hidle (by omega)
        (by rw [hsends.buffer]; exact hrs)
      rw [hall rfl] at hsent
      refine ⟨⟨r.bytes ++ part', (List.prefix_append_right_inj _).2 hpart', ?_, fun hup => ?_⟩,
        fun hlive => ?_⟩
      · rw [hsent', hsent, List.append_assoc]
      · rw [hall' hup]
      · rw [List.length_append] at hlive
        exact hlive' (hsends.wrote.live _ hlive).2

end Outbound

/-! ## From one client to another -/

theorem flatMap_publish (ps : List Publication) :
    (ps.map Request.publish).flatMap Request.bytes = streamOf (ps.map Publication.message) := by
  induction ps with
  | nil => rfl
  | cons p ps ih =>
    rw [List.map_cons, List.flatMap_cons, ih]
    rfl

/-- **What is published is posted.** Whatever one client publishes on a new connection that does not
break, its topics fitting into its buffer and its messages too few to carry the data offset round,
in however many pieces it goes out: a client that reads it, with a buffer of any size into which the
topics fit, in however many pieces and with reads that bring nothing between them, posts the same
topics and payloads, in their order and each one once. None is cut short as long as its connection
stands, and all are posted when it stands and no byte is left. It comes to that if the bytes and the
events flow. -/
theorem published_relayed {σ : Type} {o : Outbound} {k : Nat} (h : o.Idle k)
    (hnew : o.sink.sent = []) {ps : List Publication} (hk : k + 3 * ps.length < 2 ^ 30)
    (hout : ∀ p ∈ ps, 7 + p.topic.length ≤ o.conn.buffer.length)
    (hup : (o.transmit (ps.map .publish)).up = true) {bufLen : Nat} (hbuf : 10 ≤ bufLen)
    (hin : ∀ p ∈ ps, p.message.header.length + p.topic.length ≤ bufLen)
    (dispatch : DataEvent → Text → σ → Option (Text × σ)) (reads : List (Option Nat))
    (answers : List Bool) (rest : Text) (app : σ) :
    let c : Client σ :=
      ⟨⟨[], rest⟩, ⟨(o.transmit (ps.map .publish)).sink.sent, reads⟩, app, true⟩
    let c' := (client bufLen dispatch).after c answers
    Relays bufLen (c'.up = true) (c'.transport.pending = []) (ps.map Publication.message)
        ((client bufLen dispatch).run c answers).flatten ∧
      (Flows dispatch (ps.map Publication.message) reads answers →
        c'.up = true ∧ c'.transport.pending = []) := by
  have hfits : ∀ r ∈ ps.map Request.publish, r.Fits o.conn.buffer.length := by
    intro r hr
    obtain ⟨p, hp, rfl⟩ := List.mem_map.1 hr
    exact hout p hp
  obtain ⟨⟨part, -, hsent, hall⟩, -⟩ := Outbound.transmitted h
    (by rwa [List.length_map]) hfits
  have hstream : (o.transmit (ps.map .publish)).sink.sent =
      streamOf (ps.map Publication.message) := by
    rw [hsent, hall hup, hnew, List.nil_append, flatMap_publish]
  have hfit : ∀ m ∈ ps.map Publication.message, m.header.length + m.topic.length ≤ bufLen := by
    intro m hm
    obtain ⟨p, hp, rfl⟩ := List.mem_map.1 hm
    exact hin p hp
  exact relays_of_pending hbuf hfit ⟨_, ⟨_, reads⟩, app, true⟩ rfl rfl hstream answers

theorem named_status : dripStatusTopic 0 ≠ [] := by decide

theorem topic_lt_status : (dripStatusTopic 0).length < 2 ^ 16 := by decide

theorem given_status : 2 ≤ ((some (ascii "ON")).getD []).length := by decide

theorem total_lt_status : 2 + (dripStatusTopic 0).length +
    (((some (ascii "ON")).getD []).take (publishLen (some (ascii "ON")) 2)).length < 128 ^ 4 := by
  decide

/-- The state ON of drip 1. -/
def statusOn : Publication where
  topic := dripStatusTopic 0
  data := some (ascii "ON")
  len := 2
  retain := false
  named := named_status
  topic_lt := topic_lt_status
  given := given_status
  total_lt := total_lt_status

/-- A client whose buffer holds one byte of the payload, every byte in a write of its own. -/
def bytewise : Outbound :=
  ⟨⟨List.replicate 32 0, 0, 0, 0, 0⟩, ⟨[], List.replicate 90 (some 1)⟩, true⟩

theorem idle_bytewise : bytewise.Idle 0 := ⟨rfl, rfl, 0, Nat.le_refl 0, rfl⟩

theorem fits_bytewise : ∀ p ∈ [statusOn, statusOn],
    7 + p.topic.length ≤ bytewise.conn.buffer.length := by decide

theorem length_statusOn : statusOn.message.packet.bytes.length = 30 := by
  have hencode : Varint.encode 28 = [28] := by rw [Varint.encode]; rfl
  have hlen : statusOn.message.len = [28] := hencode
  rw [statusOn.message.length_bytes, statusOn.message.length_header]
  show statusOn.message.len.length + 1 + 2 + 24 + 2 = 30
  rw [hlen]
  rfl

theorem length_streamOf_statusOn :
    (streamOf [statusOn.message, statusOn.message]).length = 60 := by
  rw [streamOf, List.flatMap_cons, List.flatMap_singleton, List.length_append, length_statusOn]

theorem up_bytewise : (bytewise.transmit ([statusOn, statusOn].map .publish)).up = true := by
  refine (Outbound.transmitted idle_bytewise (by decide) ?_).live ⟨?_, ?_⟩
  · exact List.forall_mem_cons.2 ⟨fits_bytewise _ List.mem_cons_self,
      List.forall_mem_singleton.2 (fits_bytewise _ List.mem_cons_self)⟩
  · exact fun w hw => ⟨0, List.eq_of_mem_replicate hw⟩
  · have hwrites : bytewise.sink.writes.length = 90 := List.length_replicate
    have hstream : (([statusOn, statusOn].map Request.publish).flatMap Request.bytes).length = 60 :=
      (congrArg List.length (flatMap_publish _)).trans length_streamOf_statusOn
    rw [hwrites, hstream]
    decide

/-- A client before what it sent of two states, to read it a byte at a time. -/
def listening : Client Unit :=
  ⟨⟨[], []⟩, ⟨(bytewise.transmit ([statusOn, statusOn].map .publish)).sink.sent,
    List.replicate 60 (some 1)⟩, (), true⟩

/-- Both states are posted. -/
theorem published_relayed_status :
    let ms := [statusOn.message, statusOn.message]
    let c' := (client 64 quiet).after listening (List.replicate 60 true)
    Flows quiet ms (List.replicate 60 (some 1)) (List.replicate 60 true) ∧
      (c'.up = true ∧ c'.transport.pending = []) ∧
      Relays 64 (c'.up = true) (c'.transport.pending = []) ms
        ((client 64 quiet).run listening (List.replicate 60 true)).flatten := by
  have hin : ∀ p ∈ [statusOn, statusOn], p.message.header.length + p.topic.length ≤ 64 := by
    have hlength := statusOn.message.length_bytes
    rw [length_statusOn] at hlength
    have hone : statusOn.message.header.length + statusOn.topic.length ≤ 64 := by
      have htopic : statusOn.message.topic = statusOn.topic := rfl
      rw [htopic] at hlength
      omega
    exact List.forall_mem_cons.2 ⟨hone, List.forall_mem_singleton.2 hone⟩
  have hflows : Flows quiet [statusOn.message, statusOn.message] (List.replicate 60 (some 1))
      (List.replicate 60 true) := by
    have hreads : (List.replicate 60 (some 1) : List (Option Nat)).length = 60 :=
      List.length_replicate
    have hcalls : (List.replicate 60 true).length = 60 := List.length_replicate
    refine ⟨⟨fun r hr => ⟨0, List.eq_of_mem_replicate hr⟩, ?_,
      fun a ha => List.eq_of_mem_replicate ha, ?_⟩, fun _ _ _ => nofun⟩
    · rw [length_streamOf_statusOn, hreads]
    · rw [length_streamOf_statusOn, hcalls]
  have hrelayed := published_relayed idle_bytewise rfl (by decide) fits_bytewise up_bytewise
    (by decide) hin quiet (List.replicate 60 (some 1)) (List.replicate 60 true) [] ()
  unfold listening
  exact ⟨hflows, hrelayed.2 hflows, hrelayed.1⟩

end GreenHouse
