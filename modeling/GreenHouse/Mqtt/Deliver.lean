import GreenHouse.Lib.Mealy
import GreenHouse.Mqtt.Memory
import GreenHouse.Mqtt.Receive

/-!
# Delivering a stream of messages (`mqtt_client.c`)

`deliver_publish` posts a received message to the application: an event with the topic and with the
payload as far as it is in the buffer, and then an event for each further read of the payload.
`mqtt_process_receive` is one call of `mqtt_message_receive` with what follows it. An application
may change the memory its events point into, and may not return; nothing else is assumed of it.

`stream_relayed` carries a stream of bytes to the deliveries that the handler is proved about
(`Delivers`): whatever sequence of messages the broker sends and however the transport cuts it up,
the events posted are deliveries of these messages, each one once and in their order, up to where
the connection breaks or the bytes end.
-/

namespace GreenHouse

open CText

/-- An event with the memory it points into. -/
structure Posted where
  event : DataEvent
  mem : Text

def Chunk.posted (c : Chunk) : Posted := ⟨c.event, c.mem⟩

/-- How `deliver_publish` ends: with the memory the application leaves, with `ESP_FAIL`, or in the
application. -/
inductive Delivery (σ : Type) where
  | done (mem : Text) (t : Transport) (app : σ)
  | failed (app : σ)
  | crashed

section Client

variable {σ : Type} (bufLen : Nat) (dispatch : DataEvent → Text → σ → Option (Text × σ))

/-- Post an event and go on with the memory the application leaves. -/
def post (ev : DataEvent) (mem : Text) (app : σ) (k : Text → σ → List Posted × Delivery σ) :
    List Posted × Delivery σ :=
  match dispatch ev mem app with
  | none => ([⟨ev, mem⟩], .crashed)
  | some (mem', app') => ((⟨ev, mem⟩ : Posted) :: (k mem' app').1, (k mem' app').2)

/-- The loop of `deliver_publish` with `left` bytes of the message to come; every turn brings at
least one. -/
def deliverRest : Nat → Nat → Transport → Text → σ → List Posted × Delivery σ
  | 0, _, t, mem, app => ([], .done mem t app)
  | turns + 1, left, t, mem, app =>
    if left = 0 then ([], .done mem t app)
    else
      match t.read (min left bufLen) with
      | (none, _) => ([], .failed app)
      | (some [], _) => ([], .failed app)
      | (some data, t) =>
        post dispatch ⟨none, 0, some 0, data.length⟩ (data ++ mem.drop data.length) app
          (deliverRest turns (left - data.length) t)

/-- The first event of a message: without a payload `event->data` is NULL. NULL comes with length 0,
so that a missing payload is no failure. -/
def publishEvent (topic topicLen : Nat) (data : Option (Nat × Nat)) : DataEvent :=
  let dataLen := (data.map Prod.snd).getD 0
  ⟨some topic, topicLen, if dataLen > 0 then data.map Prod.fst else none, dataLen⟩

/-- `deliver_publish` on a message of `total` bytes. -/
def deliverPublish (total : Nat) (s : Inbox) (t : Transport) (app : σ) :
    List Posted × Delivery σ :=
  match mqttGetPublishTopic s.read with
  | none => ([], .failed app)
  | some (topic, topicLen) =>
    let left := total - s.read.length
    post dispatch (publishEvent topic topicLen (mqttGetPublishData s.read)) (s.read ++ s.rest) app
      (deliverRest bufLen dispatch left left t)

/-- The client on one connection; `up` is whether that still stands. -/
structure Client (σ : Type) where
  inbox : Inbox
  transport : Transport
  app : σ
  up : Bool

/-- `mqtt_process_receive`: a failure ends in `esp_mqtt_abort_connection`. `answered` is whether
what the client sends in answer, if anything, is made and sent. -/
def mqttProcessReceive (answered : Bool) (c : Client σ) : Client σ × List Posted :=
  match mqttMessageReceive bufLen c.inbox c.transport with
  | .go s t => ({ c with inbox := s, transport := t }, [])
  | .stop .failed s t => (⟨s, t, c.app, false⟩, [])
  | .stop .waiting s t => ({ c with inbox := s, transport := t }, [])
  | .stop (.message total) s t =>
    if mqttGetType (s.read.getD 0 0) = mqttMsgTypePublish then
      match deliverPublish bufLen dispatch total s t c.app with
      | (posted, .done mem t app) => (⟨⟨[], mem⟩, t, app, answered⟩, posted)
      | (posted, .failed app) => (⟨s, t, app, false⟩, posted)
      -- what an application that does not return has done so far is not kept
      | (posted, .crashed) => (⟨s, t, c.app, false⟩, posted)
    else (⟨⟨[], s.read ++ s.rest⟩, t, c.app, answered⟩, [])

/-- Calls of `mqtt_process_receive` as long as the connection stands. -/
def client : Mealy (Client σ) Bool (List Posted) where
  step c answered := if c.up then mqttProcessReceive bufLen dispatch answered c else (c, [])

end Client

/-! ## Deliveries -/

def PublishPacket.message (m : PublishPacket) : Message := ⟨m.header, m.topic, m.payload⟩

/-- The part of the payload that a chunk carries. -/
def Chunk.data : Chunk → Text
  | first m => m.payload
  | more data _ => data

/-- The events posted for the messages of a stream: for each in turn a delivery with all of its
payload, and then nothing, or a delivery of the next one that may be cut short. The latter only if
the connection does not stand (`up`); and if it stands and nothing is to come (`idle`), there is a
delivery for each message. -/
inductive Relays (bufLen : Nat) (up idle : Prop) : List PublishPacket → List Posted → Prop
  | none {ms : List PublishPacket} (h : up → idle → ms = []) : Relays bufLen up idle ms []
  | part {m : PublishPacket} {ms : List PublishPacket} {chunks : List Chunk} (hdown : ¬ up)
      (h : Delivers bufLen m.message chunks) :
      Relays bufLen up idle (m :: ms) (chunks.map Chunk.posted)
  | whole {m : PublishPacket} {ms : List PublishPacket} {chunks : List Chunk} {posted : List Posted}
      (h : Delivers bufLen m.message chunks) (hall : chunks.flatMap Chunk.data = m.payload)
      (hrest : Relays bufLen up idle ms posted) :
      Relays bufLen up idle (m :: ms) (chunks.map Chunk.posted ++ posted)

section Deliver

variable {σ : Type} {bufLen : Nat} {dispatch : DataEvent → Text → σ → Option (Text × σ)} {L : Prop}

/-- What `deliver_publish` leaves: if it is done, all is delivered and the rest of the stream is to
come. If `L`, it is done. -/
def Ended (all : Prop) (tail : Text) (reads : List (Option Nat)) (extra : Nat) (L : Prop) :
    Delivery σ → Prop
  | .done _ t _ => all ∧ t.pending = tail ∧ t.reads <:+ reads ∧ (L → t.Supplies extra)
  | .failed _ => ¬ L
  | .crashed => ¬ L

theorem Ended.imp {all all' : Prop} {tail : Text} {reads : List (Option Nat)} {extra : Nat}
    {d : Delivery σ} (h : Ended all tail reads extra L d) (hall : all → all') :
    Ended all' tail reads extra L d := by
  cases d with
  | done mem t app => exact ⟨hall h.1, h.2⟩
  | failed => exact h
  | crashed => exact h

theorem continues_nil (left : Text) : Continues bufLen left [] := by
  cases left with
  | nil => exact .done
  | cons b left => exact .failed (List.cons_ne_nil b left)

/-- The loop delivers what is left of a payload. -/
theorem deliverRest_spec (hbuf : 0 < bufLen)
    (hdispatch : L → ∀ ev mem app, dispatch ev mem app ≠ none) {tail payload : Text}
    {reads : List (Option Nat)} {extra turns : Nat} {t : Transport}
    (hpending : t.pending = payload ++ tail) (hsuffix : t.reads <:+ reads)
    (hturns : payload.length ≤ turns) (hsupply : L → t.Supplies (payload.length + extra))
    (mem : Text) (app : σ) :
    ∃ chunks, (deliverRest bufLen dispatch turns payload.length t mem app).1 =
        chunks.map Chunk.posted ∧ Continues bufLen payload chunks ∧
      Ended (chunks.flatMap Chunk.data = payload) tail reads extra L
        (deliverRest bufLen dispatch turns payload.length t mem app).2 := by
  induction turns generalizing payload t mem app with
  | zero =>
    have hnil : payload = [] := List.length_eq_zero_iff.1 (Nat.le_zero.1 hturns)
    subst hnil
    refine ⟨[], rfl, .done, rfl, hpending, hsuffix, fun hL => ?_⟩
    have := hsupply hL
    rwa [List.length_nil, Nat.zero_add] at this
  | succ turns ih =>
    rw [deliverRest]
    by_cases hnil : payload.length = 0
    · have hnil' : payload = [] := List.length_eq_zero_iff.1 hnil
      subst hnil'
      rw [if_pos hnil]
      refine ⟨[], rfl, .done, rfl, hpending, hsuffix, fun hL => ?_⟩
      have := hsupply hL
      rwa [List.length_nil, Nat.zero_add] at this
    · have hne : t.pending ≠ [] := by
        rw [hpending]
        intro h
        exact hnil (List.length_eq_zero_iff.2 (List.append_eq_nil_iff.1 h).1)
      have hsupplies : L → t.Supplies (payload.length - 1 + extra + 1) := fun hL =>
        ⟨(hsupply hL).some_pos, by have := (hsupply hL).enough; omega⟩
      rw [if_neg hnil]
      rcases t.read_cases (min payload.length bufLen) with
        ⟨t', ht', hnone⟩ | ⟨data, t', ht', hbrings⟩
      · rw [ht']
        refine ⟨[], rfl, continues_nil payload, fun hL => ?_⟩
        obtain ⟨k, hk⟩ := (hsupply hL).some_pos _ hnone
        cases hk
      · have hbrought := fun hL => hbrings.supplied _ (hsupplies hL) hne (by omega)
        have hle := hbrings.length_le
        rw [ht']
        cases data with
        | nil => exact ⟨[], rfl, continues_nil payload, fun hL => (hbrought hL).1 rfl⟩
        | cons b bs =>
          dsimp only
          have hne : b :: bs ≠ [] := List.cons_ne_nil b bs
          generalize b :: bs = data at hbrings hbrought hle hne ⊢
          have hpos : 0 < data.length := List.length_pos_iff.2 hne
          obtain ⟨left, hleft⟩ : ∃ left, payload = data ++ left := by
            have hprefix : data <+: payload ++ tail :=
              ⟨t'.pending, by rw [← hpending, hbrings.pending]⟩
            exact (List.prefix_of_prefix_length_le hprefix (List.prefix_append payload tail)
              (by omega)).imp fun _ h => h.symm
          have hpending' : t'.pending = left ++ tail := by
            have := hbrings.pending
            rw [hpending, hleft, List.append_assoc] at this
            exact (List.append_cancel_left this).symm
          have hlen : payload.length = data.length + left.length := by
            rw [hleft, List.length_append]
          have hevent : (⟨none, 0, some 0, data.length⟩ : DataEvent) =
              (Chunk.more data (mem.drop data.length)).event := by
            rw [Chunk.event, if_pos hpos]
          rw [hevent, hlen, Nat.add_sub_cancel_left]
          unfold post
          cases hcall : dispatch (Chunk.more data (mem.drop data.length)).event
              (data ++ mem.drop data.length) app with
          | none =>
            refine ⟨[.more data (mem.drop data.length)], rfl, ?_,
              fun hL => hdispatch hL _ _ _ hcall⟩
            rw [hleft]
            exact .read _ hne (by omega) (continues_nil left)
          | some r =>
            obtain ⟨chunks, hposted, hcont, hended⟩ := ih hpending' (hbrings.suffix.trans hsuffix)
              (by omega) (fun hL => ⟨(hbrought hL).2.some_pos, by
                have := (hbrought hL).2.enough
                omega⟩) r.1 r.2
            refine ⟨.more data (mem.drop data.length) :: chunks, ?_, ?_, ?_⟩
            · dsimp only
              rw [hposted]
              rfl
            · rw [hleft]
              exact .read _ hne (by omega) hcont
            · refine hended.imp fun hall => ?_
              rw [List.flatMap_cons, hall, hleft]
              rfl

/-- **A message that is received is delivered**, as far as it comes. -/
theorem deliverPublish_spec (m : PublishPacket) (hfit : m.header.length + m.topic.length ≤ bufLen)
    (hdispatch : L → ∀ ev mem app, dispatch ev mem app ≠ none) {tail : Text}
    {reads : List (Option Nat)} {extra : Nat} {s : Inbox} {t : Transport}
    (hread : s.read = m.packet.bytes.take bufLen)
    (hpending : t.pending = m.packet.bytes.drop bufLen ++ tail) (hsuffix : t.reads <:+ reads)
    (hsupply : L → t.Supplies ((m.packet.bytes.drop bufLen).length + extra)) (app : σ) :
    ∃ chunks, (deliverPublish bufLen dispatch m.packet.bytes.length s t app).1 =
        chunks.map Chunk.posted ∧ Delivers bufLen m.message chunks ∧
      Ended (chunks.flatMap Chunk.data = m.payload) tail reads extra L
        (deliverPublish bufLen dispatch m.packet.bytes.length s t app).2 := by
  obtain ⟨room, hroom⟩ : ∃ room, bufLen = m.header.length + m.topic.length + room :=
    ⟨_, (Nat.add_sub_cancel' hfit).symm⟩
  have hbytes : m.packet.bytes = (m.header ++ m.topic) ++ m.payload := by
    rw [m.bytes_packet, List.append_assoc]
  have hhead : (m.header ++ m.topic).length = m.header.length + m.topic.length := List.length_append
  have htake : m.packet.bytes.take bufLen = m.header ++ (m.topic ++ m.payload.take room) := by
    rw [hbytes, hroom, ← hhead, List.take_length_add_append, List.append_assoc]
  have hdrop : m.packet.bytes.drop bufLen = m.payload.drop room := by
    rw [hbytes, hroom, ← hhead, List.drop_length_add_append]
  have hleft : m.packet.bytes.length - s.read.length = (m.payload.drop room).length := by
    rw [hread, ← hdrop, List.length_take, List.length_drop]
    omega
  rw [hdrop] at hpending hsupply
  rw [htake] at hread
  unfold deliverPublish
  rw [hleft, hread, m.mqttGetPublishTopic_append,
    m.mqttGetPublishData_append (List.take_prefix room m.payload)]
  dsimp only
  let head : Chunk := .first ⟨m.header, m.topic, m.payload.take room, s.rest⟩
  have hevent : publishEvent m.header.length m.topic.length
      (if m.payload.take room = [] then none
        else some (m.header.length + m.topic.length, (m.payload.take room).length)) =
      head.event := by
    show _ = Publish.event ⟨m.header, m.topic, m.payload.take room, s.rest⟩
    cases m.payload.take room with
    | nil => rfl
    | cons b bs => rfl
  have hmem : m.header ++ (m.topic ++ m.payload.take room) ++ s.rest = head.mem := by
    show _ = Publish.mem ⟨m.header, m.topic, m.payload.take room, s.rest⟩
    simp [Publish.mem]
  have hdeliver : ∀ chunks, Continues bufLen (m.payload.drop room) chunks →
      Delivers bufLen m.message (head :: chunks) := by
    intro chunks h
    have hroom' : room = bufLen - (m.message.header.length + m.message.topic.length) := by
      show room = bufLen - (m.header.length + m.topic.length)
      omega
    have := Delivers.deliver (m := m.message) s.rest hfit (hroom' ▸ h)
    rwa [← hroom'] at this
  rw [hevent, hmem]
  unfold post
  cases hcall : dispatch head.event head.mem app with
  | none =>
    exact ⟨[head], rfl, hdeliver [] (continues_nil _), fun hL => hdispatch hL _ _ _ hcall⟩
  | some r =>
    have hheader : 0 < m.header.length := Nat.succ_pos _
    have hbuf : 0 < bufLen := hheader.trans_le ((Nat.le_add_right _ _).trans hfit)
    obtain ⟨chunks, hposted, hcont, hended⟩ := deliverRest_spec hbuf hdispatch hpending hsuffix
      le_rfl hsupply r.1 r.2
    refine ⟨head :: chunks, ?_, hdeliver chunks hcont, hended.imp fun hall => ?_⟩
    · dsimp only
      rw [hposted]
      rfl
    · rw [List.flatMap_cons, hall]
      exact List.take_append_drop room m.payload

end Deliver

/-! ## Streams -/

section Packets

variable (m : PublishPacket) {bufLen : Nat}

theorem PublishPacket.length_bytes : m.packet.bytes.length =
    m.header.length + m.topic.length + m.payload.length := by
  rw [m.bytes_packet]
  simp
  omega

theorem PublishPacket.mqttGetType_first : mqttGetType m.first = mqttMsgTypePublish := by
  unfold first
  cases m.retain <;> decide

theorem PublishPacket.fits (h : m.header.length + m.topic.length ≤ bufLen) :
    m.packet.Fits bufLen := by
  have hqos : ¬ 0 < mqttGetQos m.first := of_decide_eq_false m.mqttGetQos_first
  have hheader := m.length_header
  refine Or.inr ⟨m.mqttGetType_first, ?_⟩
  rw [m.bytes_packet, m.twoByteLength_header]
  show m.packet.fixed + m.topic.length + (if 0 < mqttGetQos m.first then 2 else 0) ≤ bufLen
  rw [if_neg hqos]
  omega

/-- The shortest messages end in the length of their topic and in that, of one byte. -/
theorem PublishPacket.steady : m.packet.Steady := by
  intro hshort hends
  have hlen := m.length_bytes
  have hheader := m.length_header
  have htopic : 0 < m.topic.length := List.length_pos_iff.2 m.named
  have hnumber : 0 < m.len.length := List.length_pos_iff.2 m.isNumber.ne_nil
  have hfixed : m.packet.fixed = m.len.length + 1 := rfl
  have hprev := hends.1
  have hone : m.topic.length = 1 := by omega
  obtain ⟨l, hl⟩ := List.length_eq_one_iff.1 (show m.len.length = 1 by omega)
  have hfive : m.packet.bytes.length - 2 = 3 := by omega
  rw [hfive, m.bytes_packet, header, hl, hone] at hprev
  simp only [List.cons_append, List.nil_append, List.getD_cons_succ, List.getD_cons_zero] at hprev
  revert hprev
  decide

end Packets

/-- The bytes of a stream of messages. -/
def streamOf (ms : List PublishPacket) : Text := ms.flatMap fun m => m.packet.bytes

section Stream

variable {σ : Type} {bufLen : Nat} {dispatch : DataEvent → Text → σ → Option (Text × σ)}
  {reads : List (Option Nat)} {L : Prop}

/-- The client between two calls, with the messages that are still to be received. -/
def Awaits (bufLen : Nat) (reads : List (Option Nat)) (L : Prop) (c : Client σ) :
    List PublishPacket → Prop
  | [] => c.inbox.read = [] ∧ c.transport.pending = [] ∧ c.transport.reads <:+ reads
  | m :: ms => Underway m.packet (streamOf ms) bufLen reads
      ((m.packet.bytes.drop bufLen).length + (streamOf ms).length) L c.inbox c.transport ∧
    c.inbox.read.length < m.packet.held bufLen

theorem awaits_start {c : Client σ} (ms : List PublishPacket) (hread : c.inbox.read = [])
    (hpending : c.transport.pending = streamOf ms) (hsuffix : c.transport.reads <:+ reads)
    (hsupply : L → c.transport.Supplies (streamOf ms).length) (hbuf : 0 < bufLen) :
    Awaits bufLen reads L c ms := by
  cases ms with
  | nil => exact ⟨hread, hpending, hsuffix⟩
  | cons m ms =>
    have htwo := m.packet.two_le_length
    have hstream : (streamOf (m :: ms)).length =
        m.packet.bytes.length + (streamOf ms).length := List.length_append
    have hdrop : (m.packet.bytes.drop bufLen).length = m.packet.bytes.length - bufLen :=
      List.length_drop
    refine ⟨⟨?_, ?_, hsuffix, fun hL => ⟨(hsupply hL).some_pos, ?_⟩⟩, ?_⟩
    · rw [hread, hpending]
      rfl
    · rw [hread]
      exact Nat.zero_le _
    · have := (hsupply hL).enough
      rw [hread, hdrop, Packet.held, List.length_nil]
      omega
    · rw [hread, Packet.held, List.length_nil]
      omega

/-- What a call does to a client that waits for a message: it waits on, having read something if the
connection flows; or the connection breaks; or the message is delivered. -/
inductive Steps (bufLen : Nat) (reads : List (Option Nat)) (L : Prop) (answered : Bool)
    (c : Client σ) (m : PublishPacket) (ms : List PublishPacket) : Client σ × List Posted → Prop
  | wait {c' : Client σ} (hup : c'.up = true) (h : Awaits bufLen reads L c' (m :: ms))
      (hmore : L → c.inbox.read.length < c'.inbox.read.length) :
      Steps bufLen reads L answered c m ms (c', [])
  | break {c' : Client σ} {posted : List Posted} (hup : c'.up = false)
      (hL : ¬ (L ∧ answered = true))
      (h : posted = [] ∨ ∃ chunks, Delivers bufLen m.message chunks ∧
        posted = chunks.map Chunk.posted) : Steps bufLen reads L answered c m ms (c', posted)
  | deliver {c' : Client σ} {chunks : List Chunk} (hup : c'.up = true)
      (h : Awaits bufLen reads L c' ms) (hdeliver : Delivers bufLen m.message chunks)
      (hall : chunks.flatMap Chunk.data = m.payload) :
      Steps bufLen reads L answered c m ms (c', chunks.map Chunk.posted)

theorem mqttProcessReceive_steps {c : Client σ} {m : PublishPacket} {ms : List PublishPacket}
    (hbuf : 10 ≤ bufLen) (hfit : m.header.length + m.topic.length ≤ bufLen)
    (hdispatch : L → ∀ ev mem app, dispatch ev mem app ≠ none) (hL : L → none ∉ reads)
    (hup : c.up = true) (h : Awaits bufLen reads L c (m :: ms)) (answered : Bool) :
    Steps bufLen reads L answered c m ms (mqttProcessReceive bufLen dispatch answered c) := by
  obtain ⟨hunderway, hlt⟩ := h
  have hreceive := mqttMessageReceive_sat (m.fits hfit) m.steady hbuf hunderway hlt
  unfold mqttProcessReceive
  cases hx : mqttMessageReceive bufLen c.inbox c.transport with
  | go s t =>
    rw [hx] at hreceive
    exact hreceive.elim
  | stop r s t =>
    rw [hx] at hreceive
    cases r with
    | failed => exact .break rfl (fun hlive => hL hlive.1 hreceive) (Or.inl rfl)
    | waiting =>
      obtain ⟨hunderway', hlt', hmore⟩ := hreceive
      exact .wait hup ⟨hunderway', hlt'⟩ hmore
    | message total =>
      obtain ⟨hunderway', hlen, rfl⟩ := hreceive
      have hread : s.read = m.packet.bytes.take bufLen := by
        rw [hunderway'.read_eq, hlen, Packet.held, ← List.take_eq_take_min]
      have hpending : t.pending = m.packet.bytes.drop bufLen ++ streamOf ms := by
        rw [hunderway'.pending_eq, hlen, Packet.held, ← List.drop_eq_drop_min]
      have hsupply : L → t.Supplies
          ((m.packet.bytes.drop bufLen).length + (streamOf ms).length) := by
        intro hlive
        have := hunderway'.supply hlive
        rwa [hlen, Nat.sub_self, Nat.zero_add] at this
      have htype : mqttGetType (s.read.getD 0 0) = mqttMsgTypePublish := by
        have hfirst : s.read.getD 0 0 = m.first := by
          rw [hunderway'.getD_eq (by rw [hlen]; omega)]
          rfl
        rw [hfirst]
        exact m.mqttGetType_first
      obtain ⟨chunks, hposted, hdeliver, hended⟩ := deliverPublish_spec m hfit hdispatch hread
        hpending hunderway'.suffix hsupply c.app
      dsimp only
      rw [if_pos htype]
      generalize deliverPublish bufLen dispatch m.packet.bytes.length s t c.app = r
        at hposted hended
      obtain ⟨posted, d⟩ := r
      dsimp only at hposted hended
      subst hposted
      cases d with
      | failed => exact .break rfl (fun hlive => hended hlive.1) (Or.inr ⟨chunks, hdeliver, rfl⟩)
      | crashed => exact .break rfl (fun hlive => hended hlive.1) (Or.inr ⟨chunks, hdeliver, rfl⟩)
      | done mem t' app =>
        obtain ⟨hall, hpending', hsuffix', hsupply'⟩ := hended
        cases answered with
        | false =>
          exact .break rfl (fun hlive => Bool.false_ne_true hlive.2)
            (Or.inr ⟨chunks, hdeliver, rfl⟩)
        | true =>
          exact .deliver rfl (awaits_start ms rfl hpending' hsuffix' hsupply' (by omega)) hdeliver
            hall

/-- Behind the last message a call posts nothing, and keeps the connection unless a read fails. -/
theorem mqttProcessReceive_end (dispatch : DataEvent → Text → σ → Option (Text × σ)) {c : Client σ}
    (h : Awaits bufLen reads L c []) (hup : c.up = true) (answered : Bool) :
    (mqttProcessReceive bufLen dispatch answered c).2 = [] ∧
      ((mqttProcessReceive bufLen dispatch answered c).1.up = true →
        Awaits bufLen reads L (mqttProcessReceive bufLen dispatch answered c).1 []) ∧
      (none ∉ reads → (mqttProcessReceive bufLen dispatch answered c).1.up = true) := by
  obtain ⟨hread, hpending, hsuffix⟩ := h
  unfold mqttProcessReceive mqttMessageReceive readFirst
  rw [if_pos (by rw [hread]; rfl)]
  rcases c.transport.read_cases 1 with ⟨t', ht', hnone⟩ | ⟨data, t', ht', hbrings⟩
  · rw [ht']
    exact ⟨rfl, nofun, fun hnot => absurd (hsuffix.subset hnone) hnot⟩
  · have hnil := hbrings.pending
    rw [hpending] at hnil
    obtain ⟨rfl, hpending'⟩ := List.append_eq_nil_iff.1 hnil.symm
    rw [ht']
    exact ⟨rfl, fun _ => ⟨hread, hpending', hbrings.suffix.trans hsuffix⟩, fun _ => hup⟩

theorem client_step_up (dispatch : DataEvent → Text → σ → Option (Text × σ)) {c : Client σ}
    (hup : c.up = true) (answered : Bool) :
    (client bufLen dispatch).step c answered = mqttProcessReceive bufLen dispatch answered c := by
  show (if c.up then _ else _) = _
  rw [if_pos hup]

/-- When the connection is down nothing is posted, and it stays down. -/
theorem run_down (bufLen : Nat) (dispatch : DataEvent → Text → σ → Option (Text × σ))
    {c : Client σ} (hdown : c.up = false) (answers : List Bool) :
    ((client bufLen dispatch).run c answers).flatten = [] ∧
      (client bufLen dispatch).after c answers = c := by
  have hstep : ∀ answered, (client bufLen dispatch).step c answered = (c, []) := fun answered => by
    show (if c.up then _ else _) = _
    rw [hdown]
    rfl
  induction answers with
  | nil => exact ⟨rfl, rfl⟩
  | cons a answers ih =>
    rw [Mealy.run_cons, Mealy.after_cons, hstep, List.flatten_cons]
    exact ⟨ih.1, ih.2⟩

/-- The bytes that are still to be received. -/
def remaining (c : Client σ) (ms : List PublishPacket) : Nat :=
  (streamOf ms).length - c.inbox.read.length

theorem length_read_lt {c : Client σ} {m : PublishPacket} {ms : List PublishPacket}
    (h : Awaits bufLen reads L c (m :: ms)) :
    c.inbox.read.length < m.packet.bytes.length ∧
      (streamOf (m :: ms)).length = m.packet.bytes.length + (streamOf ms).length :=
  ⟨h.2.trans_le (Nat.min_le_right _ _), List.length_append⟩

/-- A client for which nothing is to come does not wait for a message. -/
theorem Awaits.eq_nil {c : Client σ} {ms : List PublishPacket} (h : Awaits bufLen reads L c ms)
    (hidle : c.transport.pending = []) : ms = [] := by
  cases ms with
  | nil => rfl
  | cons m ms =>
    obtain ⟨hlt, -⟩ := length_read_lt h
    have hpending := h.1.pending_eq
    rw [hidle] at hpending
    have hnil := (List.append_eq_nil_iff.1 hpending.symm).1
    exact absurd (List.drop_eq_nil_iff.1 hnil) (Nat.not_le.2 hlt)

theorem relays_run (hbuf : 10 ≤ bufLen) {answers : List Bool} {c : Client σ}
    {ms : List PublishPacket} (hfit : ∀ m ∈ ms, m.header.length + m.topic.length ≤ bufLen)
    (hup : c.up = true) (h : Awaits bufLen reads False c ms) :
    Relays bufLen (((client bufLen dispatch).after c answers).up = true)
      (((client bufLen dispatch).after c answers).transport.pending = []) ms
      ((client bufLen dispatch).run c answers).flatten := by
  induction answers generalizing c ms with
  | nil => exact .none fun _ hidle => h.eq_nil hidle
  | cons answered answers ih =>
    rw [Mealy.run_cons, Mealy.after_cons, client_step_up dispatch hup, List.flatten_cons]
    cases ms with
    | nil =>
      obtain ⟨hposted, hnext, -⟩ := mqttProcessReceive_end dispatch h hup answered
      rw [hposted, List.nil_append]
      cases hup' : (mqttProcessReceive bufLen dispatch answered c).1.up with
      | false =>
        rw [(run_down bufLen dispatch hup' answers).1]
        exact .none fun _ _ => rfl
      | true => exact ih hfit hup' (hnext hup')
    | cons m ms =>
      have hnever : False → ∀ ev mem app, dispatch ev mem app ≠ none := False.elim
      have hsteps := mqttProcessReceive_steps hbuf (hfit m List.mem_cons_self) hnever False.elim
        hup h answered
      generalize mqttProcessReceive bufLen dispatch answered c = r at hsteps ⊢
      cases hsteps with
      | wait hup' h' hmore => exact ih hfit hup' h'
      | @«break» c' posted hup' hnot h' =>
        obtain ⟨hposted, hafter⟩ := run_down bufLen dispatch hup' answers
        have hdown : ¬ ((client bufLen dispatch).after c' answers).up = true := by
          rw [hafter, hup']
          exact Bool.false_ne_true
        rw [hposted, List.append_nil]
        rcases h' with rfl | ⟨chunks, hdeliver, rfl⟩
        · exact .none fun h => absurd h hdown
        · exact .part hdown hdeliver
      | deliver hup' h' hdeliver hall =>
        exact .whole hdeliver hall (ih (fun m' hm' => hfit m' (List.mem_cons_of_mem _ hm')) hup' h')

/-- Every read brings something, every answer can be sent, and there are reads and calls for all
bytes. A read that brings nothing, though the connection stands, is excluded. -/
structure Supplied (ms : List PublishPacket) (reads : List (Option Nat)) (answers : List Bool) :
    Prop where
  some_pos : ∀ r ∈ reads, ∃ k, r = some (k + 1)
  reads_enough : (streamOf ms).length ≤ reads.length
  answered : ∀ a ∈ answers, a = true
  calls_enough : (streamOf ms).length ≤ answers.length

/-- Every event returns, too. -/
structure Flows (dispatch : DataEvent → Text → σ → Option (Text × σ)) (ms : List PublishPacket)
    (reads : List (Option Nat)) (answers : List Bool) : Prop extends
    Supplied ms reads answers where
  returns : ∀ ev mem app, dispatch ev mem app ≠ none

theorem Supplied.none_notMem {ms : List PublishPacket} {answers : List Bool}
    (h : Supplied ms reads answers) : none ∉ reads := fun hm => by
  obtain ⟨k, hk⟩ := h.some_pos _ hm
  cases hk

theorem drained_run (hbuf : 10 ≤ bufLen) (hdispatch : ∀ ev mem app, dispatch ev mem app ≠ none)
    (hnone : none ∉ reads) {answers : List Bool} {c : Client σ} {ms : List PublishPacket}
    (hfit : ∀ m ∈ ms, m.header.length + m.topic.length ≤ bufLen) (hup : c.up = true)
    (h : Awaits bufLen reads True c ms) (hanswers : ∀ a ∈ answers, a = true)
    (hcalls : remaining c ms ≤ answers.length) :
    ((client bufLen dispatch).after c answers).up = true ∧
      ((client bufLen dispatch).after c answers).transport.pending = [] := by
  induction answers generalizing c ms with
  | nil =>
    cases ms with
    | nil => exact ⟨hup, h.2.1⟩
    | cons m ms =>
      obtain ⟨hlt, hlen⟩ := length_read_lt h
      rw [remaining, List.length_nil] at hcalls
      omega
  | cons answered answers ih =>
    obtain ⟨rfl, hrest⟩ := List.forall_mem_cons.1 hanswers
    rw [Mealy.after_cons, client_step_up dispatch hup]
    cases ms with
    | nil =>
      obtain ⟨-, hnext, hkept⟩ := mqttProcessReceive_end dispatch h hup true
      refine ih hfit (hkept hnone) (hnext (hkept hnone)) hrest ?_
      rw [remaining, streamOf, List.flatMap_nil, List.length_nil, Nat.zero_sub]
      exact Nat.zero_le _
    | cons m ms =>
      obtain ⟨hlt, hlen⟩ := length_read_lt h
      have hsteps := mqttProcessReceive_steps hbuf (hfit m List.mem_cons_self)
        (fun _ => hdispatch) (fun _ => hnone) hup h true
      rw [List.length_cons] at hcalls
      unfold remaining at hcalls
      generalize mqttProcessReceive bufLen dispatch true c = r at hsteps ⊢
      cases hsteps with
      | wait hup' h' hmore =>
        have hmore' := hmore trivial
        exact ih hfit hup' h' hrest (by unfold remaining; dsimp only; omega)
      | «break» hup' hnot h' => exact absurd ⟨trivial, rfl⟩ hnot
      | deliver hup' h' hdeliver hall =>
        exact ih (fun m' hm' => hfit m' (List.mem_cons_of_mem _ hm')) hup' h' hrest
          (by unfold remaining; omega)

/-- The events that a client posts of a stream of messages are deliveries of these; and if bytes and
events flow, none is left at the end. -/
theorem relays_of_pending (hbuf : 10 ≤ bufLen) {ms : List PublishPacket}
    (hfit : ∀ m ∈ ms, m.header.length + m.topic.length ≤ bufLen) (c : Client σ) (hup : c.up = true)
    (hread : c.inbox.read = []) (hpending : c.transport.pending = streamOf ms)
    (answers : List Bool) :
    let c' := (client bufLen dispatch).after c answers
    Relays bufLen (c'.up = true) (c'.transport.pending = []) ms
        ((client bufLen dispatch).run c answers).flatten ∧
      (Flows dispatch ms c.transport.reads answers →
        c'.up = true ∧ c'.transport.pending = []) := by
  intro c'
  have hpos : 0 < bufLen := by omega
  refine ⟨relays_run hbuf hfit hup (awaits_start ms hread hpending List.suffix_rfl False.elim hpos),
    fun h => ?_⟩
  exact drained_run hbuf h.returns h.none_notMem hfit hup
    (awaits_start ms hread hpending List.suffix_rfl (fun _ => ⟨h.some_pos, h.reads_enough⟩) hpos)
    h.answered ((Nat.sub_le _ _).trans h.calls_enough)

/-- **A stream of messages is relayed.** Whatever messages with QoS 0 the broker sends, if their
topics fit into the buffer, however the transport cuts the bytes up, with reads that bring nothing
between them, and whatever the application does to the memory: what the client posts are deliveries
of these messages, in their order and each one once. None is cut short as long as the connection
stands, and all are delivered when it stands and no byte is left. It comes to that if the bytes and
the events flow. -/
theorem stream_relayed (hbuf : 10 ≤ bufLen)
    (dispatch : DataEvent → Text → σ → Option (Text × σ)) (ms : List PublishPacket)
    (hfit : ∀ m ∈ ms, m.header.length + m.topic.length ≤ bufLen) (reads : List (Option Nat))
    (answers : List Bool) (rest : Text) (app : σ) :
    let c : Client σ := ⟨⟨[], rest⟩, ⟨streamOf ms, reads⟩, app, true⟩
    let c' := (client bufLen dispatch).after c answers
    Relays bufLen (c'.up = true) (c'.transport.pending = []) ms
        ((client bufLen dispatch).run c answers).flatten ∧
      (Flows dispatch ms reads answers → c'.up = true ∧ c'.transport.pending = []) :=
  relays_of_pending hbuf hfit ⟨⟨[], rest⟩, ⟨streamOf ms, reads⟩, app, true⟩ rfl rfl rfl answers

end Stream

theorem isNumber_ctrlOn : Varint.IsNumber [0x1e] := rfl

theorem short_ctrlOn : ([0x1e] : Text).length ≤ 4 := by decide

theorem value_ctrlOn : Varint.value [0x1e] =
    2 + (dripCtrlTopic 0).length + (ascii "ON").length := by decide +kernel

theorem named_ctrlOn : dripCtrlTopic 0 ≠ [] := by decide +kernel

theorem topic_lt_ctrlOn : (dripCtrlTopic 0).length < 2 ^ 16 := by decide +kernel

/-- The command ON for drip 1. -/
def ctrlOn : PublishPacket where
  retain := false
  len := [0x1e]
  topic := dripCtrlTopic 0
  payload := ascii "ON"
  isNumber := isNumber_ctrlOn
  short := short_ctrlOn
  value := value_ctrlOn
  named := named_ctrlOn
  topic_lt := topic_lt_ctrlOn

/-- An application that does nothing. -/
def quiet (_ : DataEvent) (mem : Text) (_ : Unit) : Option (Text × Unit) := some (mem, ())

/-- A client before two commands, of which every read brings one byte, behind a poll without
data. -/
def polled : Client Unit :=
  ⟨⟨[], []⟩, ⟨streamOf [ctrlOn, ctrlOn], some 0 :: List.replicate 64 (some 1)⟩, (), true⟩

/-- Both are delivered. -/
theorem stream_relayed_polled :
    let c' := (client 64 quiet).after polled (List.replicate 65 true)
    (c'.up = true ∧ c'.transport.pending = []) ∧
      Relays 64 (c'.up = true) (c'.transport.pending = []) [ctrlOn, ctrlOn]
        ((client 64 quiet).run polled (List.replicate 65 true)).flatten := by
  have hdrained : ((client 64 quiet).after polled (List.replicate 65 true)).up = true ∧
      ((client 64 quiet).after polled (List.replicate 65 true)).transport.pending = [] := by
    decide +kernel
  have hrelays := stream_relayed (by decide : 10 ≤ 64) quiet [ctrlOn, ctrlOn] (by decide +kernel)
    (some 0 :: List.replicate 64 (some 1)) (List.replicate 65 true) [] ()
  unfold polled at hdrained ⊢
  exact ⟨hdrained, hrelays.1⟩

end GreenHouse
