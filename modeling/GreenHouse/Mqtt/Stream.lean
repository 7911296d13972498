import GreenHouse.Mqtt.Deliver
import GreenHouse.Mqtt.Session

/-!
# From the bytes of the broker to the handler

The client with the handler as its application (`wired`): the bytes of the broker come in pieces of
any size, the handler writes into the buffer they are read into, and a fault in the handler does not
return. `stream_heard` is the refinement: of this machine nothing is left but the `Session`, one
message after the other over the memory that the ones before it left. What is proved of sessions is
so proved of every stream of bytes, however it is cut up.
-/

namespace GreenHouse

open CText

/-- The handler as the application of the client. -/
def application (ev : DataEvent) (mem : Text) (w : World) : Option (Text × World) :=
  let h := mqttEventData ev mem w
  if h.fault.isSome then none else some (h.mem, h.world)

/-- A call of `mqtt_process_receive`, as long as the connection stands. -/
def Client.after (bufLen : Nat) (c : Client World) (answered : Bool) : Client World :=
  if c.up then (mqttProcessReceive bufLen application answered c).1 else c

theorem Client.after_of_up (bufLen : Nat) {c : Client World} (hup : c.up = true)
    (answered : Bool) :
    c.after bufLen answered = (mqttProcessReceive bufLen application answered c).1 := by
  unfold Client.after
  rw [if_pos hup]

/-- The output is the state reached. -/
def wired (bufLen : Nat) : Mealy (Client World) Bool (Client World) where
  step c answered := (c.after bufLen answered, c.after bufLen answered)

/-! ## The memory behind what is read -/

/-- Behind the bytes that are read lies what was there before. -/
def Inbox.Over (mem : Text) (s : Inbox) : Prop := s.rest = mem.drop s.read.length

section Over

variable {mem : Text} {s : Inbox}

theorem Inbox.Over.put (h : s.Over mem) (data : Text) : (s.put data).Over mem := by
  unfold Inbox.Over Inbox.put at *
  rw [h, List.drop_drop, List.length_append]

/-- What a part of `mqtt_message_receive` keeps, unless it fails. -/
def Stage.Keeps (mem : Text) : Stage → Prop :=
  Stage.Sat (fun r s _ => r = .failed ∨ s.Over mem) fun s _ => s.Over mem

theorem Stage.Keeps.ite {P : Prop} [Decidable P] {x y : Stage} (hx : x.Keeps mem)
    (hy : y.Keeps mem) : (if P then x else y).Keeps mem := by
  split
  · exact hx
  · exact hy

theorem fetch_keeps (h : s.Over mem) (n : Nat) (t : Transport) : (fetch n s t).Keeps mem := by
  unfold fetch
  split
  · exact Or.inl rfl
  · exact Or.inr h
  · exact h.put _

theorem readFirst_keeps (h : s.Over mem) (t : Transport) : (readFirst s t).Keeps mem := by
  unfold readFirst
  split
  · split
    · exact Or.inl rfl
    · exact Or.inr h
    · split
      · exact h.put _
      · exact Or.inl rfl
  · exact h

theorem readLengthLoop_keeps (h : s.Over mem) (n : Nat) (t : Transport) :
    (readLengthLoop n s t).Keeps mem := by
  induction n generalizing s t with
  | zero => exact h
  | succ n ih =>
    refine (fetch_keeps h 1 t).andThen fun s t hs => ?_
    split
    · exact ih hs t
    · exact hs

theorem readLength_keeps (h : s.Over mem) (t : Transport) : (readLength s t).Keeps mem := by
  unfold readLength
  split
  · exact readLengthLoop_keeps h 5 t
  · exact h

theorem readRest_keeps (h : s.Over mem) (total upTo : Nat) (t : Transport) :
    (readRest total upTo s t).Keeps mem := by
  unfold readRest
  split
  · refine (fetch_keeps h _ t).andThen fun s t hs => ?_
    split
    · exact Or.inr hs
    · exact Or.inr hs
  · exact Or.inr h

theorem readTopicLength_keeps (h : s.Over mem) (fixed : Nat) (t : Transport) :
    (readTopicLength fixed s t).Keeps mem := by
  unfold readTopicLength
  split
  · refine (fetch_keeps h _ t).andThen fun s t hs => ?_
    split
    · exact Or.inr hs
    · exact hs
  · exact h

theorem readBody_keeps (h : s.Over mem) (bufLen : Nat) (t : Transport) :
    (readBody bufLen s t).Keeps mem := by
  unfold readBody
  dsimp only
  split
  · split
    · refine (readTopicLength_keeps h _ t).andThen fun s t hs => ?_
      exact Stage.Keeps.ite (Or.inl rfl) (readRest_keeps hs _ _ t)
    · exact Or.inl rfl
  · exact readRest_keeps h _ _ t

/-- **Reading leaves the memory behind the message alone.** -/
theorem mqttMessageReceive_keeps (h : s.Over mem) (bufLen : Nat) (t : Transport) :
    (mqttMessageReceive bufLen s t).Keeps mem :=
  ((readFirst_keeps h t).andThen fun _ t hs => readLength_keeps hs t).andThen
    fun _ t hs => readBody_keeps hs bufLen t

end Over

/-! ## One message -/

/-- A message that is in the buffer with all its bytes is one event. -/
theorem deliverPublish_whole (bufLen : Nat) {s : Inbox} {m : PublishPacket}
    (hread : s.read = m.packet.bytes) (t : Transport) (w : World) :
    let p : Publish := ⟨m.header, m.topic, m.payload, s.rest⟩
    (deliverPublish bufLen application m.packet.bytes.length s t w).2 =
      if (p.handle w).fault.isSome then .crashed
      else .done (p.handle w).mem t (p.handle w).world := by
  intro p
  have hbytes : s.read = m.header ++ (m.topic ++ m.payload) := by rw [hread, m.bytes_packet]
  have hleft : m.packet.bytes.length - s.read.length = 0 := by rw [hread, Nat.sub_self]
  have hevent : publishEvent m.header.length m.topic.length
      (if m.payload = [] then none else some (m.header.length + m.topic.length, m.payload.length)) =
      p.event := by
    unfold publishEvent Publish.event
    by_cases hpayload : m.payload = []
    · simp [p, hpayload]
    · simp [p, hpayload]
  have hmem : s.read ++ s.rest = p.mem := by
    rw [hbytes]
    simp [p, Publish.mem]
  unfold deliverPublish
  rw [hleft, hmem, hbytes, m.mqttGetPublishTopic_append,
    m.mqttGetPublishData_append List.prefix_rfl]
  dsimp only
  rw [hevent]
  unfold post application Publish.handle
  dsimp only
  generalize mqttEventData p.event p.mem w = h
  cases hfault : h.fault.isSome with
  | true => rfl
  | false => rfl

section Step

variable {bufLen : Nat} {reads : List (Option Nat)} {L : Prop} {c : Client World} {s : Session}
  {m : PublishPacket} {ms : List PublishPacket}

/-- The client at a point of a session: the messages still to be received, and the memory and the
firmware as the ones before them left them. -/
structure AtPoint (bufLen : Nat) (reads : List (Option Nat)) (L : Prop) (c : Client World)
    (s : Session) (ms : List PublishPacket) : Prop where
  awaits : Awaits bufLen reads L c ms
  mem : c.inbox.Over s.mem
  app : c.app = s.world

/-- What a call does to a client that waits for a message. -/
inductive Hears (bufLen : Nat) (reads : List (Option Nat)) (L : Prop) (answered : Bool)
    (c : Client World) (s : Session) (m : PublishPacket) (ms : List PublishPacket) :
    Client World → Prop
  | wait {c' : Client World} (hup : c'.up = true) (h : AtPoint bufLen reads L c' s (m :: ms))
      (hmore : L → c.inbox.read.length < c'.inbox.read.length) :
      Hears bufLen reads L answered c s m ms c'
  | break {c' : Client World} (hup : c'.up = false) (happ : c'.app = s.world)
      (hL : L → (s.handle m.message).fault ≠ none) : Hears bufLen reads L answered c s m ms c'
  | hear {c' : Client World} (hup : c'.up = answered)
      (h : AtPoint bufLen reads L c' (s.after m.message) ms) :
      Hears bufLen reads L answered c s m ms c'

theorem mqttProcessReceive_hears (hbuf : 10 ≤ bufLen) (hfit : m.packet.bytes.length ≤ bufLen)
    (hL : L → none ∉ reads) (hup : c.up = true) (h : AtPoint bufLen reads L c s (m :: ms))
    (answered : Bool) :
    Hears bufLen reads L answered c s m ms
      (mqttProcessReceive bufLen application answered c).1 := by
  obtain ⟨⟨hunderway, hlt⟩, hover, happ⟩ := h
  have hlength := m.length_bytes
  have htopic : m.header.length + m.topic.length ≤ bufLen := by omega
  have hheld : m.packet.held bufLen = m.packet.bytes.length := Nat.min_eq_right hfit
  have hreceive := mqttMessageReceive_sat (m.fits htopic) m.steady hbuf hunderway hlt
  have hkeeps := mqttMessageReceive_keeps hover bufLen c.transport
  unfold mqttProcessReceive
  cases hx : mqttMessageReceive bufLen c.inbox c.transport with
  | go i t =>
    rw [hx] at hreceive
    exact hreceive.elim
  | stop r i t =>
    rw [hx] at hreceive hkeeps
    cases r with
    | failed => exact .break rfl happ fun hlive => absurd hreceive (hL hlive)
    | waiting =>
      obtain ⟨hunderway', hlt', hmore⟩ := hreceive
      exact .wait hup ⟨⟨hunderway', hlt'⟩, hkeeps.resolve_left nofun, happ⟩ hmore
    | message total =>
      obtain ⟨hunderway', hlen, rfl⟩ := hreceive
      have hover' : i.Over s.mem := hkeeps.resolve_left nofun
      rw [hheld] at hlen
      have hread : i.read = m.packet.bytes := by rw [hunderway'.read_eq, hlen, List.take_length]
      have hpending : t.pending = streamOf ms := by
        rw [hunderway'.pending_eq, hlen, List.drop_length, List.nil_append]
      have hrest : i.rest = s.mem.drop (m.header.length + m.topic.length + m.payload.length) := by
        rw [← hlength, ← hlen]
        exact hover'
      have htype : mqttGetType (i.read.getD 0 0) = mqttMsgTypePublish := by
        rw [hread]
        exact m.mqttGetType_first
      have hpublish : (⟨m.header, m.topic, m.payload, i.rest⟩ : Publish) = s.publish m.message := by
        rw [hrest]
        rfl
      have hhandle : (s.publish m.message).handle s.world = s.handle m.message := rfl
      have hafter : s.after m.message = ⟨(s.handle m.message).mem, (s.handle m.message).world⟩ :=
        rfl
      have hdeliver := deliverPublish_whole bufLen hread t c.app
      dsimp only at hdeliver ⊢
      rw [hpublish, happ, hhandle] at hdeliver
      rw [if_pos htype, happ]
      have hnext : AtPoint bufLen reads L ⟨⟨[], (s.handle m.message).mem⟩, t,
          (s.handle m.message).world, answered⟩ (s.after m.message) ms := by
        rw [hafter]
        generalize s.handle m.message = handling
        refine ⟨awaits_start ms rfl hpending hunderway'.suffix (fun hlive => ?_) (by omega),
          List.drop_zero.symm, rfl⟩
        have hsupply := hunderway'.supply hlive
        refine ⟨hsupply.some_pos, ?_⟩
        have := hsupply.enough
        dsimp only
        omega
      generalize deliverPublish bufLen application m.packet.bytes.length i t s.world = r
        at hdeliver ⊢
      obtain ⟨posted, d⟩ := r
      generalize hhandling : s.handle m.message = handling at hdeliver hnext
      dsimp only at hdeliver
      cases hfault : handling.fault with
      | some fault =>
        rw [hfault, if_pos Option.isSome_some] at hdeliver
        subst hdeliver
        refine .break rfl rfl fun _ => ?_
        rw [hhandling, hfault]
        exact nofun
      | none =>
        rw [hfault, if_neg (by decide)] at hdeliver
        subst hdeliver
        exact .hear rfl hnext

/-- Behind the last message a call brings nothing. -/
theorem mqttProcessReceive_idle (h : AtPoint bufLen reads L c s []) (hup : c.up = true)
    (answered : Bool) :
    (mqttProcessReceive bufLen application answered c).1.app = s.world ∧
      ((mqttProcessReceive bufLen application answered c).1.up = true →
        AtPoint bufLen reads L (mqttProcessReceive bufLen application answered c).1 s []) ∧
      (none ∉ reads → (mqttProcessReceive bufLen application answered c).1.up = true) := by
  obtain ⟨hawaits, hover, happ⟩ := h
  obtain ⟨-, hnext, hkept⟩ := mqttProcessReceive_end application hawaits hup answered
  obtain ⟨hread, hpending, -⟩ := hawaits
  have hrest : (mqttProcessReceive bufLen application answered c).1.app = s.world ∧
      (mqttProcessReceive bufLen application answered c).1.inbox.Over s.mem := by
    unfold mqttProcessReceive mqttMessageReceive readFirst
    rw [if_pos (by rw [hread]; rfl)]
    rcases c.transport.read_cases 1 with ⟨t', ht', -⟩ | ⟨data, t', ht', hbrings⟩
    · rw [ht']
      exact ⟨happ, hover⟩
    · have hnil := hbrings.pending
      rw [hpending] at hnil
      obtain ⟨rfl, -⟩ := List.append_eq_nil_iff.1 hnil.symm
      rw [ht']
      exact ⟨happ, hover⟩
  exact ⟨hrest.1, fun hup' => ⟨hnext hup', hrest.2, hrest.1⟩, hkept⟩

end Step

/-! ## Streams -/

section Run

variable {bufLen : Nat} {reads : List (Option Nat)} {L : Prop}

theorem wired_run_cons (c : Client World) (answered : Bool) (answers : List Bool) :
    (wired bufLen).run c (answered :: answers) =
      c.after bufLen answered :: (wired bufLen).run (c.after bufLen answered) answers := rfl

/-- When the connection is down nothing more happens. -/
theorem eq_of_mem_run_down {c : Client World} (hdown : c.up = false) (answers : List Bool) :
    ∀ c' ∈ (wired bufLen).run c answers, c' = c := by
  induction answers with
  | nil => exact List.forall_mem_nil _
  | cons answered answers ih =>
    have hafter : c.after bufLen answered = c := by
      unfold Client.after
      rw [hdown, if_neg (by decide)]
    rw [wired_run_cons, hafter, List.forall_mem_cons]
    exact ⟨rfl, ih⟩

/-- The firmware after so many of the messages. -/
def Session.worldAfter (s : Session) (ms : List PublishPacket) (n : Nat) : World :=
  (s.afterAll ((ms.take n).map PublishPacket.message)).world

theorem Session.worldAfter_succ (s : Session) (m : PublishPacket) (ms : List PublishPacket)
    (n : Nat) : s.worldAfter (m :: ms) (n + 1) = (s.after m.message).worldAfter ms n := by
  unfold worldAfter afterAll
  rw [List.take_succ_cons, List.map_cons, List.foldl_cons]

/-- What the client reaches is reached by the session, after some of the messages. -/
theorem worldAfter_of_mem_run (hbuf : 10 ≤ bufLen) (hL : L → none ∉ reads) {answers : List Bool}
    {c : Client World} {s : Session} {ms : List PublishPacket}
    (hfit : ∀ m ∈ ms, m.packet.bytes.length ≤ bufLen) (h : AtPoint bufLen reads L c s ms) :
    ∀ c' ∈ (wired bufLen).run c answers, ∃ n ≤ ms.length, c'.app = s.worldAfter ms n := by
  induction answers generalizing c s ms with
  | nil => exact List.forall_mem_nil _
  | cons answered answers ih =>
    cases hup : c.up with
    | false =>
      intro c' hc'
      rw [eq_of_mem_run_down hup _ c' hc']
      exact ⟨0, Nat.zero_le _, h.app⟩
    | true =>
      rw [wired_run_cons, List.forall_mem_cons, Client.after_of_up bufLen hup]
      cases ms with
      | nil =>
        obtain ⟨happ, hnext, -⟩ := mqttProcessReceive_idle h hup answered
        generalize (mqttProcessReceive bufLen application answered c).1 = c' at happ hnext ⊢
        refine ⟨⟨0, Nat.zero_le _, happ⟩, ?_⟩
        cases hup' : c'.up with
        | false =>
          intro c'' hc''
          rw [eq_of_mem_run_down hup' _ c'' hc'']
          exact ⟨0, Nat.zero_le _, happ⟩
        | true => exact ih hfit (hnext hup')
      | cons m ms =>
        obtain ⟨hm, hms⟩ := List.forall_mem_cons.1 hfit
        have hhears := mqttProcessReceive_hears hbuf hm hL hup h answered
        generalize (mqttProcessReceive bufLen application answered c).1 = c' at hhears ⊢
        cases hhears with
        | wait hup' h' hmore => exact ⟨⟨0, Nat.zero_le _, h'.app⟩, ih hfit h'⟩
        | «break» hup' happ hnot =>
          refine ⟨⟨0, Nat.zero_le _, happ⟩, fun c'' hc'' => ⟨0, Nat.zero_le _, ?_⟩⟩
          rw [eq_of_mem_run_down hup' _ c'' hc'']
          exact happ
        | hear hup' h' =>
          refine ⟨⟨1, Nat.succ_le_succ (Nat.zero_le _), h'.app⟩, fun c'' hc'' => ?_⟩
          obtain ⟨n, hn, happ⟩ := ih hms h' c'' hc''
          exact ⟨n + 1, Nat.succ_le_succ hn, by rw [happ, s.worldAfter_succ]⟩

/-- The firmware without a fault after all of the messages. -/
def Session.Sound (s : Session) (ms : List PublishPacket) : Prop :=
  ∀ o ∈ session.run s (ms.map PublishPacket.message), o.handling.fault = none

theorem Session.sound_cons {s : Session} {m : PublishPacket} {ms : List PublishPacket} :
    s.Sound (m :: ms) ↔ (s.handle m.message).fault = none ∧ (s.after m.message).Sound ms := by
  unfold Sound
  rw [List.map_cons, Mealy.run_cons, List.forall_mem_cons]
  rfl

theorem wired_after_cons (c : Client World) (answered : Bool) (answers : List Bool) :
    (wired bufLen).after c (answered :: answers) =
      (wired bufLen).after (c.after bufLen answered) answers := rfl

theorem wired_after_down {c : Client World} (hdown : c.up = false) (answers : List Bool) :
    (wired bufLen).after c answers = c := by
  cases answers with
  | nil => rfl
  | cons answered answers =>
    exact eq_of_mem_run_down hdown _ _ (Mealy.after_mem_run (fun _ _ => rfl) c answered answers)

/-- **On a connection that stands**, behind the last byte all messages are heard. -/
theorem worldAfter_of_drained (hbuf : 10 ≤ bufLen) {answers : List Bool} {c : Client World}
    {s : Session} {ms : List PublishPacket} (hfit : ∀ m ∈ ms, m.packet.bytes.length ≤ bufLen)
    (h : AtPoint bufLen reads False c s ms) (hup : c.up = true)
    (hstands : ((wired bufLen).after c answers).up = true)
    (hidle : ((wired bufLen).after c answers).transport.pending = []) :
    ((wired bufLen).after c answers).app = s.worldAfter ms ms.length := by
  induction answers generalizing c s ms with
  | nil =>
    obtain rfl := h.awaits.eq_nil hidle
    exact h.app
  | cons answered answers ih =>
    rw [wired_after_cons, Client.after_of_up bufLen hup] at hstands hidle ⊢
    -- the connection that stands at the end stands now
    have hstill : ∀ c' : Client World, ((wired bufLen).after c' answers).up = true →
        c'.up = true := by
      intro c' hc'
      cases hup' : c'.up with
      | true => rfl
      | false => rwa [wired_after_down hup', hup'] at hc'
    cases ms with
    | nil =>
      obtain ⟨-, hnext, -⟩ := mqttProcessReceive_idle h hup answered
      generalize (mqttProcessReceive bufLen application answered c).1 = c' at hnext hstands hidle ⊢
      have hup' := hstill c' hstands
      exact ih hfit (hnext hup') hup' hstands hidle
    | cons m ms =>
      obtain ⟨hm, hms⟩ := List.forall_mem_cons.1 hfit
      have hhears := mqttProcessReceive_hears hbuf hm False.elim hup h answered
      generalize (mqttProcessReceive bufLen application answered c).1 = c' at hhears hstands hidle ⊢
      have hup' := hstill c' hstands
      cases hhears with
      | wait _ h' hmore => exact ih hfit h' hup' hstands hidle
      | «break» hdown happ hnot => exact absurd (hdown.symm.trans hup') Bool.false_ne_true
      | hear _ h' =>
        rw [List.length_cons, s.worldAfter_succ]
        exact ih hms h' hup' hstands hidle

/-- Bytes that flow are drained, as long as the firmware has no fault. -/
theorem drained_of_supplied (hbuf : 10 ≤ bufLen) (hnone : none ∉ reads) {answers : List Bool}
    {c : Client World} {s : Session} {ms : List PublishPacket}
    (hfit : ∀ m ∈ ms, m.packet.bytes.length ≤ bufLen) (h : AtPoint bufLen reads True c s ms)
    (hup : c.up = true) (hanswers : ∀ a ∈ answers, a = true)
    (hcalls : remaining c ms ≤ answers.length) (hsound : s.Sound ms) :
    ((wired bufLen).after c answers).up = true ∧
      ((wired bufLen).after c answers).transport.pending = [] := by
  induction answers generalizing c s ms with
  | nil =>
    cases ms with
    | nil => exact ⟨hup, h.awaits.2.1⟩
    | cons m ms =>
      obtain ⟨hlt, hlen⟩ := length_read_lt h.awaits
      rw [List.length_nil, remaining] at hcalls
      omega
  | cons answered answers ih =>
    obtain ⟨rfl, hrest⟩ := List.forall_mem_cons.1 hanswers
    rw [wired_after_cons, Client.after_of_up bufLen hup]
    cases ms with
    | nil =>
      obtain ⟨-, hnext, hkept⟩ := mqttProcessReceive_idle h hup true
      refine ih hfit (hnext (hkept hnone)) (hkept hnone) hrest ?_ hsound
      rw [remaining, streamOf, List.flatMap_nil, List.length_nil, Nat.zero_sub]
      exact Nat.zero_le _
    | cons m ms =>
      obtain ⟨hm, hms⟩ := List.forall_mem_cons.1 hfit
      obtain ⟨hlt, hlen⟩ := length_read_lt h.awaits
      obtain ⟨hfault, hsound'⟩ := Session.sound_cons.1 hsound
      have hhears := mqttProcessReceive_hears hbuf hm (fun _ => hnone) hup h true
      rw [List.length_cons] at hcalls
      generalize (mqttProcessReceive bufLen application true c).1 = c' at hhears ⊢
      unfold remaining at hcalls
      cases hhears with
      | wait hup' h' hmore =>
        have hmore' := hmore trivial
        exact ih hfit h' hup' hrest (by unfold remaining; omega) hsound
      | «break» hup' happ hnot => exact absurd hfault (hnot trivial)
      | hear hup' h' => exact ih hms h' hup' hrest (by unfold remaining; omega) hsound'

/-- **The bytes become a session.** Whatever messages the broker sends that fit into the buffer, and
however the transport cuts the bytes up, with reads that bring nothing between them, the firmware
that hears them through the client is at every moment that of the session after some of these
messages. It is that after all of them when the connection stands and no byte is left; and it comes
to that if the bytes flow and the handler does not fault. -/
theorem stream_heard (hbuf : 10 ≤ bufLen) {ms : List PublishPacket}
    (hfit : ∀ m ∈ ms, m.packet.bytes.length ≤ bufLen) (s : Session) (reads : List (Option Nat))
    (answers : List Bool) :
    let c : Client World := ⟨⟨[], s.mem⟩, ⟨streamOf ms, reads⟩, s.world, true⟩
    let c' := (wired bufLen).after c answers
    (∀ d ∈ (wired bufLen).run c answers, ∃ n ≤ ms.length, d.app = s.worldAfter ms n) ∧
      (c'.up = true → c'.transport.pending = [] → c'.app = s.worldAfter ms ms.length) ∧
      (Supplied ms reads answers → s.Sound ms → c'.up = true ∧ c'.transport.pending = []) := by
  intro c c'
  have hstart : ∀ {L : Prop}, (L → Supplied ms reads answers) → AtPoint bufLen reads L c s ms := by
    intro L hL
    refine ⟨awaits_start ms rfl rfl List.suffix_rfl (fun h => ?_) (by omega), List.drop_zero.symm,
      rfl⟩
    exact ⟨(hL h).some_pos, (hL h).reads_enough⟩
  refine ⟨worldAfter_of_mem_run hbuf False.elim hfit (hstart False.elim),
    worldAfter_of_drained hbuf hfit (hstart False.elim) rfl, fun h hsound => ?_⟩
  exact drained_of_supplied hbuf h.none_notMem hfit (hstart fun _ => h) rfl h.answered
    ((Nat.sub_le _ _).trans h.calls_enough) hsound

end Run

/-- A firmware with a buffer of zeros before two commands, of which every read brings one byte,
behind a poll without data. -/
def commanded : Client World :=
  ⟨⟨[], []⟩, ⟨streamOf [ctrlOn, ctrlOn], some 0 :: List.replicate 64 (some 1)⟩,
    cleared fun _ => none, true⟩

theorem stream_heard_ctrlOn :
    let c' := (wired 64).after commanded (List.replicate 65 true)
    (c'.up = true ∧ c'.transport.pending = []) ∧
      c'.app = (⟨[], cleared fun _ => none⟩ : Session).worldAfter [ctrlOn, ctrlOn] 2 := by
  have hdrained : ((wired 64).after commanded (List.replicate 65 true)).up = true ∧
      ((wired 64).after commanded (List.replicate 65 true)).transport.pending = [] := by
    decide +kernel
  have hheard := stream_heard (by decide : 10 ≤ 64) (by decide +kernel :
    ∀ m ∈ [ctrlOn, ctrlOn], m.packet.bytes.length ≤ 64) ⟨[], cleared fun _ => none⟩
    (some 0 :: List.replicate 64 (some 1)) (List.replicate 65 true)
  dsimp only at hheard
  unfold commanded at hdrained ⊢
  exact ⟨hdrained, hheard.2.1 hdrained.1 hdrained.2⟩

end GreenHouse
