import GreenHouse.Update

/-!
# The message handler (`mqtt.c`)

The `MQTT_EVENT_DATA` case of `mqtt_event_handler_cb` is a row of independent tests
`strstr(event->topic, TOPIC)`, each with a branch of its own (`Branch`, in source order in
`Branch.all`). `event->topic` and `event->data` point into the input buffer of the client, so the
handler is a function of the memory that starts there; what lies behind the bytes listed reads as
NUL. A branch that terminates its payload writes into that memory before the tests that follow.

`ran` records the branches whose body was entered.
-/

namespace GreenHouse

open CInt CText

/-! ## Texts sent in answers -/

def convertTimeToString (rawTime : Int) : Text :=
  let rawTime := u32 rawTime
  let hour := u8 (rawTime / 60)
  let minute := u8 (u32 (rawTime - hour * 60))
  if hour > 12 then itoa (hour - 12) ++ ascii ":" ++ itoa02 minute ++ ascii "PM"
  else itoa hour ++ ascii ":" ++ itoa02 minute ++ ascii "AM"

def convertTimeToDuration (rawTime : Int) : Text :=
  let rawTime := u32 rawTime
  let hour := u8 (rawTime / 60)
  let minute := u8 (u32 (rawTime - hour * 60))
  itoa02 hour ++ ascii ":" ++ itoa02 minute

def stateText (on : Bool) : Text := if on then ascii "ON" else ascii "OFF"

/-! ## The branches -/

/-- The branches of the `MQTT_EVENT_DATA` case. -/
inductive Branch where
  | tempRequest
  | tempHistoryRequest
  | humidityRequest
  | humidityHistoryRequest
  | fanSetState
  | fanGetState
  | fanSetTempOn
  | fanGetTempOn
  | dripCtrl (num : Fin 3)
  | dripRequestStatus (num : Fin 3)
  | dripRequestStartTime (num : Fin 3)
  | dripSetStartTime (num : Fin 3)
  | dripRequestDuration (num : Fin 3)
  | dripSetDuration (num : Fin 3)
  | dripRequestDays (num : Fin 3)
  | dripSetDays (num : Fin 3)
  deriving DecidableEq

namespace Branch

def topic : Branch → Text
  | tempRequest => tempRequestTopic
  | tempHistoryRequest => tempHistoryRequestTopic
  | humidityRequest => humidityRequestTopic
  | humidityHistoryRequest => humidityHistoryRequestTopic
  | fanSetState => fanSetStateSubTopic
  | fanGetState => fanGetStateSubTopic
  | fanSetTempOn => fanSetTempOnSubTopic
  | fanGetTempOn => fanGetTempOnSubTopic
  | dripCtrl num => dripCtrlTopic num
  | dripRequestStatus num => dripRequestStatusTopic num
  | dripRequestStartTime num => dripRequestStartTimeTopic num
  | dripSetStartTime num => dripSetStartTimeTopic num
  | dripRequestDuration num => dripRequestDurationTopic num
  | dripSetDuration num => dripSetDurationTopic num
  | dripRequestDays num => dripRequestDaysTopic num
  | dripSetDays num => dripSetDaysTopic num

/-- The branches up to the first that terminates its payload, in source order. -/
def unterminated : List Branch :=
  [tempRequest, tempHistoryRequest, humidityRequest, humidityHistoryRequest, fanSetState,
    fanGetState, fanSetTempOn, fanGetTempOn, dripCtrl 0, dripCtrl 1, dripCtrl 2,
    dripRequestStatus 0, dripRequestStatus 1, dripRequestStatus 2, dripRequestStartTime 0,
    dripRequestStartTime 1, dripRequestStartTime 2]

/-- The branches behind the three that set a start time, in source order. -/
def later : List Branch :=
  [dripRequestDuration 0, dripRequestDuration 1, dripRequestDuration 2, dripSetDuration 0,
    dripSetDuration 1, dripSetDuration 2, dripRequestDays 0, dripRequestDays 1, dripRequestDays 2,
    dripSetDays 0, dripSetDays 1, dripSetDays 2]

def all : List Branch :=
  unterminated ++ [dripSetStartTime 0, dripSetStartTime 1, dripSetStartTime 2] ++ later

/-- What a branch does with `event->data`: nothing, read it as it lies there, or write a NUL behind
the payload and then read it. -/
inductive Use where
  | none
  | read
  | terminate
  deriving DecidableEq

def use : Branch → Use
  | fanSetState | fanSetTempOn | dripCtrl _ => .read
  | dripSetStartTime _ | dripSetDuration _ | dripSetDays _ => .terminate
  | _ => .none

/-- The text that a branch lets `Convert_Time_To_String` make. -/
def time (w : World) : Branch → Option Text
  | dripRequestStartTime num => some (convertTimeToString (w.info.dripInfo num).startTime)
  | _ => none

/-- The text that a branch prints into `result_string`. -/
def answer (w : World) : Branch → Option Text
  | tempRequest => some (itoa w.temp)
  | humidityRequest => some (itoa w.humidity)
  | fanGetState => some (stateText (w.info.fanState 0))
  | fanGetTempOn => some (itoa w.info.fanTempOn)
  | dripRequestStatus num => some (stateText (w.info.dripInfo num).state)
  | dripRequestStartTime num => (dripRequestStartTime num).time w
  | dripRequestDuration num => some (itoa (w.info.dripInfo num).duration)
  | dripRequestDays num => some (itoa (w.info.dripInfo num).days)
  | _ => none

/-- The text in `result_string`. -/
def result (b : Branch) (w : World) : Text := (b.answer w).getD []

/-- The body of a branch, on the text it reads at `event->data`. Of a measurement it sends two bytes
of `result_string`, else `strlen(result_string)` bytes. -/
def act (b : Branch) (data : Text) (w : World) : World × Option Fault :=
  match b with
  | tempRequest =>
    (w.emit (.publish tempStatusTopic ((tempRequest.result w ++ [0]).take 2)), none)
  | tempHistoryRequest =>
    (w.emit (.publish tempHistoryTopic (w.tempHistory.take historyDepth)), none)
  | humidityRequest =>
    (w.emit (.publish humidityStatusTopic ((humidityRequest.result w ++ [0]).take 2)), none)
  | humidityHistoryRequest =>
    (w.emit (.publish humidityHistoryTopic (w.humidityHistory.take historyDepth)), none)
  | fanSetState => (controlFan 1 data (controlFan 0 data w), none)
  | fanGetState => (w.emit (.publish fanGetStatePubTopic (fanGetState.result w)), none)
  | fanSetTempOn => (controlFanSetTempOn data w, none)
  | fanGetTempOn => (w.emit (.publish fanGetTempOnPubTopic (fanGetTempOn.result w)), none)
  | dripCtrl num => (controlDrip (num + 1) data w, none)
  | dripRequestStatus num =>
    (w.emit (.publish (dripStatusTopic num) ((dripRequestStatus num).result w)), none)
  | dripRequestStartTime num =>
    (w.emit (.publish (dripStartTimeTopic num) ((dripRequestStartTime num).result w)), none)
  | dripSetStartTime num => controlDripStartTime num data w
  | dripRequestDuration num =>
    (w.emit (.publish (dripDurationTopic num) ((dripRequestDuration num).result w)), none)
  | dripSetDuration num => (controlDripDurationTime num data w, none)
  | dripRequestDays num =>
    (w.emit (.publish (dripDaysTopic num) ((dripRequestDays num).result w)), none)
  | dripSetDays num => (controlDripDays num data w, none)

end Branch

/-- `mqtt_publish_drip_status`. -/
def mqttPublishDripStatus (num : Fin 3) (w : World) : World :=
  w.emit (.publish (dripStatusTopic num) (stateText (w.info.dripInfo num).state))

/-! ## The handler -/

/-- An `MQTT_EVENT_DATA` event. The pointers are offsets into the memory that starts with the input
buffer; `none` is NULL. -/
structure DataEvent where
  topic : Option Nat
  topicLen : Nat
  data : Option Nat
  dataLen : Nat

structure Handling where
  world : World
  mem : Text
  fault : Option Fault
  ran : List Branch

def strAt (mem : Text) (off : Nat) : Text := cstr (mem.drop off)

def Handling.enter (ev : DataEvent) (b : Branch) (h : Handling) : Handling :=
  let h := { h with ran := h.ran ++ [b] }
  match b.use, ev.data with
  | .none, _ =>
    let (w, fault) := b.act [] h.world
    { h with world := w, fault := fault }
  | .read, none => { h with fault := some .nullRead }
  | .read, some data =>
    let (w, fault) := b.act (strAt h.mem data) h.world
    { h with world := w, fault := fault }
  | .terminate, none => { h with fault := some .nullWrite }
  | .terminate, some data =>
    let mem := h.mem.set (data + ev.dataLen) 0
    let (w, fault) := b.act (strAt mem data) h.world
    { h with world := w, mem := mem, fault := fault }

/-- One test with its branch. Nothing runs after a fault. -/
def Handling.test (ev : DataEvent) (h : Handling) (b : Branch) : Handling :=
  if h.fault.isSome then h
  else
    match ev.topic with
    | none => { h with fault := some .nullRead }
    | some topic => if strstr (strAt h.mem topic) b.topic then h.enter ev b else h

/-- The `MQTT_EVENT_DATA` case of `mqtt_event_handler_cb`. -/
def mqttEventData (ev : DataEvent) (mem : Text) (w : World) : Handling :=
  Branch.all.foldl (Handling.test ev) ⟨w, mem, none, []⟩

/-! ## What the client delivers (`deliver_publish`) -/

/-- The topics subscribed to, all with QoS 0, in source order. -/
def subscribed : List Text :=
  [tempRequestTopic, tempHistoryRequestTopic, humidityRequestTopic, humidityHistoryRequestTopic,
    timeTopic, fanSetStateSubTopic, fanGetStateSubTopic, fanSetTempOnSubTopic,
    fanGetTempOnSubTopic] ++
  [0, 1, 2].flatMap fun num =>
    [dripRequestStatusTopic num, dripCtrlTopic num, dripRequestStartTimeTopic num,
      dripSetStartTimeTopic num, dripRequestDurationTopic num, dripSetDurationTopic num,
      dripRequestDaysTopic num, dripSetDaysTopic num, dripDaysTopic num]

/-- A QoS 0 PUBLISH in the input buffer: the header, the topic, the payload directly behind it, and
what earlier messages and the memory behind the buffer hold from there on. -/
structure Publish where
  header : Text
  topic : Text
  payload : Text
  residue : Text

namespace Publish

def mem (m : Publish) : Text := m.header ++ m.topic ++ m.payload ++ m.residue

/-- The event `deliver_publish` posts; without a payload `event->data` is NULL. -/
def event (m : Publish) : DataEvent where
  topic := some m.header.length
  topicLen := m.topic.length
  data := if m.payload.length > 0 then some (m.header.length + m.topic.length) else none
  dataLen := m.payload.length

def handle (m : Publish) (w : World) : Handling := mqttEventData m.event m.mem w

end Publish

end GreenHouse
