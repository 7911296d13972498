import GreenHouse.Clock
import GreenHouse.Drip.Loop
import GreenHouse.History
import GreenHouse.Mqtt.Handler

/-!
# Published measurements (`Update_Temperature`, `Update_Humidity` and the request branches)

Four places publish a measurement. All of them send two bytes, whatever the text of the value is
long, and `Update_Humidity` formats `temp`. When to publish is right: the head of a history is the
last reading, and a byte tells two readings of an `int8_t` apart.

`telemetry_right_iff` says for which readings the payloads are right all the same.
-/

namespace GreenHouse

open CInt CText

/-! ## Two bytes -/

/-- Two bytes of the text of `t` are the text of `v` exactly when the latter has two characters and
the former begins with it. -/
theorem twoBytes_eq_itoa_iff (t v : Int) :
    twoBytes t = itoa v ↔ (itoa v).length = 2 ∧ itoa v <+: itoa t := by
  unfold twoBytes
  constructor
  · intro h
    have hlen : (itoa v).length = 2 := by
      have hpos := List.length_pos_of_ne_nil (itoa_ne_nil t)
      rw [← h, List.length_take, List.length_append, List.length_singleton]
      omega
    refine ⟨hlen, ?_⟩
    by_cases ht : 2 ≤ (itoa t).length
    · rw [← h, List.take_append_of_le_length ht]
      exact List.take_prefix _ _
    · -- a text of one character is followed by the NUL behind it
      have hwhole : (itoa t ++ [0]).take 2 = itoa t ++ [0] := by
        apply List.take_of_length_le
        rw [List.length_append, List.length_singleton]
        omega
      have hzero : (0 : UInt8) ∈ itoa v := by
        rw [← h, hwhole]
        simp
      exact absurd hzero (zero_notMem_itoa v)
  · rintro ⟨hlen, hpre⟩
    rw [List.take_append_of_le_length (hlen ▸ hpre.length_le), ← hlen]
    exact (List.prefix_iff_eq_take.1 hpre).symm

theorem twoBytes_eq_self_iff (v : Int) : twoBytes v = itoa v ↔ (itoa v).length = 2 := by
  rw [twoBytes_eq_itoa_iff]
  exact ⟨fun h => h.1, fun h => ⟨h, List.prefix_rfl⟩⟩

/-! ## Change detection -/

theorem byteOf_injOn {a b : Int} (ha : InI8 a) (hb : InI8 b) : byteOf a = byteOf b ↔ a = b := by
  unfold InI8 at ha hb
  refine ⟨fun h => ?_, fun h => by rw [h]⟩
  have hnat := congrArg UInt8.toNat h
  unfold byteOf at hnat
  rw [UInt8.toNat_ofNat', UInt8.toNat_ofNat'] at hnat
  omega

/-- After a reading, slot 0 of a history is the reading and slot 1 what slot 0 was. -/
theorem getElem_pushHistory {history dummy : Text} (hlen : history.length = historyDepth)
    (hdummy : dummy = history) (v : Int) :
    (pushHistory history dummy v)[0]? = some (byteOf v) ∧
      (pushHistory history dummy v)[1]? = history[0]? ∧
      (pushHistory history dummy v).length = historyDepth := by
  subst hdummy
  rw [pushHistory_self hlen]
  refine ⟨rfl, ?_, ?_⟩
  · rw [List.getElem?_cons_succ, List.getElem?_take_of_lt (by decide)]
  · rw [List.length_cons, List.length_take, hlen]
    decide

/-! ## What the other calls leave alone -/

def publishedOn (topic : Text) (trace : List Event) : List Text :=
  trace.filterMap fun
    | .publish t payload => if t = topic then some payload else none
    | _ => none

/-- The measurements of the world, with their histories, and what was published on their topics. -/
structure Sensors where
  temp : Int
  humidity : Int
  tempHistory : Text
  humidityHistory : Text
  dummyHistory : Text
  onTemp : List Text
  onHumidity : List Text

def World.sensors (w : World) : Sensors where
  temp := w.temp
  humidity := w.humidity
  tempHistory := w.tempHistory
  humidityHistory := w.humidityHistory
  dummyHistory := w.dummyHistory
  onTemp := publishedOn tempStatusTopic w.trace
  onHumidity := publishedOn humidityStatusTopic w.trace

section Frame

variable (w : World)

theorem sensors_updateTime (env : TimeEnv) : (updateTime env w).sensors = w.sensors := by
  have hfirst : (updateTimeFirst env w).sensors = w.sensors := by
    cases hw : w.info.timeIsValid with
    | true => rw [updateTimeFirst_of_valid hw]
    | false =>
      rw [updateTimeFirst_of_invalid hw]
      rfl
  have hresync : ∀ v, (updateTimeResync env v).sensors = v.sensors := by
    intro v
    by_cases hv : ResyncDue env v
    · rw [updateTimeResync_of_due hv]
      rfl
    · rw [updateTimeResync_of_not_due hv]
  exact (hresync _).trans hfirst

theorem sensors_gpioSetLevel (pin : Pin) (level : Bool) :
    (w.gpioSetLevel pin level).sensors = w.sensors := by
  simp [World.sensors, World.gpioSetLevel, World.emit, publishedOn]

theorem sensors_updateFan : (updateFan w).sensors = w.sensors := by
  have hset : ∀ on v, (setFans on v).sensors = v.sensors := by
    intro on v
    unfold setFans
    simp only [sensors_gpioSetLevel]
  unfold updateFan
  split
  · exact hset true { w with fanStatus := true }
  · split
    · exact hset false { w with fanStatus := false }
    · rfl

theorem sensors_controlDripNum (num : Fin 3) (on : Bool) :
    (controlDripNum num on w).sensors = w.sensors := by
  have hpub : ∀ topic, publishedOn topic (controlDripNum num on w).trace =
      publishedOn topic w.trace := by
    intro topic
    rw [controlDripNum_trace]
    simp [publishedOn]
  have hview := congrArg (fun v : World => Sensors.mk v.temp v.humidity v.tempHistory
    v.humidityHistory v.dummyHistory (publishedOn tempStatusTopic w.trace)
    (publishedOn humidityStatusTopic w.trace)) (core_controlDripNum num on w)
  unfold World.sensors
  rw [hpub, hpub]
  exact hview

theorem sensors_updateDrip (num : Fin 3) : (updateDrip num w).2.sensors = w.sensors := by
  rw [updateDrip_eq]
  cases w.nextAction num with
  | stay => rfl
  | «open» => exact sensors_controlDripNum w num true
  | close => exact sensors_controlDripNum w num false

/-- In an iteration only the two measurements touch the sensors. -/
theorem sensors_appLoop (env : LoopEnv) : (appLoop env w).sensors =
    (updateHumidity env.humidity (updateTemperature env.temperature w)).sensors := by
  have hdrips : ∀ v, (updateDrips v).sensors = v.sensors := by
    intro v
    unfold updateDrips
    split
    · rw [sensors_updateDrip, sensors_updateDrip, sensors_updateDrip]
    · rfl
  unfold appLoop appLoopFan
  rw [hdrips, sensors_updateFan, sensors_updateTime]

end Frame

/-! ## The histories in the loop -/

section Loop

variable {ts hs : List Int} {w w' : World}

theorem HoldsRecent.of_sensors (h : HoldsRecent ts hs w) (hw : w'.sensors = w.sensors) :
    HoldsRecent ts hs w' where
  temp := (congrArg Sensors.tempHistory hw).trans h.temp
  humidity := (congrArg Sensors.humidityHistory hw).trans h.humidity
  dummy := (congrArg (fun s => s.dummyHistory.length) hw).trans h.dummy

theorem HoldsRecent.appLoop (h : HoldsRecent ts hs w) (env : LoopEnv) :
    HoldsRecent (ts ++ [env.temperature]) (hs ++ [env.humidity]) (appLoop env w) := by
  have hmeasured := (h.run (.temperature env.temperature)).run (.humidity env.humidity)
  simp only [Measurement.temperature?, Measurement.humidity?, Option.toList_some,
    Option.toList_none, List.append_nil] at hmeasured
  exact hmeasured.of_sensors (sensors_appLoop w env)

/-- **The histories in the loop.** After any number of iterations from a boot they hold the last of
the readings the iterations took. -/
theorem holdsRecent_loop (flash : Text → Option Int) (envs : List LoopEnv) :
    HoldsRecent (envs.map LoopEnv.temperature) (envs.map LoopEnv.humidity)
      (envs.foldl (fun w env => GreenHouse.appLoop env w) (boot flash)) := by
  induction envs using List.reverseRecOn with
  | nil => exact holdsRecent_boot flash
  | append_singleton envs env ih =>
    rw [List.map_append, List.map_append, List.foldl_append]
    exact ih.appLoop env

end Loop

/-! ## Runs -/

abbrev Reading := { v : Int // InI8 v }

/-- An iteration with its two readings, or a request between two iterations. -/
inductive Activity where
  | iterate (temperature humidity : Reading) (time : TimeEnv)
  | requestTemp
  | requestHumidity

/-- The world with the last reading of each quantity, 0 before the first. -/
structure Metered where
  world : World
  temp : Reading
  humidity : Reading

namespace Metered

def after (s : Metered) : Activity → Metered
  | .iterate t h time => ⟨appLoop ⟨t, h, time⟩ s.world.untraced, t, h⟩
  | .requestTemp => { s with world := (Branch.tempRequest.act [] s.world.untraced).1 }
  | .requestHumidity => { s with world := (Branch.humidityRequest.act [] s.world.untraced).1 }

def zero : Reading := ⟨0, by decide⟩

def booted (flash : Text → Option Int) : Metered := ⟨boot flash, zero, zero⟩

/-- What should be published on the two topics: a reading that differs from the last one of its
quantity, and on a request the last one. -/
def due (s : Metered) : Activity → List Text × List Text
  | .iterate t h _ =>
    (if t ≠ s.temp then [itoa t] else [], if h ≠ s.humidity then [itoa h] else [])
  | .requestTemp => ([itoa s.temp], [])
  | .requestHumidity => ([], [itoa s.humidity])

end Metered

/-- The payloads a step publishes on the two topics, and those it should publish. -/
structure Sent where
  onTemp : List Text
  onHumidity : List Text
  due : List Text × List Text

/-- On each topic what should be published is published: as many messages, with these payloads. -/
def Sent.Right (o : Sent) : Prop := o.onTemp = o.due.1 ∧ o.onHumidity = o.due.2

/-- Messages are published when they should be, whatever their payloads. -/
def Sent.InTime (o : Sent) : Prop :=
  o.onTemp.length = o.due.1.length ∧ o.onHumidity.length = o.due.2.length

def telemetry : Mealy Metered Activity Sent where
  step s a :=
    (s.after a,
      ⟨publishedOn tempStatusTopic (s.after a).world.trace,
        publishedOn humidityStatusTopic (s.after a).world.trace, s.due a⟩)

/-- Two digits, or a minus sign and one. -/
def TwoChars (v : Int) : Prop := (10 ≤ v ∧ v < 100) ∨ (-10 < v ∧ v < 0)

/-- The payloads of the step come out right: what is published has two characters, and where a
humidity is published, the temperature of the iteration begins with its text. -/
def Metered.Fits (s : Metered) : Activity → Prop
  | .iterate t h _ =>
    (t ≠ s.temp → TwoChars t) ∧ (h ≠ s.humidity → TwoChars h ∧ itoa h <+: itoa t)
  | .requestTemp => TwoChars s.temp
  | .requestHumidity => TwoChars s.humidity

/-! ### The readings -/

/-- A history whose head is the last reading. -/
structure HistoryOf (history : Text) (last : Int) : Prop where
  length : history.length = historyDepth
  head : history[0]? = some (byteOf last)

theorem HistoryOf.push {history : Text} {last : Int} (h : HistoryOf history last) (v : Int) :
    HistoryOf (pushHistory history history v) v :=
  have hpush := getElem_pushHistory h.length rfl v
  ⟨hpush.2.2, hpush.1⟩

/-- A reading is published exactly when it differs from the last one. -/
theorem HistoryOf.changed_iff {history : Text} {last v : Int} (h : HistoryOf history last)
    (hlast : InI8 last) (hv : InI8 v) :
    (pushHistory history history v)[0]? ≠ (pushHistory history history v)[1]? ↔ v ≠ last := by
  obtain ⟨h0, h1, -⟩ := getElem_pushHistory h.length rfl v
  rw [h0, h1, h.head, Ne, Option.some.injEq, byteOf_injOn hv hlast]

section Measure

variable {w : World} {last v : Int} (hlast : InI8 last) (hv : InI8 v)
  (hdummy : w.dummyHistory.length = historyDepth)

include hlast hv hdummy

theorem updateTemperature_eq (h : HistoryOf w.tempHistory last) :
    updateTemperature v w =
      let w' := { w with
        dummyHistory := w.tempHistory
        temp := v
        tempHistory := pushHistory w.tempHistory w.tempHistory v }
      if v ≠ last then w'.emit (.publish tempStatusTopic (twoBytes v)) else w' := by
  have hchanged := h.changed_iff hlast hv
  unfold updateTemperature
  dsimp only
  rw [memcpy_whole hdummy h.length, i8_eq hv]
  by_cases hne : v ≠ last
  · rw [if_pos (hchanged.2 hne), if_pos hne]
  · rw [if_neg (hchanged.not.2 hne), if_neg hne]

theorem updateHumidity_eq (h : HistoryOf w.humidityHistory last) :
    updateHumidity v w =
      let w' := { w with
        dummyHistory := w.humidityHistory
        humidity := v
        humidityHistory := pushHistory w.humidityHistory w.humidityHistory v }
      if v ≠ last then w'.emit (.publish humidityStatusTopic (twoBytes w.temp)) else w' := by
  have hchanged := h.changed_iff hlast hv
  unfold updateHumidity
  dsimp only
  rw [memcpy_whole hdummy h.length, i8_eq hv]
  by_cases hne : v ≠ last
  · rw [if_pos (hchanged.2 hne), if_pos hne]
  · rw [if_neg (hchanged.not.2 hne), if_neg hne]

end Measure

/-- What the stored readings and histories are between two steps. -/
structure Metered.Inv (s : Metered) : Prop where
  temp : s.world.temp = s.temp
  humidity : s.world.humidity = s.humidity
  tempHistory : HistoryOf s.world.tempHistory s.temp
  humidityHistory : HistoryOf s.world.humidityHistory s.humidity
  dummy : s.world.dummyHistory.length = historyDepth

/-- The sensors after the two measurements of an iteration that began without a trace. -/
theorem sensors_measure {s : Metered} (h : s.Inv) (t u : Reading) :
    (updateHumidity u (updateTemperature t s.world.untraced)).sensors =
      { temp := t
        humidity := u
        tempHistory := pushHistory s.world.tempHistory s.world.tempHistory t
        humidityHistory := pushHistory s.world.humidityHistory s.world.humidityHistory u
        dummyHistory := s.world.humidityHistory
        onTemp := if t ≠ s.temp then [twoBytes t] else []
        onHumidity := if u ≠ s.humidity then [twoBytes t] else [] } := by
  have htemp := updateTemperature_eq (w := s.world.untraced) s.temp.2 t.2 h.dummy h.tempHistory
  have hstored : (updateTemperature t s.world.untraced).dummyHistory = s.world.tempHistory ∧
      (updateTemperature t s.world.untraced).humidityHistory = s.world.humidityHistory ∧
      (updateTemperature t s.world.untraced).temp = t := by
    rw [htemp]
    dsimp only
    split <;> exact ⟨rfl, rfl, rfl⟩
  obtain ⟨hdummy, hhistory, hshown⟩ := hstored
  have hhumidity := updateHumidity_eq (w := updateTemperature t s.world.untraced) s.humidity.2 u.2
    (by rw [hdummy]; exact h.tempHistory.length) (by rw [hhistory]; exact h.humidityHistory)
  have hval : ∀ a b : Reading, (a : Int) ≠ b ↔ a ≠ b := fun a b => Subtype.coe_ne_coe
  rw [hhumidity, hshown, hhistory, htemp]
  by_cases ht : t ≠ s.temp
  · by_cases hu : u ≠ s.humidity
    · rw [if_pos ht, if_pos hu, if_pos ((hval _ _).2 ht), if_pos ((hval _ _).2 hu)]
      rfl
    · rw [if_pos ht, if_neg hu, if_pos ((hval _ _).2 ht), if_neg ((hval _ _).not.2 hu)]
      rfl
  · by_cases hu : u ≠ s.humidity
    · rw [if_neg ht, if_pos hu, if_neg ((hval _ _).not.2 ht), if_pos ((hval _ _).2 hu)]
      rfl
    · rw [if_neg ht, if_neg hu, if_neg ((hval _ _).not.2 ht), if_neg ((hval _ _).not.2 hu)]
      rfl

theorem Metered.Inv.after {s : Metered} (h : s.Inv) (a : Activity) : (s.after a).Inv := by
  cases a with
  | requestTemp => exact ⟨h.temp, h.humidity, h.tempHistory, h.humidityHistory, h.dummy⟩
  | requestHumidity => exact ⟨h.temp, h.humidity, h.tempHistory, h.humidityHistory, h.dummy⟩
  | iterate t u time =>
    have hsensors := (sensors_appLoop s.world.untraced ⟨t, u, time⟩).trans (sensors_measure h t u)
    have htemp := congrArg Sensors.temp hsensors
    have hhumidity := congrArg Sensors.humidity hsensors
    have hth := congrArg Sensors.tempHistory hsensors
    have huh := congrArg Sensors.humidityHistory hsensors
    have hdummy := congrArg Sensors.dummyHistory hsensors
    refine ⟨htemp, hhumidity, ?_, ?_, ?_⟩
    · show HistoryOf (appLoop _ _).sensors.tempHistory t
      rw [hth]
      exact h.tempHistory.push t
    · show HistoryOf (appLoop _ _).sensors.humidityHistory u
      rw [huh]
      exact h.humidityHistory.push u
    · show (appLoop _ _).sensors.dummyHistory.length = historyDepth
      rw [hdummy]
      exact h.humidityHistory.length

/-- What a step publishes on the two topics. -/
theorem sent_step {s : Metered} (h : s.Inv) (a : Activity) :
    ((telemetry.step s a).2.onTemp, (telemetry.step s a).2.onHumidity) =
      match a with
      | .iterate t u _ =>
        (if t ≠ s.temp then [twoBytes t] else [], if u ≠ s.humidity then [twoBytes t] else [])
      | .requestTemp => ([twoBytes s.temp], [])
      | .requestHumidity => ([], [twoBytes s.humidity]) := by
  cases a with
  | iterate t u time =>
    have hsensors := (sensors_appLoop s.world.untraced ⟨t, u, time⟩).trans (sensors_measure h t u)
    exact Prod.ext (congrArg Sensors.onTemp hsensors) (congrArg Sensors.onHumidity hsensors)
  | requestTemp =>
    have hsent : ((telemetry.step s .requestTemp).2.onTemp,
        (telemetry.step s .requestTemp).2.onHumidity) = ([twoBytes s.world.temp], []) := rfl
    rw [hsent, h.temp]
  | requestHumidity =>
    have hsent : ((telemetry.step s .requestHumidity).2.onTemp,
        (telemetry.step s .requestHumidity).2.onHumidity) = ([], [twoBytes s.world.humidity]) := rfl
    rw [hsent, h.humidity]

theorem twoBytes_right_iff (v : Int) : twoBytes v = itoa v ↔ TwoChars v :=
  (twoBytes_eq_self_iff v).trans (length_itoa_eq_two_iff v)

theorem ite_singleton_eq_iff {p : Prop} [Decidable p] {a b : Text} :
    (if p then [a] else []) = (if p then [b] else []) ↔ (p → a = b) := by
  by_cases h : p <;> simp [h]

/-- **The step lemma**: the payloads of a step are right exactly when they fit. -/
theorem right_iff_fits {s : Metered} (h : s.Inv) (a : Activity) :
    (telemetry.step s a).2.Right ↔ s.Fits a := by
  have hsent := sent_step h a
  have hright : (telemetry.step s a).2.Right ↔
      ((telemetry.step s a).2.onTemp, (telemetry.step s a).2.onHumidity) = s.due a := by
    rw [Prod.ext_iff]
    rfl
  rw [hright, hsent]
  cases a with
  | iterate t u time =>
    have hbegins : twoBytes t = itoa u ↔ TwoChars u ∧ itoa u <+: itoa t := by
      rw [twoBytes_eq_itoa_iff, length_itoa_eq_two_iff]
      rfl
    unfold Metered.due Metered.Fits
    rw [Prod.ext_iff]
    dsimp only
    rw [ite_singleton_eq_iff, ite_singleton_eq_iff, twoBytes_right_iff, hbegins]
  | requestTemp =>
    show ([twoBytes s.temp], []) = ([itoa s.temp], []) ↔ TwoChars s.temp
    rw [← twoBytes_right_iff]
    simp
  | requestHumidity =>
    show ([], [twoBytes s.humidity]) = ([], [itoa s.humidity]) ↔ TwoChars s.humidity
    rw [← twoBytes_right_iff]
    simp

theorem inTime_step {s : Metered} (h : s.Inv) (a : Activity) : (telemetry.step s a).2.InTime := by
  have hsent := sent_step h a
  have htemp := congrArg Prod.fst hsent
  have hhumidity := congrArg Prod.snd hsent
  have hlength : ∀ (p : Prop) [Decidable p] (a b : Text),
      (if p then [a] else []).length = (if p then [b] else []).length := by
    intro p _ a b
    split <;> rfl
  dsimp only at htemp hhumidity
  unfold Sent.InTime
  rw [htemp, hhumidity]
  cases a with
  | iterate t u time => exact ⟨hlength _ _ _, hlength _ _ _⟩
  | requestTemp => exact ⟨rfl, rfl⟩
  | requestHumidity => exact ⟨rfl, rfl⟩

theorem Metered.inv_booted (flash : Text → Option Int) : (booted flash).Inv := by
  have hbare := bare_boot flash
  have htemp := congrArg World.temp hbare
  have hhumidity := congrArg World.humidity hbare
  have hholds := holdsRecent_boot flash
  have hzero : HistoryOf (recent []) zero.val := ⟨length_recent [], rfl⟩
  refine ⟨htemp, hhumidity, ?_, ?_, hholds.dummy⟩
  · show HistoryOf (boot flash).tempHistory _
    rw [hholds.temp]
    exact hzero
  · show HistoryOf (boot flash).humidityHistory _
    rw [hholds.humidity]
    exact hzero

/-- **Published measurements.** In every run of iterations and requests from a boot, on each topic
a message is published exactly when the reading of its quantity has changed or is requested; and
all payloads are the text of the last reading of that quantity exactly when every step fits. -/
theorem telemetry_right_iff (flash : Text → Option Int) (activities : List Activity) :
    (∀ o ∈ telemetry.run (Metered.booted flash) activities, o.InTime) ∧
      ((∀ o ∈ telemetry.run (Metered.booted flash) activities, o.Right) ↔
        telemetry.Along Metered.Fits (Metered.booted flash) activities) := by
  have hboot := Metered.inv_booted flash
  refine ⟨?_, ?_⟩
  · have hany : telemetry.Along (fun _ _ => True) (Metered.booted flash) activities :=
      Mealy.along_of_forall_mem (fun _ _ => trivial) _
    exact Mealy.forall_run (I := Metered.Inv) (fun s a h _ => ⟨h.after a, inTime_step h a⟩) hboot
      hany
  · exact Mealy.forall_run_iff (I := Metered.Inv) (fun s a h _ => h.after a)
      (fun s a h => right_iff_fits h a) hboot

/-- At 77 degrees and 50 percent the payload on the humidity topic is 77. -/
theorem telemetry_not_right :
    ¬ ∀ o ∈ telemetry.run (Metered.booted fun _ => none)
      [.iterate ⟨77, by decide⟩ ⟨50, by decide⟩ (callAt 0)], o.Right := by
  intro h
  have hright := h _ List.mem_cons_self
  have hfits := (right_iff_fits (Metered.inv_booted fun _ => none) _).1 hright
  have hbegins := (hfits.2 (by decide)).2
  exact absurd hbegins (by decide +kernel)

end GreenHouse
