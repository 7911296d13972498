import GreenHouse.Drip.Report
import GreenHouse.Sync
import GreenHouse.System.Board
import GreenHouse.System.Effects

/-!
# Runs of the board

What the board does to the outside over a whole run (`board_phrases`), what the status LED shows
(`board_statusLed`), and in which order the schedule commands a valve (`schedule_alternates`).
-/

namespace GreenHouse

open CText

/-! ## The trace -/

/-- Since a boot whole phrases have happened, and writes to the status LED between them. -/
def PhrasedSince (flash : Text → Option Int) (w : World) : Prop :=
  ∃ ps : List (List Event), Emits ps.flatten (boot flash) w ∧
    ∀ p ∈ ps, Phrase p ∨ p = [.gpio statusLedPin false]

theorem PhrasedSince.routine {flash : Text → Option Int} {w w' : World} (h : PhrasedSince flash w)
    (h' : Routine w w') : PhrasedSince flash w' := by
  obtain ⟨ps, hps, hp⟩ := h
  obtain ⟨ps', hps', hp'⟩ := h'
  refine ⟨ps ++ ps', List.flatten_append ▸ hps.trans hps', fun p hm => ?_⟩
  rcases List.mem_append.1 hm with hm | hm
  · exact hp p hm
  · exact Or.inl (hp' p hm)

theorem PhrasedSince.led {flash : Text → Option Int} {w : World} (h : PhrasedSince flash w) :
    PhrasedSince flash (w.gpioSetLevel statusLedPin false) := by
  obtain ⟨ps, hps, hp⟩ := h
  have hled : Emits [.gpio statusLedPin false] w (w.gpioSetLevel statusLedPin false) :=
    ⟨rfl, rfl, rfl⟩
  refine ⟨ps ++ [[.gpio statusLedPin false]], ?_, fun p hm => ?_⟩
  · rw [List.flatten_append, List.flatten_singleton]
    exact hps.trans hled
  · rcases List.mem_append.1 hm with hm | hm
    · exact hp p hm
    · exact Or.inr (List.mem_singleton.1 hm)

theorem stable_phrased : Stable (fun _ => True) fun w => ∃ flash, PhrasedSince flash w where
  boot := fun flash _ => ⟨flash, [], .of_eq rfl rfl rfl, nofun⟩
  call := fun env c w ⟨flash, h⟩ => ⟨flash, h.routine (routine_exec env c w)⟩
  start := fun w ⟨flash, h⟩ => ⟨flash, h.routine (routine_sendStartSignal w)⟩
  message := fun b data w ⟨flash, h⟩ => ⟨flash, h.routine (routine_act b data w)⟩
  led := fun _ ⟨flash, h⟩ => ⟨flash, h.led⟩
  flash := fun _ _ => trivial

/-- **What the board does.** In every state, as long as calls and messages do not overlap and writes
to the flash succeed: what happened since the last boot is what `Init` did and then whole phrases.
These are complete valve commands, each pulse of a coil in one of them with its end, fan switchings,
start signals of the sensor, settings stored under one of nine keys, answers on one of eighteen
topics in the form of the topic, and the status LED. The pins and the flash are what these events
say. -/
theorem board_phrases (flash : Text → Option Int) (inputs : List Board.Input) :
    ∀ s ∈ board.run (.booted flash) inputs, ∃ booted, PhrasedSince booted s.world :=
  stable_phrased.run trivial fun _ _ _ => trivial

/-- An iteration that opens a valve, since the restart before it. -/
theorem board_phrases_dawn : ∃ booted, PhrasedSince booted Board.atDawn.world :=
  board_phrases morningFlash dawn _ atDawn_mem_run

/-- What was published since a boot are answers. -/
theorem PhrasedSince.answer {flash : Text → Option Int} {w : World} (h : PhrasedSince flash w)
    {topic payload : Text} (hm : .publish topic payload ∈ w.trace) : Answer topic payload := by
  obtain ⟨ps, hps, hp⟩ := h
  obtain ⟨stored, hboot⟩ := trace_boot flash
  rw [hps.trace, hboot] at hm
  rcases List.mem_append.1 hm with hm | hm
  · rcases List.mem_append.1 hm with hm | hm
    · obtain ⟨q, -, hq⟩ := List.mem_map.1 hm
      cases hq
    · obtain ⟨q, -, hq⟩ := List.mem_map.1 hm
      cases hq
  · obtain ⟨p, hpm, hm⟩ := List.mem_flatten.1 hm
    rcases hp p hpm with hphrase | rfl
    · cases hphrase with
      | answer h =>
        rw [List.mem_singleton, Event.publish.injEq] at hm
        exact hm.1 ▸ hm.2 ▸ h
      | command num on => simp [commandEvents] at hm
      | fans on => simp at hm
      | fan fan on => simp at hm
      | start => simp at hm
      | store r hval => simp at hm
    · simp at hm

/-! ## The status LED -/

/-- The pins of the loop and of the handler do not include the status LED. -/
theorem statusLedPin_not_mem : statusLedPin ∉ routinePins := by decide

theorem gpio_statusLed_mqttEventData (ev : DataEvent) (mem : Text) (w : World) :
    (mqttEventData ev mem w).world.gpio statusLedPin = w.gpio statusLedPin :=
  of_mqttEventData (P := fun v => v.gpio statusLedPin = w.gpio statusLedPin)
    (fun b data v hv => ((routine_act b data v).gpio statusLedPin_not_mem).trans hv) ev mem rfl

theorem statusLed_after {s : Board} (h : s.next ≠ none → s.world.gpio statusLedPin = false)
    (i : Board.Input) : (s.after i).next ≠ none → (s.after i).world.gpio statusLedPin = false := by
  have hlit : ∀ w, (World.gpioSetLevel statusLedPin false w).gpio statusLedPin = false :=
    fun w => by simp [World.gpioSetLevel, World.emit]
  cases i with
  | call env retries =>
    unfold Board.after
    dsimp only
    split
    · exact h
    · next c hnext =>
      intro _
      have hsense := of_sense (P := fun v => v.gpio statusLedPin = s.world.gpio statusLedPin)
        (fun v hv => ((routine_sendStartSignal v).gpio statusLedPin_not_mem).trans hv) c retries rfl
      have hexec := (routine_exec env c (c.sense retries s.world)).gpio statusLedPin_not_mem
      exact (hexec.trans hsense).trans (h (by rw [hnext]; exact Option.some_ne_none c))
  | data ev mem =>
    have hdata := gpio_statusLed_mqttEventData ev mem s.world
    unfold Board.after
    dsimp only
    generalize mqttEventData ev mem s.world = handled at hdata ⊢
    split
    · exact h
    · split
      · exact fun hnext => absurd rfl hnext
      · exact fun hnext => hdata.trans (h hnext)
  | gotIp desc =>
    unfold Board.after onGotIp
    dsimp only
    split
    · exact fun _ => hlit s.world
    · exact h
  | disconnected err =>
    unfold Board.after onWifiDisconnect
    dsimp only
    split
    · exact fun hnext => absurd rfl hnext
    · exact fun _ => hlit s.world
  | reset erased => exact fun hnext => absurd rfl hnext

/-- **The status LED.** From the first address on and up to the next restart the status LED is lit,
at level 0, in every state: `on_wifi_disconnect`, which is to turn it off, writes the level that
turns it on, and nothing else writes it. It does not report a lost connection. -/
theorem board_statusLed (flash : Text → Option Int) (inputs : List Board.Input) :
    ∀ s ∈ board.run (.booted flash) inputs, s.next ≠ none → s.world.gpio statusLedPin = false := by
  have hany : board.Along (fun _ _ => True) (.booted flash) inputs :=
    Mealy.along_of_forall_mem (fun _ _ => trivial) _
  exact Mealy.forall_run (I := fun s => s.next ≠ none → s.world.gpio statusLedPin = false)
    (fun s i hs _ => ⟨statusLed_after hs i, statusLed_after hs i⟩) (fun h => absurd rfl h) hany

/-- The LED is lit when the connection is lost. -/
theorem board_statusLed_disconnected :
    (((Board.booted morningFlash).after (.gotIp wifiTag)).after (.disconnected .ok)).next ≠ none ∧
      (((Board.booted morningFlash).after (.gotIp wifiTag)).after
        (.disconnected .ok)).world.gpio statusLedPin = false := by
  have hnext : (((Board.booted morningFlash).after (.gotIp wifiTag)).after
      (.disconnected .ok)).next ≠ none := by
    decide +kernel
  exact ⟨hnext, board_statusLed morningFlash [.gotIp wifiTag, .disconnected .ok] _
    (List.mem_cons_of_mem _ (List.mem_singleton_self _)) hnext⟩

/-! ## The commands of the schedule -/

/-- Whether a step ends in a boot. -/
def Board.restarts (s : Board) : Board.Input → Bool
  | .data ev mem => s.next.isSome && (mqttEventData ev mem s.world).fault.isSome
  | .disconnected err => (onWifiDisconnect err s.world).1
  | .reset _ => true
  | _ => false

/-- A board with the commands that calls of the loop gave to each valve since the boot. -/
structure Logged where
  board : Board
  given : Fin 3 → List Bool

namespace Logged

def booted (flash : Text → Option Int) : Logged := ⟨.booted flash, fun _ => []⟩

def after (s : Logged) (i : Board.Input) : Logged where
  board := s.board.after i
  given k :=
    match i with
    | .call _ _ => s.given k ++ (valvesOf k (s.board.after i).world.trace).drop
        (valvesOf k s.board.world.trace).length
    | _ => if s.board.restarts i then [] else s.given k

/-- Commands in turn, from ON, up to what the schedule takes for the state of the valve. -/
structure InTurn (s : Logged) (k : Fin 3) : Prop where
  alternate : (s.given k).IsChain (· ≠ ·)
  first : (s.given k).head? ≠ some false
  status : s.board.world.dripStatus k = (s.given k).getLast?.getD false

end Logged

def logged : Mealy Logged Board.Input Logged where
  step s i := (s.after i, s.after i)

section Schedule

variable {s : Logged} {k : Fin 3}

theorem Logged.InTurn.of_eq {s' : Logged} (h : s.InTurn k) (hgiven : s'.given k = s.given k)
    (hstatus : s'.board.world.dripStatus k = s.board.world.dripStatus k) : s'.InTurn k :=
  ⟨hgiven ▸ h.alternate, hgiven ▸ h.first, by rw [hgiven, hstatus, h.status]⟩

theorem Logged.InTurn.of_boot {s' : Logged} (hgiven : s'.given k = [])
    (hstatus : s'.board.world.dripStatus k = false) : s'.InTurn k :=
  ⟨by rw [hgiven]; exact .nil, by rw [hgiven]; exact nofun, by rw [hgiven, hstatus]; rfl⟩

/-- A command that changes what the schedule takes for the state keeps the turns. -/
theorem Logged.InTurn.command {s' : Logged} (h : s.InTurn k) {on : Bool}
    (hon : on ≠ s.board.world.dripStatus k) (hgiven : s'.given k = s.given k ++ [on])
    (hstatus : s'.board.world.dripStatus k = on) : s'.InTurn k := by
  have hlast := h.status
  refine ⟨?_, ?_, ?_⟩
  · rw [hgiven]
    refine h.alternate.append (.singleton on) fun x hx y hy => ?_
    rw [Option.mem_def] at hx
    rw [List.head?_singleton, Option.mem_some_iff] at hy
    rw [hx, Option.getD_some] at hlast
    rw [← hy, ← hlast]
    exact hon.symm
  · rw [hgiven]
    cases hg : s.given k with
    | nil =>
      rw [hg, List.getLast?_nil, Option.getD_none] at hlast
      rw [hlast] at hon
      simpa using hon
    | cons x l =>
      have hfirst := h.first
      rw [hg] at hfirst
      exact hfirst
  · rw [hgiven, List.getLast?_concat, Option.getD_some, hstatus]

/-- A call of `update_drip` that commands anything commands a change. -/
theorem status_nextAction_ne (num : Fin 3) (w : World) :
    (w.nextAction num).status (w.dripStatus num) ≠ w.dripStatus num ↔ w.nextAction num ≠ .stay :=
  dripAction_status_ne

theorem drip_sendStartSignal (w : World) (k : Fin 3) : (sendStartSignal w).drip k = w.drip k := by
  have hpin : ∀ k, dht11CtrlPin ≠ solLedPin k ∧ dht11CtrlPin ≠ dripOpenCtrlPin k ∧
      dht11CtrlPin ≠ dripCloseCtrlPin k := by decide
  unfold sendStartSignal
  rw [drip_gpioSetLevel hpin, drip_gpioSetLevel hpin]

/-- The start signals are no business of the schedule. -/
theorem sense_schedule (c : Call) (retries : Nat) (w : World) (k : Fin 3) :
    valvesOf k (c.sense retries w).trace = valvesOf k w.trace ∧
      (c.sense retries w).nextAction k = w.nextAction k ∧
        (c.sense retries w).dripStatus = w.dripStatus := by
  refine ⟨?_, ?_, ?_⟩
  · have hdrip := of_sense (P := fun v => v.drip k = w.drip k)
      (fun v hv => (drip_sendStartSignal v k).trans hv) c retries rfl
    exact congrArg DripView.commands hdrip
  · exact of_sense (P := fun v => v.nextAction k = w.nextAction k) (fun _ hv => hv) c retries rfl
  · exact of_sense (P := fun v => v.dripStatus = w.dripStatus) (fun _ hv => hv) c retries rfl

theorem inTurn_call (h : s.InTurn k) (env : LoopEnv) (retries : Nat) :
    (s.after (.call env retries)).InTurn k := by
  cases hnext : s.board.next with
  | none =>
    have hsame : s.board.after (.call env retries) = s.board := by
      unfold Board.after
      rw [hnext]
    have hgiven : (s.after (.call env retries)).given k = s.given k := by
      show s.given k ++ _ = _
      rw [hsame, List.drop_length, List.append_nil]
    exact h.of_eq hgiven (congrArg (fun b : Board => b.world.dripStatus k) hsame)
  | some c =>
    obtain ⟨htrace, haction, hsensed⟩ := sense_schedule c retries s.board.world k
    have hworld : (s.board.after (.call env retries)).world =
        c.exec env (c.sense retries s.board.world) := by
      unfold Board.after
      rw [hnext]
      rfl
    generalize c.sense retries s.board.world = w at htrace haction hsensed hworld
    have hgiven : (s.after (.call env retries)).given k = s.given k ++
        (valvesOf k (c.exec env w).trace).drop (valvesOf k w.trace).length := by
      rw [← hworld, htrace]
      rfl
    have hstatus : (s.after (.call env retries)).board.world.dripStatus k =
        (c.exec env w).dripStatus k :=
      congrArg (fun w : World => w.dripStatus k) hworld
    by_cases hc : c ∈ Call.measure
    · have hvalves : valvesOf k (c.exec env w).trace = valvesOf k w.trace :=
        congrArg DripView.commands (drip_exec_measure env hc w k)
      rw [hvalves, List.drop_length, List.append_nil] at hgiven
      rw [dripStatus_exec_measure env hc, hsensed] at hstatus
      exact h.of_eq hgiven hstatus
    · cases c with
      | drip num =>
        have hvalves := updateDrip_valves num w k
        have hdrip := updateDrip_dripStatus num w
        simp only [Call.exec] at hgiven hstatus
        rw [hvalves, List.drop_left] at hgiven
        rw [hdrip, hsensed] at hstatus
        by_cases hk : num = k
        · subst hk
          rw [if_pos rfl, valves_nextAction, hsensed] at hgiven
          rw [Function.update_self] at hstatus
          rw [haction] at hgiven hstatus
          by_cases hstay : s.board.world.nextAction num = .stay
          · rw [if_neg (not_not.2 hstay), List.append_nil] at hgiven
            rw [hstay] at hstatus
            exact h.of_eq hgiven hstatus
          · rw [if_pos hstay] at hgiven
            exact h.command ((status_nextAction_ne num s.board.world).2 hstay) hgiven hstatus
        · rw [if_neg hk, List.append_nil] at hgiven
          rw [Function.update_of_ne (Ne.symm hk)] at hstatus
          exact h.of_eq hgiven hstatus
      | _ => exact absurd (by decide) hc

theorem inTurn_after (h : s.InTurn k) (i : Board.Input) : (s.after i).InTurn k := by
  have hboot : ∀ flash, (boot flash).dripStatus k = false := fun flash =>
    congrFun (dripStatus_boot flash) k
  cases i with
  | call env retries => exact inTurn_call h env retries
  | data ev mem =>
    have hdata : (mqttEventData ev mem s.board.world).world.dripStatus = s.board.world.dripStatus :=
      of_mqttEventData (P := fun v => v.dripStatus = s.board.world.dripStatus)
        (fun b data v hv => (dripStatus_message b data v).trans hv) ev mem rfl
    cases hnext : s.board.next with
    | none =>
      refine h.of_eq ?_ ?_
      · simp [Logged.after, Board.restarts, hnext]
      · simp [Logged.after, Board.after, hnext]
    | some c =>
      cases hfault : (mqttEventData ev mem s.board.world).fault.isSome with
      | true =>
        refine .of_boot ?_ ?_
        · simp [Logged.after, Board.restarts, hnext, hfault]
        · simp [Logged.after, Board.after, hnext, hfault, Board.booted, hboot]
      | false =>
        refine h.of_eq ?_ ?_
        · simp [Logged.after, Board.restarts, hnext, hfault]
        · simp [Logged.after, Board.after, hnext, hfault, hdata]
  | gotIp desc =>
    refine h.of_eq rfl ?_
    show (onGotIp desc s.board.world).2.dripStatus k = _
    unfold onGotIp
    split <;> rfl
  | disconnected err =>
    by_cases herr : err = .failed
    · refine .of_boot ?_ ?_
      · simp [Logged.after, Board.restarts, onWifiDisconnect, herr]
      · simp [Logged.after, Board.after, onWifiDisconnect, herr, Board.booted, hboot]
    · refine h.of_eq ?_ ?_
      · simp [Logged.after, Board.restarts, onWifiDisconnect, herr]
      · simp [Logged.after, Board.after, onWifiDisconnect, herr, World.gpioSetLevel, World.emit]
  | reset erased => exact .of_boot rfl (hboot _)

end Schedule

/-- **The schedule commands in turn.** Whatever messages, events and restarts come between the
calls: the commands that the loop gave to a valve since the boot are ON and OFF in turn, from ON on,
and the last of them is what `update_drip` goes by. So it closes no valve that it did not open
before, and repeats no command that a message has undone. -/
theorem schedule_alternates (flash : Text → Option Int) (inputs : List Board.Input) :
    ∀ s ∈ logged.run (.booted flash) inputs, ∀ k, s.InTurn k := by
  have hany : logged.Along (fun _ _ => True) (.booted flash) inputs :=
    Mealy.along_of_forall_mem (fun _ _ => trivial) _
  exact Mealy.forall_run (I := fun s => ∀ k, s.InTurn k)
    (fun s i hs _ => ⟨fun k => inTurn_after (hs k) i, fun k => inTurn_after (hs k) i⟩)
    (fun k => .of_boot rfl (congrFun (dripStatus_boot flash) k)) hany

/-- The loop has opened the valve of the first drip. -/
theorem schedule_alternates_dawn :
    (logged.after (.booted morningFlash) dawn).given 0 = [true] ∧
      (logged.after (.booted morningFlash) dawn).InTurn 0 :=
  ⟨by decide +kernel,
    schedule_alternates morningFlash dawn _ (Mealy.after_mem_run (fun _ _ => rfl) _ _ _) 0⟩

end GreenHouse
