import GreenHouse.Drip.Latch

/-!
# The board (`main.c`, `wifi_connect.c` and everything they start)

`app_main` initialises, waits for an address, starts the MQTT client and enters `app_loop`. From
then on the calls of the loop and the events of the client and of the network come in any order. A
fault in the handler and a failed reconnection end in a restart, and the power can go at any time;
all of them boot on the flash as it is, or on an empty one if `nvs_flash_init` asks for that.

`board` is the machine of all this. A step is one whole call or one whole event: the loop and the
client are two tasks, and runs in which a call and a message overlap are left to `Drip.Coils`. Every
write to the flash succeeds. An event of the client is any event with any memory behind it: no part
of the program checks either. `Stable.run` is the rule for what holds in every state the board
reaches.
-/

namespace GreenHouse

open CText

/-! ## The network (`wifi_connect.c`) -/

def wifiTag : Text := ascii "wifi_connect"

/-- `strncmp(s, t, n) == 0` on texts without a NUL. -/
def strncmpEq (s t : Text) (n : Nat) : Bool := s.take n == t.take n

def isOurNetif (desc : Text) : Bool := strncmpEq wifiTag desc (wifiTag.length - 1)

/-- `on_got_ip`: whether it gives the semaphore, and the pins. -/
def onGotIp (desc : Text) (w : World) : Bool × World :=
  if isOurNetif desc then (true, w.gpioSetLevel statusLedPin false) else (false, w)

/-- The answers of `esp_wifi_connect`. -/
inductive ConnectResult where
  | ok
  | notStarted
  | failed
  deriving DecidableEq

/-- `on_wifi_disconnect`: whether `ESP_ERROR_CHECK` ends in a restart, and the pins. -/
def onWifiDisconnect (err : ConnectResult) (w : World) : Bool × World :=
  (decide (err = .failed), w.gpioSetLevel statusLedPin false)

/-! ## The start signal of the sensor (`dht11.c`) -/

def sendStartSignal (w : World) : World :=
  (w.gpioSetLevel dht11CtrlPin false).gpioSetLevel dht11CtrlPin true

/-- The calls of `DHT11_read` in a measurement: one for each reading that fails, and one more. They
are five seconds apart, so that none of them is answered from the cache. -/
def Call.sense (retries : Nat) : Call → World → World
  | temperature, w | humidity, w => sendStartSignal^[retries + 1] w
  | time, w | fan, w | drip _, w => w

/-! ## The machine -/

structure Board where
  world : World
  -- the next call of `app_loop`; `none` while `wifi_connect` waits for an address
  next : Option Call

namespace Board

inductive Input where
  -- of the sensor, `retries` readings fail before the one that is taken
  | call (env : LoopEnv) (retries : Nat)
  | data (ev : DataEvent) (mem : Text)
  | gotIp (desc : Text)
  | disconnected (err : ConnectResult)
  -- `erased`: `nvs_flash_init` found no free page or a new version; a fault or a failed
  -- reconnection whose boot does so is that restart and then this one
  | reset (erased : Bool)

/-- The flash is erased. -/
def Input.erases : Input → Bool
  | reset erased => erased
  | _ => false

/-- `app_main` up to the wait in `wifi_connect`. -/
def booted (flash : Text → Option Int) : Board := ⟨boot flash, none⟩

def after (s : Board) : Input → Board
  | .call env retries =>
    match s.next with
    | none => s
    | some c =>
      let (next, w) := Call.step env (c, c.sense retries s.world)
      ⟨w, some next⟩
  | .data ev mem =>
    match s.next with
    -- the client is started behind `wifi_connect`
    | none => s
    | some _ =>
      let h := mqttEventData ev mem s.world
      if h.fault.isSome then booted h.world.flash else { s with world := h.world }
  | .gotIp desc =>
    let (given, w) := onGotIp desc s.world
    ⟨w, if given then some (s.next.getD .temperature) else s.next⟩
  | .disconnected err =>
    let (restart, w) := onWifiDisconnect err s.world
    if restart then booted w.flash else { s with world := w }
  | .reset erased => booted (if erased then fun _ => none else s.world.flash)

end Board

/-- The output is the state reached. -/
def board : Mealy Board Board.Input Board where
  step s i := (s.after i, s.after i)

/-- A restart, an address and an iteration of the loop at half past six. -/
def dawn : List Board.Input :=
  [.reset false, .gotIp wifiTag] ++ List.replicate 7 (.call halfPastSix 0)

/-- The board at the end of it, with the schedule of `morningFlash`. -/
def Board.atDawn : Board := board.after (.booted morningFlash) dawn

theorem atDawn_mem_run : Board.atDawn ∈ board.run (.booted morningFlash) dawn :=
  Mealy.after_mem_run (fun _ _ => rfl) _ _ _

/-! ## What the handler keeps -/

section Handler

variable {P : World → Prop} (hact : ∀ b data w, P w → P (Branch.act b data w).1)
  (ev : DataEvent)

include hact

theorem Handling.of_enter (b : Branch) {h : Handling} (hP : P h.world) :
    P (h.enter ev b).world := by
  unfold Handling.enter
  dsimp only
  split
  · exact hact b _ _ hP
  · exact hP
  · exact hact b _ _ hP
  · exact hP
  · exact hact b _ _ hP

/-- What every branch keeps the handler keeps, whatever event it is given and in whatever memory. -/
theorem of_mqttEventData (mem : Text) {w : World} (hP : P w) :
    P (mqttEventData ev mem w).world := by
  have hrun : ∀ (l : List Branch) (h : Handling), P h.world →
      P (l.foldl (Handling.test ev) h).world := by
    intro l
    induction l with
    | nil => exact fun h hP => hP
    | cons b l ih =>
      intro h hP
      refine ih _ ?_
      unfold Handling.test
      split
      · exact hP
      · split
        · exact hP
        · split
          · exact Handling.of_enter hact ev b hP
          · exact hP
  exact hrun Branch.all _ hP

end Handler

/-! ## What holds in every state -/

/-- What the boot on a flash that meets `F` establishes and everything that can happen keeps. -/
structure Stable (F : (Text → Option Int) → Prop) (P : World → Prop) : Prop where
  boot : ∀ flash, F flash → P (boot flash)
  call : ∀ env c w, P w → P (Call.exec env c w)
  start : ∀ w, P w → P (sendStartSignal w)
  message : ∀ b data w, P w → P (Branch.act b data w).1
  led : ∀ w, P w → P (w.gpioSetLevel statusLedPin false)
  flash : ∀ w, P w → F w.flash

/-- What every start signal keeps a measurement keeps. -/
theorem of_sense {P : World → Prop} (hstart : ∀ w, P w → P (sendStartSignal w)) (c : Call)
    (retries : Nat) {w : World} (hP : P w) : P (c.sense retries w) := by
  cases c with
  | temperature | humidity => exact Function.Iterate.rec P hP hstart (retries + 1)
  | _ => exact hP

section Stable

variable {F : (Text → Option Int) → Prop} {P : World → Prop}

theorem Stable.after (h : Stable F P) {s : Board} (hs : P s.world) {i : Board.Input}
    (hi : i.erases = true → F fun _ => none) : P (s.after i).world := by
  cases i with
  | call env retries =>
    unfold Board.after
    dsimp only
    split
    · exact hs
    · exact h.call _ _ _ (of_sense h.start _ retries hs)
  | data ev mem =>
    have hdata := of_mqttEventData h.message ev mem hs
    unfold Board.after
    dsimp only
    generalize mqttEventData ev mem s.world = handled at hdata ⊢
    split
    · exact hs
    · split
      · exact h.boot _ (h.flash _ hdata)
      · exact hdata
  | gotIp desc =>
    show P (onGotIp desc s.world).2
    unfold onGotIp
    split
    · exact h.led _ hs
    · exact hs
  | disconnected err =>
    have hled := h.led _ hs
    unfold Board.after onWifiDisconnect
    dsimp only
    split
    · exact h.boot _ (h.flash _ hled)
    · exact hled
  | reset erased =>
    refine h.boot _ ?_
    split
    · next herased => exact hi herased
    · exact h.flash _ hs

/-- **What is stable holds in every state the board reaches**, where an erased flash meets `F` or
none is erased. -/
theorem Stable.run (h : Stable F P) {flash : Text → Option Int} (hF : F flash)
    {inputs : List Board.Input} (herase : ∀ i ∈ inputs, i.erases = true → F fun _ => none) :
    ∀ s ∈ board.run (.booted flash) inputs, P s.world :=
  Mealy.forall_run (I := fun s => P s.world) (fun _ _ hs hi => ⟨h.after hs hi, h.after hs hi⟩)
    (h.boot flash hF) (Mealy.along_of_forall_mem herase _)

end Stable

end GreenHouse
