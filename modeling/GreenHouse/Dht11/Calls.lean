import GreenHouse.Dht11.Wire

/-!
# Calls of `DHT11_read` (`dht11.c`, `request.c`)

The sensor needs two seconds between two transfers. `DHT11_read` keeps the last reading and returns
it to a caller that comes too early. `dht_cached` says what a caller gets in any sequence of calls:
the outcome of the last transfer, never older than two seconds, and never the zeros that the static
holds before the first.

The program itself waits five seconds before each call, so it never comes too early, and a request
is a search through the transfers (`request_iff`): from the samples of the pin to the value that
`Request_Temperature` and `Request_Humidity` return.
-/

namespace GreenHouse

/-! ## The code -/

/-- The statics of `dht11.c`. -/
structure Dht where
  lastReadTime : Int
  lastRead : DhtReading

def Dht.reset : Dht := ⟨-2000000, ⟨.ok, 0, 0⟩⟩

/-- What one call meets: the values of `esp_timer_get_time()` at the test and behind it, and the
line after its start signal. -/
structure DhtCall where
  test : Int
  store : Int
  line : Line

/-- The call comes less than two seconds after the last transfer. -/
def DhtCall.Early (c : DhtCall) (s : Dht) : Prop := c.test - 2000000 < s.lastReadTime

instance (c : DhtCall) (s : Dht) : Decidable (c.Early s) := inferInstanceAs (Decidable (_ < _))

def dht11Read (c : DhtCall) (s : Dht) : DhtReading × Dht :=
  if c.Early s then (s.lastRead, s)
  else
    let reading := (receive c.line).1
    (reading, ⟨c.store, reading⟩)

section Calls

variable (calls : Nat → DhtCall)

/-- The statics before call `k`. -/
def dhtBefore : Nat → Dht
  | 0 => .reset
  | k + 1 => (dht11Read (calls k) (dhtBefore k)).2

/-- What call `k` returns. -/
def dhtResult (k : Nat) : DhtReading := (dht11Read (calls k) (dhtBefore calls k)).1

/-- Call `k` makes a transfer. -/
def Senses (k : Nat) : Prop := ¬ (calls k).Early (dhtBefore calls k)

/-- The `do` loop of a request before call `k`. -/
def requestLoop (field : DhtReading → Int) (k : Nat) : Nat ⊕ (Nat × Int) :=
  let result := field (dhtResult calls k)
  if result = DhtStatus.crcError.code ∨ result = -1 then .inl (k + 1) else .inr (k + 1, result)

end Calls

/-! ## The cache -/

/-- The timer starts at zero and does not go back. -/
structure DhtTimed (calls : Nat → DhtCall) : Prop where
  start : 0 ≤ (calls 0).test
  within : ∀ k, (calls k).test ≤ (calls k).store
  between : ∀ k, (calls k).store ≤ (calls (k + 1)).test

section Cache

variable {calls : Nat → DhtCall} {i j k : Nat}

theorem DhtTimed.store_le (h : DhtTimed calls) (hij : i < j) :
    (calls i).store ≤ (calls j).test := by
  induction hij with
  | refl => exact h.between i
  | step _ ih => exact (ih.trans (h.within _)).trans (h.between _)

theorem dhtBefore_succ_of_senses (h : Senses calls k) :
    dhtBefore calls (k + 1) = ⟨(calls k).store, (receive (calls k).line).1⟩ := by
  show (dht11Read _ _).2 = _
  unfold dht11Read
  rw [if_neg h]

theorem dhtBefore_succ_of_early (h : ¬ Senses calls k) :
    dhtBefore calls (k + 1) = dhtBefore calls k := by
  show (dht11Read _ _).2 = _
  unfold dht11Read
  rw [if_pos (not_not.1 h)]

theorem dhtResult_of_senses (h : Senses calls k) :
    dhtResult calls k = (receive (calls k).line).1 := by
  unfold dhtResult dht11Read
  rw [if_neg h]

theorem dhtResult_of_early (h : ¬ Senses calls k) :
    dhtResult calls k = (dhtBefore calls k).lastRead := by
  unfold dhtResult dht11Read
  rw [if_pos (not_not.1 h)]

/-- Call `j` made the last transfer before call `k`. -/
structure LastSensed (calls : Nat → DhtCall) (j k : Nat) : Prop where
  lt : j < k
  senses : Senses calls j
  last : ∀ i, j < i → i < k → ¬ Senses calls i
  state : dhtBefore calls k = ⟨(calls j).store, (receive (calls j).line).1⟩

theorem senses_zero (h : DhtTimed calls) : Senses calls 0 := by
  have hstart := h.start
  show ¬ (calls 0).test - 2000000 < -2000000
  omega

/-- **The statics hold the last transfer.** -/
theorem exists_lastSensed (h : DhtTimed calls) : ∀ k, ∃ j, LastSensed calls j (k + 1) := by
  intro k
  induction k with
  | zero =>
    have hsenses := senses_zero h
    exact ⟨0, Nat.zero_lt_one, hsenses, fun i hi hlt => absurd hlt (by omega),
      dhtBefore_succ_of_senses hsenses⟩
  | succ k ih =>
    by_cases hsenses : Senses calls (k + 1)
    · exact ⟨k + 1, Nat.lt_succ_self _, hsenses, fun i hi hlt => absurd hlt (by omega),
        dhtBefore_succ_of_senses hsenses⟩
    · obtain ⟨j, hj⟩ := ih
      refine ⟨j, Nat.lt_succ_of_lt hj.lt, hj.senses, fun i hji hik => ?_,
        (dhtBefore_succ_of_early hsenses).trans hj.state⟩
      rcases Nat.lt_succ_iff_lt_or_eq.1 hik with hlt | rfl
      · exact hj.last i hji hlt
      · exact hsenses

/-- Two transfers are two seconds apart. -/
theorem senses_apart (h : DhtTimed calls) (hij : i < j) (hi : Senses calls i)
    (hj : Senses calls j) :
    (calls i).store + 2000000 ≤ (calls j).test := by
  obtain ⟨m, rfl⟩ : ∃ m, j = m + 1 := ⟨j - 1, by omega⟩
  obtain ⟨l, hl⟩ := exists_lastSensed h m
  have hlate : ¬ (calls (m + 1)).test - 2000000 < (dhtBefore calls (m + 1)).lastReadTime := hj
  rw [hl.state] at hlate
  dsimp only at hlate
  have hle : (calls i).store ≤ (calls l).store := by
    rcases Nat.lt_trichotomy i l with hlt | rfl | hgt
    · exact (h.store_le hlt).trans (h.within l)
    · exact le_rfl
    · exact absurd hi (hl.last i hgt hij)
  omega

/-- What call `k` returns is the outcome of the transfer of call `j`, the last one made. -/
structure Answered (calls : Nat → DhtCall) (j k : Nat) : Prop where
  le : j ≤ k
  senses : Senses calls j
  last : ∀ i, j < i → i ≤ k → ¬ Senses calls i
  result : dhtResult calls k = (receive (calls j).line).1
  recent : (calls k).test - (calls j).store < 2000000

theorem answered_of_senses (h : DhtTimed calls) (hk : Senses calls k) : Answered calls k k where
  le := Nat.le_refl k
  senses := hk
  last := fun i hki hik => absurd hki (Nat.not_lt.2 hik)
  result := dhtResult_of_senses hk
  recent := by
    have := h.within k
    omega

theorem answered_of_early (hk : ¬ Senses calls k) (hj : LastSensed calls j k) :
    Answered calls j k where
  le := Nat.le_of_lt hj.lt
  senses := hj.senses
  last := fun i hji hik => by
    rcases Nat.lt_or_eq_of_le hik with hlt | rfl
    · exact hj.last i hji hlt
    · exact hk
  result := by rw [dhtResult_of_early hk, hj.state]
  recent := by
    have hearly : (calls k).test - 2000000 < (dhtBefore calls k).lastReadTime := not_not.1 hk
    rw [hj.state] at hearly
    dsimp only at hearly
    omega

/-- **The cache.** In any sequence of calls, whenever they come: each returns the outcome of the
last transfer made, its own or one that began less than two seconds before; and between two
transfers there are two seconds. -/
theorem dht_cached (h : DhtTimed calls) :
    (∀ k, ∃ j, Answered calls j k) ∧
      ∀ i j, i < j → Senses calls i → Senses calls j →
        (calls i).store + 2000000 ≤ (calls j).test := by
  refine ⟨fun k => ?_, fun i j => senses_apart h⟩
  by_cases hk : Senses calls k
  · exact ⟨k, answered_of_senses h hk⟩
  · cases k with
    | zero => exact absurd (senses_zero h) hk
    | succ k =>
      obtain ⟨j, hj⟩ := exists_lastSensed h k
      exact ⟨j, answered_of_early hk hj⟩

end Cache

/-- A call every `period` microseconds, with a sensor that does not answer the first. -/
def periodicCalls (period : Nat) (k : Nat) : DhtCall :=
  ⟨period * k, period * k,
    if k = 0 then fun _ => true else lineOf (nominal mildFrame).samples false⟩

theorem timed_periodicCalls (period : Nat) : DhtTimed (periodicCalls period) where
  start := by simp [periodicCalls]
  within := fun k => le_rfl
  between := fun k => by
    simp only [periodicCalls]
    push_cast
    rw [Int.mul_add]
    omega

/-- Called every second, the answer to the second call is the timeout of the first. -/
theorem dht_cached_second :
    dhtResult (periodicCalls 1000000) 1 = (receive fun _ => true).1 := by
  obtain ⟨j, hj⟩ := (dht_cached (timed_periodicCalls 1000000)).1 1
  have hle := hj.le
  have hzero : j ≠ 1 := by
    rintro rfl
    have hapart := (dht_cached (timed_periodicCalls 1000000)).2 0 1 Nat.zero_lt_one
      (senses_zero (timed_periodicCalls _)) hj.senses
    exact absurd hapart (by decide)
  obtain rfl : j = 0 := by omega
  exact hj.result

/-! ## Requests -/

/-- Each call comes behind a `vTaskDelay(5000 / portTICK_PERIOD_MS)`: 500 ticks of 10 ms, of which
the first may be over already. -/
structure Delayed (calls : Nat → DhtCall) : Prop extends DhtTimed calls where
  delay : ∀ k, (calls k).store + 4990000 ≤ (calls (k + 1)).test

/-- `Request_Temperature`, entered before call `k`, returns `v` after the call before `k'`. -/
def TemperatureReturns (calls : Nat → DhtCall) (k k' : Nat) (v : Int) : Prop :=
  ∃ n result, Ends (requestLoop calls DhtReading.temperature) k n (k', result) ∧
    v = fahrenheit result

def HumidityReturns (calls : Nat → DhtCall) (k k' : Nat) (v : Int) : Prop :=
  ∃ n, Ends (requestLoop calls DhtReading.humidity) k n (k', v)

/-- The line carries a frame with the right checksum. -/
def Checked (line : Line) (data : Frame) : Prop := data.Checks ∧ ∃ k, FrameSent line data k

/-- From call `k` on, call `j` is the first whose line carries a frame with the right checksum. -/
structure FirstChecked (calls : Nat → DhtCall) (k j : Nat) (data : Frame) : Prop where
  le : k ≤ j
  checked : Checked (calls j).line data
  first : ∀ i, k ≤ i → i < j → ∀ data, ¬ Checked (calls i).line data

section Requests

variable {calls : Nat → DhtCall} {field : DhtReading → Int} {line : Line} {data : Frame}

theorem Checked.receive_eq (h : Checked line data) :
    (receive line).1 = ⟨.ok, (data 2).toNat, (data 0).toNat⟩ := by
  obtain ⟨hsum, k, hsent⟩ := h
  rw [receive_of_sent hsent]
  unfold Frame.outcome
  rw [if_pos hsum]
  rfl

/-- A field of the reading tells whether the line carried a frame with the right checksum. -/
theorem field_receive_iff (hfield : TellsErrors field) (line : Line) :
    field (receive line).1 = -2 ∨ field (receive line).1 = -1 ↔ ¬ ∃ data, Checked line data := by
  by_cases hsent : ∃ data k, FrameSent line data k
  · obtain ⟨data, k, h⟩ := hsent
    rw [receive_of_sent h]
    refine (hfield data.outcome).trans (not_congr ?_)
    constructor
    · intro hok
      refine ⟨data, ?_, k, h⟩
      by_contra hsum
      unfold Frame.outcome at hok
      rw [if_neg hsum] at hok
      cases hok
    · rintro ⟨data', h'⟩
      have heq := h'.receive_eq
      rw [receive_of_sent h] at heq
      exact congrArg DhtReading.status heq
  · rw [receive_of_not_sent hsent]
    refine iff_of_true ((hfield .timeout).2 nofun) ?_
    rintro ⟨data, -, k, h⟩
    exact hsent ⟨data, k, h⟩

/-- Behind its delay no call comes too early. -/
theorem Delayed.senses (h : Delayed calls) : ∀ k, Senses calls k := by
  intro k
  cases k with
  | zero => exact senses_zero h.toDhtTimed
  | succ k =>
    obtain ⟨j, hj⟩ := exists_lastSensed h.toDhtTimed k
    have hstore : (calls j).store ≤ (calls k).store := by
      rcases Nat.lt_succ_iff_lt_or_eq.1 hj.lt with hlt | rfl
      · exact (h.store_le hlt).trans (h.within k)
      · exact le_rfl
    have hdelay := h.delay k
    show ¬ (calls (k + 1)).test - 2000000 < (dhtBefore calls (k + 1)).lastReadTime
    rw [hj.state]
    dsimp only
    omega

theorem requestLoop_eq_search [DecidablePred fun k => ∃ data, Checked (calls k).line data]
    (h : Delayed calls) (hfield : TellsErrors field) :
    requestLoop calls field =
      search (fun k => ∃ data, Checked (calls k).line data)
        fun k => (k + 1, field (receive (calls k).line).1) := by
  funext k
  have hk := field_receive_iff hfield (calls k).line
  unfold requestLoop search
  rw [dhtResult_of_senses (h.senses k)]
  by_cases hc : ∃ data, Checked (calls k).line data
  · rw [if_pos hc, if_neg]
    exact fun herr => hk.1 herr hc
  · rw [if_neg hc, if_pos]
    exact hk.2 hc

/-- A request ends with the first frame whose checksum is right. -/
theorem request_iff (h : Delayed calls) (hfield : TellsErrors field) {k k' : Nat} {v : Int} :
    (∃ n, Ends (requestLoop calls field) k n (k', v)) ↔
      ∃ j data, FirstChecked calls k j data ∧ k' = j + 1 ∧
        v = field ⟨.ok, (data 2).toNat, (data 0).toNat⟩ := by
  classical
  rw [requestLoop_eq_search h hfield, ends_search_iff]
  constructor
  · rintro ⟨j, hj, ⟨data, hdata⟩, hfirst, heq⟩
    rw [hdata.receive_eq] at heq
    cases heq
    exact ⟨j, data, ⟨hj, hdata, fun i hki hij d hd => hfirst i hki hij ⟨d, hd⟩⟩, rfl, rfl⟩
  · rintro ⟨j, data, hj, rfl, rfl⟩
    refine ⟨j, hj.le, ⟨data, hj.checked⟩, fun i hki hij => ?_, ?_⟩
    · rintro ⟨d, hd⟩
      exact hj.first i hki hij d hd
    · rw [hj.checked.receive_eq]

/-- **Requests on the wire.** In the program, whatever the line does: a request takes one transfer
after another up to the first that carries a frame with the right checksum, and returns that frame's
temperature in Fahrenheit, or its humidity. It returns exactly if there is such a transfer. -/
theorem requests_wire (h : Delayed calls) (k k' : Nat) (v : Int) :
    (TemperatureReturns calls k k' v ↔
      ∃ j data, FirstChecked calls k j data ∧ k' = j + 1 ∧ v = fahrenheit (data 2).toNat) ∧
    (HumidityReturns calls k k' v ↔
      ∃ j data, FirstChecked calls k j data ∧ k' = j + 1 ∧ v = (data 0).toNat) := by
  refine ⟨?_, request_iff h tellsErrors_humidity⟩
  have hends : ∀ result, (∃ n, Ends (requestLoop calls DhtReading.temperature) k n (k', result)) ↔
      _ := fun result => request_iff h tellsErrors_temperature
  constructor
  · rintro ⟨n, result, hn, rfl⟩
    obtain ⟨j, data, hj, hk', rfl⟩ := (hends result).1 ⟨n, hn⟩
    exact ⟨j, data, hj, hk', rfl⟩
  · rintro ⟨j, data, hj, hk', rfl⟩
    obtain ⟨n, hn⟩ := (hends _).2 ⟨j, data, hj, hk', rfl⟩
    exact ⟨n, _, hn, rfl⟩

end Requests

theorem delayed_periodicCalls : Delayed (periodicCalls 5000000) where
  toDhtTimed := timed_periodicCalls 5000000
  delay := fun k => by
    simp only [periodicCalls]
    push_cast
    omega

/-- The first transfer fails, and the second brings 77 degrees. -/
theorem requests_wire_second : TemperatureReturns (periodicCalls 5000000) 0 2 77 := by
  refine (requests_wire delayed_periodicCalls 0 2 77).1.2 ⟨1, mildFrame, ⟨by decide, ?_, ?_⟩, rfl,
    by decide⟩
  · exact ⟨by decide, _, (nominal mildFrame).sent (reads_lineOf _ _)⟩
  · rintro i - hi data ⟨-, k, low, -, -, high, -, hhigh, -⟩
    obtain rfl : i = 0 := by omega
    exact hhigh.left rfl

end GreenHouse
