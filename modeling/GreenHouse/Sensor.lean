import GreenHouse.Clock
import GreenHouse.Init
import GreenHouse.Lib.Loop
import GreenHouse.Update

/-!
# The sensor and the loop (`request.c`, `dht11.c`, `main.c`)

A measurement asks the sensor until it answers with something that is not an error. There is no
bound on the number of tries, and the control loop waits. `alive_iff` says what that asks of a
sensor: however far one looks ahead, a valid reading is still to come. What a request returns does
come from a valid reading: an error puts -1 into both data fields, and a byte is never -1 or -2.
-/

namespace GreenHouse

/-! ## Readings (`dht11.h`, `dht11.c`) -/

inductive DhtStatus where
  | crcError
  | timeoutError
  | ok
  deriving DecidableEq

def DhtStatus.code : DhtStatus → Int
  | crcError => -2
  | timeoutError => -1
  | ok => 0

structure DhtReading where
  status : DhtStatus
  temperature : Int
  humidity : Int

/-- What a call of `DHT11_read` can come to. The values of a valid reading are bytes. -/
inductive DhtOutcome where
  | ok (temperature humidity : UInt8)
  | timeout
  | crc

def DhtOutcome.reading : DhtOutcome → DhtReading
  | ok t h => ⟨.ok, t.toNat, h.toNat⟩
  | timeout => ⟨.timeoutError, -1, -1⟩
  | crc => ⟨.crcError, -1, -1⟩

/-- The outcomes of all calls of `DHT11_read`, in order. -/
abbrev DhtStream := Nat → DhtOutcome

def Valid (stream : DhtStream) (k : Nat) : Prop := (stream k).reading.status = .ok

instance (stream : DhtStream) : DecidablePred (Valid stream) := fun k =>
  inferInstanceAs (Decidable ((stream k).reading.status = .ok))

/-! ## Requests (`request.c`) -/

/-- The `do` loop of a request, before reading `k`: it repeats on the value of the field, and leaves
with the number of readings taken and that value. -/
def readLoop (field : DhtReading → Int) (stream : DhtStream) (k : Nat) : Nat ⊕ (Nat × Int) :=
  let result := field (stream k).reading
  if result = DhtStatus.crcError.code ∨ result = -1 then .inl (k + 1) else .inr (k + 1, result)

/-- `((9.0/5.0)*result) + 32.0`, stored as an `int`; exact on the bytes of a valid reading. -/
def fahrenheit (result : Int) : Int := 9 * result / 5 + 32

/-- `Request_Temperature`, called when `k` readings have been taken, returns `v` when `k'` have. -/
def RequestTemperature (stream : DhtStream) (k k' : Nat) (v : Int) : Prop :=
  ∃ n result, Ends (readLoop DhtReading.temperature stream) k n (k', result) ∧
    v = fahrenheit result

def RequestHumidity (stream : DhtStream) (k k' : Nat) (v : Int) : Prop :=
  ∃ n, Ends (readLoop DhtReading.humidity stream) k n (k', v)

/-! ## The control loop (`main.c`) -/

/-- An iteration of `app_loop` that gets to its end. -/
def Iterates (stream : DhtStream) (time : TimeEnv) (k k' : Nat) (w w' : World) : Prop :=
  ∃ between t h, RequestTemperature stream k between t ∧ RequestHumidity stream between k' h ∧
    w' = appLoop ⟨t, h, time⟩ w

/-- After `n` whole iterations from `w₀`, `k` readings have been taken and the world is `w`. -/
inductive Reaches (stream : DhtStream) (times : Nat → TimeEnv) (w₀ : World) :
    Nat → Nat → World → Prop where
  | start : Reaches stream times w₀ 0 0 w₀
  | iterate {n k k' : Nat} {w w' : World} (before : Reaches stream times w₀ n k w)
      (h : Iterates stream (times n) k k' w w') : Reaches stream times w₀ (n + 1) k' w'

/-- The sensor does not stop the loop: both requests of every iteration return, every iteration gets
to its end, and what a request returns is the value of a valid reading. -/
structure Alive (stream : DhtStream) (times : Nat → TimeEnv) (w₀ : World) : Prop where
  temperature : ∀ n k w, Reaches stream times w₀ n k w → ∃ k' t, RequestTemperature stream k k' t
  humidity : ∀ n k w, Reaches stream times w₀ n k w → ∀ between t,
    RequestTemperature stream k between t → ∃ k' h, RequestHumidity stream between k' h
  iterations : ∀ n, ∃ k w, Reaches stream times w₀ n k w
  valid_temperature : ∀ k k' v, RequestTemperature stream k k' v →
    ∃ j, k ≤ j ∧ Valid stream j ∧ v = fahrenheit (stream j).reading.temperature
  valid_humidity : ∀ k k' v, RequestHumidity stream k k' v →
    ∃ j, k ≤ j ∧ Valid stream j ∧ v = (stream j).reading.humidity

/-! ## The read loop is a search -/

/-- The values the loop repeats on are those of a reading that failed. -/
def TellsErrors (field : DhtReading → Int) : Prop :=
  ∀ o : DhtOutcome, field o.reading = -2 ∨ field o.reading = -1 ↔ o.reading.status ≠ .ok

/-- A field that holds a byte of a valid reading, and -1 after an error, tells the errors. -/
theorem tellsErrors_of {field : DhtReading → Int}
    (hok : ∀ t h, 0 ≤ field (DhtOutcome.ok t h).reading)
    (herr : ∀ status, field ⟨status, -1, -1⟩ = -1) : TellsErrors field := by
  intro o
  cases o with
  | ok t h =>
    have hbyte := hok t h
    exact iff_of_false (by omega) (fun hne => hne rfl)
  | timeout => exact iff_of_true (Or.inr (herr _)) nofun
  | crc => exact iff_of_true (Or.inr (herr _)) nofun

theorem tellsErrors_temperature : TellsErrors DhtReading.temperature :=
  tellsErrors_of (fun _ _ => Int.natCast_nonneg _) fun _ => rfl

theorem tellsErrors_humidity : TellsErrors DhtReading.humidity :=
  tellsErrors_of (fun _ _ => Int.natCast_nonneg _) fun _ => rfl

section Search

variable {field : DhtReading → Int} {stream : DhtStream} {k k' n : Nat} {v : Int}

theorem readLoop_eq_search (hfield : TellsErrors field) :
    readLoop field stream =
      search (Valid stream) fun k => (k + 1, field (stream k).reading) := by
  funext k
  have hk := hfield (stream k)
  unfold readLoop search
  by_cases h : Valid stream k
  · rw [if_pos h, if_neg]
    exact fun herr => hk.1 herr h
  · rw [if_neg h, if_pos]
    exact hk.2 h

/-- The loop ends exactly if a valid reading is still to come. -/
theorem exists_ends_readLoop_iff (hfield : TellsErrors field) :
    (∃ n r, Ends (readLoop field stream) k n r) ↔ ∃ j, k ≤ j ∧ Valid stream j := by
  rw [readLoop_eq_search hfield, exists_ends_search_iff]

/-- It leaves with the value of the last reading it took, and that one is valid. -/
theorem valid_of_ends (hfield : TellsErrors field)
    (h : Ends (readLoop field stream) k n (k', v)) :
    ∃ j, k ≤ j ∧ k' = j + 1 ∧ Valid stream j ∧ v = field (stream j).reading := by
  rw [readLoop_eq_search hfield] at h
  obtain ⟨j, hj, hvalid, heq⟩ := h.of_search
  cases heq
  exact ⟨j, hj, rfl, hvalid, rfl⟩

theorem exists_requestTemperature_iff :
    (∃ k' v, RequestTemperature stream k k' v) ↔ ∃ j, k ≤ j ∧ Valid stream j := by
  rw [← exists_ends_readLoop_iff tellsErrors_temperature]
  constructor
  · rintro ⟨k', v, n, result, h, -⟩
    exact ⟨n, (k', result), h⟩
  · rintro ⟨n, ⟨k', result⟩, h⟩
    exact ⟨k', fahrenheit result, n, result, h, rfl⟩

theorem exists_requestHumidity_iff :
    (∃ k' v, RequestHumidity stream k k' v) ↔ ∃ j, k ≤ j ∧ Valid stream j := by
  rw [← exists_ends_readLoop_iff tellsErrors_humidity]
  constructor
  · rintro ⟨k', v, n, h⟩
    exact ⟨n, (k', v), h⟩
  · rintro ⟨n, ⟨k', v⟩, h⟩
    exact ⟨k', v, n, h⟩

theorem RequestTemperature.valid (h : RequestTemperature stream k k' v) :
    ∃ j, k ≤ j ∧ k' = j + 1 ∧ Valid stream j ∧
      v = fahrenheit (stream j).reading.temperature := by
  obtain ⟨n, result, hends, rfl⟩ := h
  obtain ⟨j, hj, hk, hvalid, rfl⟩ := valid_of_ends tellsErrors_temperature hends
  exact ⟨j, hj, hk, hvalid, rfl⟩

theorem RequestHumidity.valid (h : RequestHumidity stream k k' v) :
    ∃ j, k ≤ j ∧ k' = j + 1 ∧ Valid stream j ∧ v = (stream j).reading.humidity := by
  obtain ⟨n, hends⟩ := h
  exact valid_of_ends tellsErrors_humidity hends

end Search

/-! ## When the loop goes on -/

section Runs

variable {stream : DhtStream} {times : Nat → TimeEnv} {w₀ w w' : World} {n k k' : Nat}

/-- An iteration takes two readings at least, and the last of them is valid. -/
theorem Iterates.valid {time : TimeEnv} (h : Iterates stream time k k' w w') :
    ∃ j, k < j ∧ k' = j + 1 ∧ Valid stream j := by
  obtain ⟨between, t, u, ht, hu, -⟩ := h
  obtain ⟨i, hi, rfl, -⟩ := ht.valid
  obtain ⟨j, hj, rfl, hvalid, -⟩ := hu.valid
  exact ⟨j, by omega, rfl, hvalid⟩

theorem Reaches.le (h : Reaches stream times w₀ n k w) : n ≤ k := by
  induction h with
  | start => exact Nat.le_refl 0
  | iterate before hit ih =>
    obtain ⟨j, hj, rfl, -⟩ := hit.valid
    omega

theorem exists_iterates (h : ∀ k, ∃ j, k ≤ j ∧ Valid stream j) (time : TimeEnv) (k : Nat)
    (w : World) : ∃ k' w', Iterates stream time k k' w w' := by
  obtain ⟨between, t, ht⟩ := exists_requestTemperature_iff.2 (h k)
  obtain ⟨k', u, hu⟩ := exists_requestHumidity_iff.2 (h between)
  exact ⟨k', _, between, t, u, ht, hu, rfl⟩

theorem exists_reaches (h : ∀ k, ∃ j, k ≤ j ∧ Valid stream j) :
    ∀ n, ∃ k w, Reaches stream times w₀ n k w := by
  intro n
  induction n with
  | zero => exact ⟨0, w₀, .start⟩
  | succ n ih =>
    obtain ⟨k, w, hreach⟩ := ih
    obtain ⟨k', w', hit⟩ := exists_iterates h (times n) k w
    exact ⟨k', w', hreach.iterate hit⟩

end Runs

/-- **A faulty sensor.** The control loop goes on for ever, from any state and at any times, exactly
if the sensor never fails for good: after each reading a valid one is still to come. -/
theorem alive_iff (stream : DhtStream) (times : Nat → TimeEnv) (w₀ : World) :
    Alive stream times w₀ ↔ ∀ k, ∃ j, k ≤ j ∧ Valid stream j := by
  constructor
  · intro h k
    obtain ⟨reads, w, hreach⟩ := h.iterations (k + 1)
    have hle := hreach.le
    cases hreach with
    | iterate before hit =>
      obtain ⟨j, hj, rfl, hvalid⟩ := hit.valid
      exact ⟨j, by omega, hvalid⟩
  · intro h
    refine ⟨fun n k w _ => exists_requestTemperature_iff.2 (h k),
      fun n k w _ between t _ => exists_requestHumidity_iff.2 (h between), exists_reaches h,
      fun k k' v hr => ?_, fun k k' v hr => ?_⟩
    · obtain ⟨j, hj, -, hvalid⟩ := hr.valid
      exact ⟨j, hj, hvalid⟩
    · obtain ⟨j, hj, -, hvalid⟩ := hr.valid
      exact ⟨j, hj, hvalid⟩

/-- With a sensor that never answers, the first iteration after a boot does not get to its end. -/
theorem not_alive_timeout :
    ¬ Alive (fun _ => .timeout) (fun _ => callAt 0) (boot fun _ => none) := by
  intro h
  obtain ⟨k', t, hrequest⟩ := h.temperature 0 0 _ .start
  obtain ⟨j, -, -, hvalid, -⟩ := hrequest.valid
  unfold Valid at hvalid
  cases hvalid

end GreenHouse
