import GreenHouse.Init
import GreenHouse.Update

/-!
# The histories (`Update_Temperature`, `Update_Humidity`)

Each quantity has a history of 288 bytes, newest reading first. A call copies the history into
`dummyHistory`, writes the new reading into slot 0 and copies 287 bytes back, one slot further. Both
quantities share that scratch buffer; a call fills it before it reads it, so what the call before
left there does not matter.

`recent` is what a history is for: the last 288 readings, with zeros for those not yet taken.
`histories_recent` says that every sequence of calls after a boot leaves it in both histories, and
that no copy leaves its arrays.
-/

namespace GreenHouse

open CInt CText

/-! ## The last readings -/

/-- The last `historyDepth` readings as bytes, newest first, on a ground of zeros. -/
def recent (readings : List Int) : Text :=
  (readings.reverse.map byteOf ++ List.replicate historyDepth 0).take historyDepth

theorem length_recent (readings : List Int) : (recent readings).length = historyDepth := by
  unfold recent
  rw [List.length_take, List.length_append, List.length_replicate]
  omega

theorem recent_nil : recent [] = List.replicate historyDepth 0 := by
  apply List.take_of_length_le
  rw [List.reverse_nil, List.map_nil, List.nil_append, List.length_replicate]

/-- A further reading moves the others up by one and drops the oldest. -/
theorem recent_concat (readings : List Int) (v : Int) :
    recent (readings ++ [v]) = byteOf v :: (recent readings).take (historyDepth - 1) := by
  have hdepth : historyDepth = historyDepth - 1 + 1 := rfl
  unfold recent
  rw [List.reverse_append, List.reverse_singleton, List.singleton_append, List.map_cons,
    List.cons_append, List.take_take, Nat.min_eq_left (Nat.sub_le _ _)]
  conv_lhs => rw [hdepth, List.take_succ_cons]
  rfl

theorem byteOf_i8 (v : Int) : byteOf (i8 v) = byteOf v := by
  have hmod : i8 v % 256 = v % 256 := Int.bmod_emod
  unfold byteOf
  rw [hmod]

/-! ## Copies -/

/-- A call `memcpy(&dst[off], src, n)` on the arrays as it finds them. -/
structure Copy where
  dst : Text
  off : Nat
  src : Text
  n : Nat

namespace Copy

def result (c : Copy) : Text := memcpy c.dst c.off c.src c.n

/-- Both arrays have 288 bytes; the bytes read lie in the one, the bytes written in the other. -/
structure InBounds (c : Copy) : Prop where
  dst_length : c.dst.length = historyDepth
  src_length : c.src.length = historyDepth
  reads : c.n ≤ c.src.length
  writes : c.off + c.n ≤ c.dst.length

end Copy

theorem memcpy_whole {dst src : Text} (hdst : dst.length = historyDepth)
    (hsrc : src.length = historyDepth) : memcpy dst 0 src historyDepth = src := by
  unfold memcpy
  rw [List.take_zero, List.nil_append, List.take_of_length_le (by omega),
    List.drop_of_length_le (by omega), List.append_nil]

/-- The history after a call, given that the scratch buffer holds a copy of it. -/
theorem pushHistory_self {history : Text} (h : history.length = historyDepth) (v : Int) :
    pushHistory history history v = byteOf v :: history.take (historyDepth - 1) := by
  cases history with
  | nil => cases h
  | cons b rest =>
    have hdrop : rest.drop (historyDepth - 1) = [] := by
      apply List.drop_of_length_le
      rw [List.length_cons] at h
      omega
    have hoff : 1 + (historyDepth - 1) = historyDepth - 1 + 1 := rfl
    unfold pushHistory memcpy
    rw [List.set_cons_zero, hoff, List.drop_succ_cons, hdrop, List.append_nil]
    rfl

/-! ## The calls -/

/-- A whole call of `Update_Temperature` or of `Update_Humidity`, with the value that the request
for a reading returns. -/
inductive Measurement where
  | temperature (reading : Int)
  | humidity (reading : Int)

namespace Measurement

def run : Measurement → World → World
  | temperature reading, w => updateTemperature reading w
  | humidity reading, w => updateHumidity reading w

/-- The array a call keeps up to date. -/
def history : Measurement → World → Text
  | temperature _, w => w.tempHistory
  | humidity _, w => w.humidityHistory

def reading : Measurement → Int
  | temperature reading => reading
  | humidity reading => reading

/-- The copy out of the history. -/
def save (c : Measurement) (w : World) : Copy := ⟨w.dummyHistory, 0, c.history w, historyDepth⟩

/-- The copy back into the history, after slot 0 has been written. -/
def shift (c : Measurement) (w : World) : Copy :=
  ⟨(c.history w).set 0 (byteOf (i8 c.reading)), 1, (c.save w).result, historyDepth - 1⟩

def temperature? : Measurement → Option Int
  | temperature reading => some reading
  | humidity _ => none

def humidity? : Measurement → Option Int
  | temperature _ => none
  | humidity reading => some reading

/-- A call leaves the results of its two copies, and the history of the other quantity. -/
theorem run_eq (c : Measurement) (w : World) :
    (c.run w).dummyHistory = (c.save w).result ∧ c.history (c.run w) = (c.shift w).result ∧
      match c with
      | temperature _ => (c.run w).humidityHistory = w.humidityHistory
      | humidity _ => (c.run w).tempHistory = w.tempHistory := by
  cases c with
  | temperature reading =>
    simp only [run, history, updateTemperature]
    split <;> exact ⟨rfl, rfl, rfl⟩
  | humidity reading =>
    simp only [run, history, updateHumidity]
    split <;> exact ⟨rfl, rfl, rfl⟩

end Measurement

def measureAll (calls : List Measurement) (w : World) : World := calls.foldl (fun w c => c.run w) w

/-- The temperatures taken by a sequence of calls, in order. -/
def temperatures (calls : List Measurement) : List Int := calls.filterMap Measurement.temperature?

def humidities (calls : List Measurement) : List Int := calls.filterMap Measurement.humidity?

/-! ## The invariant -/

/-- The histories hold the last of the readings `ts` and `hs`. Of the scratch buffer only the size
is known. -/
structure HoldsRecent (ts hs : List Int) (w : World) : Prop where
  temp : w.tempHistory = recent ts
  humidity : w.humidityHistory = recent hs
  dummy : w.dummyHistory.length = historyDepth

namespace HoldsRecent

variable {ts hs : List Int} {w : World}

theorem history (h : HoldsRecent ts hs w) (c : Measurement) :
    c.history w = recent (match c with | .temperature _ => ts | .humidity _ => hs) := by
  cases c with
  | temperature reading => exact h.temp
  | humidity reading => exact h.humidity

theorem length_history (h : HoldsRecent ts hs w) (c : Measurement) :
    (c.history w).length = historyDepth := by
  rw [h.history c, length_recent]

theorem save_result (h : HoldsRecent ts hs w) (c : Measurement) : (c.save w).result = c.history w :=
  memcpy_whole h.dummy (h.length_history c)

theorem shift_result (h : HoldsRecent ts hs w) (c : Measurement) :
    (c.shift w).result = byteOf c.reading :: (c.history w).take (historyDepth - 1) := by
  have hpush := pushHistory_self (h.length_history c) (i8 c.reading)
  rw [byteOf_i8] at hpush
  rw [← hpush]
  unfold Measurement.shift
  rw [h.save_result c]
  rfl

/-- **The step lemma**: a call puts its reading in front of its own history. -/
theorem run (h : HoldsRecent ts hs w) (c : Measurement) :
    HoldsRecent (ts ++ c.temperature?.toList) (hs ++ c.humidity?.toList) (c.run w) := by
  obtain ⟨hdummy, hown, hother⟩ := c.run_eq w
  rw [h.save_result c] at hdummy
  rw [h.shift_result c] at hown
  have hlen : (c.run w).dummyHistory.length = historyDepth := by rw [hdummy, h.length_history c]
  cases c with
  | temperature reading =>
    refine ⟨?_, ?_, hlen⟩
    · show (Measurement.run _ w).tempHistory = recent (ts ++ [reading])
      rw [recent_concat, ← h.temp]
      exact hown
    · show (Measurement.run _ w).humidityHistory = recent (hs ++ [])
      rw [List.append_nil, ← h.humidity]
      exact hother
  | humidity reading =>
    refine ⟨?_, ?_, hlen⟩
    · show (Measurement.run _ w).tempHistory = recent (ts ++ [])
      rw [List.append_nil, ← h.temp]
      exact hother
    · show (Measurement.run _ w).humidityHistory = recent (hs ++ [reading])
      rw [recent_concat, ← h.humidity]
      exact hown

/-- So do the calls of a sequence, one after another. -/
theorem measureAll (h : HoldsRecent ts hs w) (calls : List Measurement) :
    HoldsRecent (ts ++ temperatures calls) (hs ++ humidities calls) (measureAll calls w) := by
  unfold GreenHouse.measureAll temperatures humidities
  induction calls generalizing ts hs w with
  | nil => simpa using h
  | cons c calls ih =>
    have hrest := ih (h.run c)
    rw [List.append_assoc, List.append_assoc] at hrest
    cases c with
    | temperature reading => exact hrest
    | humidity reading => exact hrest

theorem inBounds (h : HoldsRecent ts hs w) (c : Measurement) :
    (c.save w).InBounds ∧ (c.shift w).InBounds := by
  have hhistory := h.length_history c
  have hsaved : (c.save w).result.length = historyDepth := by rw [h.save_result c, hhistory]
  refine ⟨⟨h.dummy, hhistory, hhistory.ge, ?_⟩, ⟨?_, hsaved, ?_, ?_⟩⟩
  · show 0 + historyDepth ≤ w.dummyHistory.length
    rw [h.dummy, Nat.zero_add]
  · exact List.length_set.trans hhistory
  · show historyDepth - 1 ≤ (c.save w).result.length
    omega
  · show 1 + (historyDepth - 1) ≤ ((c.history w).set 0 _).length
    rw [List.length_set, hhistory]
    decide

end HoldsRecent

theorem holdsRecent_boot (flash : Text → Option Int) : HoldsRecent [] [] (boot flash) := by
  have hbare := bare_boot flash
  have htemp := congrArg World.tempHistory hbare
  have hhumidity := congrArg World.humidityHistory hbare
  have hdummy := congrArg World.dummyHistory hbare
  refine ⟨?_, ?_, ?_⟩
  · rw [recent_nil]
    exact htemp
  · rw [recent_nil]
    exact hhumidity
  · exact (congrArg List.length hdummy).trans List.length_replicate

/-- **The histories hold the last 288 readings.** After every sequence of calls from a boot, each
history is made of the readings of its own quantity, and all copies of a next call, whichever it is,
stay inside arrays of 288 bytes. -/
theorem histories_recent (flash : Text → Option Int) (calls : List Measurement) :
    (measureAll calls (boot flash)).tempHistory = recent (temperatures calls) ∧
      (measureAll calls (boot flash)).humidityHistory = recent (humidities calls) ∧
      ∀ next : Measurement, (next.save (measureAll calls (boot flash))).InBounds ∧
        (next.shift (measureAll calls (boot flash))).InBounds := by
  have h := (holdsRecent_boot flash).measureAll calls
  exact ⟨h.temp, h.humidity, h.inBounds⟩

end GreenHouse
