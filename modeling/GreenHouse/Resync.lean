import GreenHouse.Clock
import GreenHouse.Lib.Mealy

/-!
# Resynchronisation and the wrap-around of the counter (`update_time`)

The second block of `update_time` compares two readings modulo `2 ^ 32`: the counter now, and the
counter at the last synchronisation plus an hour. Real time orders them only if both or none of the
two have wrapped (`Unwrapped`). The elapsed milliseconds behind it are a difference and survive a
wrap.

Times are real milliseconds here; the code sees them modulo `2 ^ 32`.
-/

namespace GreenHouse

open CInt

/-- The elapsed seconds the clock is computed from. -/
def secCount (env : TimeEnv) (w : World) : Int :=
  (i32 (i32 env.msecNow - w.mSecLastSNTP)).tdiv 1000

/-! ## Calls in real time -/

/-- What one call of `update_time` meets: the milliseconds from the test of its second block to the
reading after a resynchronisation, from there to the reading for the clock, and from there to the
test of the next call. Two calls are less than `2 ^ 30` ms apart. -/
structure Lap where
  toBase : Nat
  toClock : Nat
  toNext : Nat
  reply : SntpReply
  short : toBase + toClock + toNext < 2 ^ 30

/-- The world with the time of the last synchronisation and the time of the next test. -/
structure Timed where
  world : World
  base : Int
  now : Int

/-- What the call reads of the counter. -/
def Timed.env (s : Timed) (lap : Lap) : TimeEnv where
  first := lap.reply
  msecFirst := u32 s.now
  msecTest := u32 s.now
  resync := lap.reply
  msecResync := u32 (s.now + lap.toBase)
  msecNow := u32 (s.now + lap.toBase + lap.toClock)

/-- Whether the second block synchronised, the milliseconds since the last synchronisation at its
test, and the seconds the clock was computed from. -/
structure LapOut where
  resynced : Bool
  elapsed : Int
  secCount : Int
  deriving DecidableEq

def timedCalls : Mealy Timed Lap LapOut where
  step s lap :=
    let w := updateTimeFirst (s.env lap) s.world
    let due := decide (ResyncDue (s.env lap) w)
    ({ world := updateTime (s.env lap) s.world
       base := if due then s.now + lap.toBase else s.base
       now := s.now + lap.toBase + lap.toClock + lap.toNext },
      { resynced := due
        elapsed := s.now - s.base
        secCount := GreenHouse.secCount (s.env lap) (updateTimeResync (s.env lap) w) })

/-- The block synchronises exactly when more than the interval has elapsed, and the elapsed seconds
are not negative. -/
def LapOut.Right (o : LapOut) : Prop :=
  (o.resynced = true ↔ o.elapsed > sntpUpdateIntervalMsec) ∧ 0 ≤ o.secCount

/-- Of the end of the interval and the time of the test, both or none lie behind the next wrap of
the counter. -/
def Unwrapped (s : Timed) (_ : Lap) : Prop :=
  u32 s.base + sntpUpdateIntervalMsec < 2 ^ 32 ↔ u32 s.base + (s.now - s.base) < 2 ^ 32

instance (o : LapOut) : Decidable o.Right := inferInstanceAs (Decidable (_ ∧ _))

instance (s : Timed) (lap : Lap) : Decidable (Unwrapped s lap) :=
  inferInstanceAs (Decidable (_ ↔ _))

/-! ## One call -/

/-- A valid time, a base that is a reading of the counter, and a test less than `2 ^ 31` ms behind
it. -/
structure Timed.Inv (s : Timed) : Prop where
  valid : s.world.info.timeIsValid = true
  last : s.world.mSecLastSNTP = i32 s.base
  elapsed : 0 ≤ s.now - s.base ∧ s.now - s.base < 2 ^ 31

section Call

variable {s : Timed} (h : s.Inv) (lap : Lap)

include h

/-- The test, on the readings it makes. -/
theorem resyncDue_of_inv : ResyncDue (s.env lap) s.world ↔
    u32 (s.base + sntpUpdateIntervalMsec) < u32 s.now := by
  unfold ResyncDue
  rw [h.last, i32_add_i32, u32_i32]
  show u32 (u32 s.now) > _ ↔ _
  rw [u32_u32]

/-- The test follows real time exactly when both sides have wrapped or none has. -/
theorem due_iff_unwrapped :
    (ResyncDue (s.env lap) s.world ↔ s.now - s.base > sntpUpdateIntervalMsec) ↔
      Unwrapped s lap := by
  have he := h.elapsed
  rw [resyncDue_of_inv h lap]
  unfold Unwrapped u32 sntpUpdateIntervalMsec
  omega

end Call

/-- The difference of two readings is the elapsed time, wrapped or not. -/
theorem secCount_nonneg {env : TimeEnv} {w : World} {base t : Int}
    (hlast : w.mSecLastSNTP = i32 base) (hnow : env.msecNow = u32 t)
    (ht : 0 ≤ t - base ∧ t - base < 2 ^ 31) : 0 ≤ secCount env w := by
  have hsub : i32 (i32 env.msecNow - w.mSecLastSNTP) = t - base := by
    rw [hnow, hlast, i32_u32, i32_sub_of_emod]
    exact i32_eq (by unfold InI32; omega)
  unfold secCount
  rw [hsub]
  exact Int.tdiv_nonneg ht.1 (by decide)

/-- The base after a call is the time of the reading that was stored. -/
theorem mSecLastSNTP_updateTimeResync (env : TimeEnv) (w : World) :
    (updateTimeResync env w).mSecLastSNTP =
      if ResyncDue env w then i32 env.msecResync else w.mSecLastSNTP := by
  by_cases h : ResyncDue env w
  · rw [updateTimeResync_of_due h, if_pos h]
    rfl
  · rw [updateTimeResync_of_not_due h, if_neg h]

/-! ## Runs -/

section Step

variable {s : Timed} (h : s.Inv) (lap : Lap)

include h

theorem resynced_step : (timedCalls.step s lap).2.resynced = true ↔
    ResyncDue (s.env lap) s.world := by
  show decide (ResyncDue _ (updateTimeFirst _ _)) = true ↔ _
  rw [updateTimeFirst_of_valid h.valid, decide_eq_true_iff]

theorem base_step : (timedCalls.step s lap).1.base =
    if ResyncDue (s.env lap) s.world then s.now + lap.toBase else s.base := by
  show (if decide (ResyncDue _ (updateTimeFirst _ _)) = true then _ else _) = _
  rw [updateTimeFirst_of_valid h.valid]
  simp only [decide_eq_true_eq]

/-- What is stored for the base is its reading. -/
theorem last_step : (updateTimeResync (s.env lap) s.world).mSecLastSNTP =
    i32 (timedCalls.step s lap).1.base := by
  rw [mSecLastSNTP_updateTimeResync, base_step h, h.last]
  split
  · exact i32_u32 _
  · rfl

/-- If the test is right, the base is less than `2 ^ 31` ms old at every later reading up to the
test of the next call. -/
theorem age_step (hu : Unwrapped s lap) {d : Int} (hlo : lap.toBase ≤ d)
    (hhi : d ≤ lap.toBase + lap.toClock + lap.toNext) :
    0 ≤ s.now + d - (timedCalls.step s lap).1.base ∧
      s.now + d - (timedCalls.step s lap).1.base < 2 ^ 31 := by
  have hdue := (due_iff_unwrapped h lap).2 hu
  have he := h.elapsed
  have hshort := lap.short
  rw [base_step h]
  unfold sntpUpdateIntervalMsec at hdue
  split
  · omega
  · next hnot =>
    have := hdue.not.1 hnot
    omega

theorem inv_step (hu : Unwrapped s lap) : (timedCalls.step s lap).1.Inv where
  valid := by
    show (updateTimeResync _ (updateTimeFirst _ s.world)).info.timeIsValid = true
    rw [timeIsValid_updateTimeResync, updateTimeFirst_of_valid h.valid, h.valid]
  last := by
    show (updateTimeResync _ (updateTimeFirst _ s.world)).mSecLastSNTP = _
    rw [updateTimeFirst_of_valid h.valid, last_step h]
  elapsed := by
    have hage := age_step h lap hu (d := lap.toBase + lap.toClock + lap.toNext) (by omega)
      (by omega)
    have hnow : (timedCalls.step s lap).1.now =
        s.now + (lap.toBase + lap.toClock + lap.toNext) := by
      show s.now + lap.toBase + lap.toClock + lap.toNext = _
      omega
    rw [hnow]
    exact hage

/-- **The step lemma**: a call is right exactly when both sides of its test have wrapped or
none has. -/
theorem right_iff_unwrapped : (timedCalls.step s lap).2.Right ↔ Unwrapped s lap := by
  have htest : ((timedCalls.step s lap).2.resynced = true ↔
      (timedCalls.step s lap).2.elapsed > sntpUpdateIntervalMsec) ↔ Unwrapped s lap := by
    rw [resynced_step h, ← due_iff_unwrapped h lap]
    rfl
  constructor
  · intro hr
    exact htest.1 hr.1
  · intro hu
    refine ⟨htest.2 hu, ?_⟩
    have hage := age_step h lap hu (d := lap.toBase + lap.toClock) (by omega) (by omega)
    show 0 ≤ secCount _ (updateTimeResync _ (updateTimeFirst _ s.world))
    rw [updateTimeFirst_of_valid h.valid]
    refine secCount_nonneg (t := s.now + (lap.toBase + lap.toClock)) (last_step h lap) ?_ hage
    show u32 (s.now + lap.toBase + lap.toClock) = _
    rw [Int.add_assoc]

end Step

/-- **Resynchronisation.** From every synchronisation and every test less than `2 ^ 31` ms behind
it, in every run whose calls are less than `2 ^ 30` ms apart: all tests follow real time and all
elapsed seconds are nonnegative exactly when at every test both or none of the end of the interval
and the time of the test lie behind the next wrap of the counter. -/
theorem timedCalls_right_iff (w : World) (base elapsed : Int) (laps : List Lap)
    (hvalid : w.info.timeIsValid = true) (hlast : w.mSecLastSNTP = i32 base)
    (he : 0 ≤ elapsed ∧ elapsed < 2 ^ 31) :
    (∀ o ∈ timedCalls.run ⟨w, base, base + elapsed⟩ laps, o.Right) ↔
      timedCalls.Along Unwrapped ⟨w, base, base + elapsed⟩ laps := by
  have hinv : Timed.Inv ⟨w, base, base + elapsed⟩ :=
    ⟨hvalid, hlast, by
      show 0 ≤ base + elapsed - base ∧ base + elapsed - base < 2 ^ 31
      omega⟩
  exact Mealy.forall_run_iff (I := Timed.Inv) (fun s lap hs hu => inv_step hs lap hu)
    (fun s lap hs => right_iff_unwrapped hs lap) hinv

/-- Five seconds from one test to the next. -/
def fiveSeconds : Lap :=
  ⟨0, 0, 5000, ⟨fun _ => .completed, 0, 5, 11, 1⟩, by decide⟩

/-- The counter wraps between a synchronisation and two later tests, the second of which is due. -/
theorem timedCalls_right_over_wrap :
    timedCalls.Along Unwrapped ⟨syncedAt 1 10 5 0 4294960000, 4294960000, 4294960000 + 3595010⟩
        [fiveSeconds, fiveSeconds] ∧
      ∀ o ∈ timedCalls.run ⟨syncedAt 1 10 5 0 4294960000, 4294960000, 4294960000 + 3595010⟩
        [fiveSeconds, fiveSeconds], o.Right := by
  have h : timedCalls.Along Unwrapped
      ⟨syncedAt 1 10 5 0 4294960000, 4294960000, 4294960000 + 3595010⟩
      [fiveSeconds, fiveSeconds] := by decide
  exact ⟨h, (timedCalls_right_iff _ 4294960000 3595010 _ rfl rfl (by decide)).2 h⟩

/-- The interval ends 6 ms before the wrap, and the first test behind it reads a wrapped counter:
3600.01 seconds have elapsed and nothing is synchronised. -/
theorem timedCalls_not_right :
    (syncedAt 1 10 5 0 4291367290).info.timeIsValid = true ∧
      (syncedAt 1 10 5 0 4291367290).mSecLastSNTP = i32 4291367290 ∧
      ¬ ∀ o ∈ timedCalls.run ⟨syncedAt 1 10 5 0 4291367290, 4291367290, 4291367290 + 3600010⟩
        [fiveSeconds], o.Right := by
  decide

end GreenHouse
