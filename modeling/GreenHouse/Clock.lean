import GreenHouse.Update

/-!
# The local clock between synchronisations (`update_time`)

A synchronisation leaves a base time and the reading of the millisecond counter at which it was
taken (`Synced`). Between synchronisations `update_time` computes seconds, minutes, hours and day
from the base and the elapsed seconds, each by a formula of its own.

The hour is carried from the seconds alone: `(sntpSec + secCount) / 3600` leaves the minutes of the
base out, and the day is copied. So the clock is right exactly as long as no carry out of the
minutes is missed and the day does not change (`updateTime_shows_iff`).
-/

namespace GreenHouse

open CInt

/-- A base time with its fields in range, taken when the counter read `t0`. -/
structure Synced (w : World) (t0 : Int) : Prop where
  valid : w.info.timeIsValid = true
  last : w.mSecLastSNTP = i32 t0
  day : 0 ≤ w.info.sntpDay ∧ w.info.sntpDay < 7
  hour : 0 ≤ w.info.sntpHour ∧ w.info.sntpHour < 24
  min : 0 ≤ w.info.sntpMin ∧ w.info.sntpMin < 60
  sec : 0 ≤ w.info.sntpSec ∧ w.info.sntpSec < 60

def baseSec (i : GreenHouseInfo) : Int := i.sntpHour * 3600 + i.sntpMin * 60 + i.sntpSec

/-- The fields `hour`, `min`, `sec` and `day` show the base time of `i` advanced by `s` seconds. -/
structure ShowsTime (shown i : GreenHouseInfo) (s : Int) : Prop where
  secOfDay : shown.hour * 3600 + shown.min * 60 + shown.sec = (baseSec i + s) % 86400
  day : shown.day = (i.sntpDay + (baseSec i + s) / 86400) % 7

/-- No carry is missed: either the minutes of the base do not overflow into the hour, or the elapsed
seconds carry the hour on their own and the hour has room for it. -/
def CarriesRight (i : GreenHouseInfo) (s : Int) : Prop :=
  i.sntpMin * 60 + i.sntpSec + s < 3600 ∨ (3600 ≤ i.sntpSec + s ∧ i.sntpHour < 23)

/-! ## What a call does between synchronisations -/

section Call

variable {env : TimeEnv} {w : World} {t0 e : Int}

theorem updateTime_of_synced (hs : Synced w t0) (hdue : ¬ ResyncDue env w) :
    updateTime env w = updateTimeClock env w := by
  unfold updateTime
  rw [updateTimeFirst_of_valid hs.valid, updateTimeResync_of_not_due hdue]

/-- The elapsed seconds `update_time` computes are right also where the counter wrapped. -/
theorem elapsed_eq (hs : Synced w t0) (he : 0 ≤ e ∧ e ≤ sntpUpdateIntervalMsec)
    (hnow : env.msecNow = u32 (t0 + e)) :
    (i32 (i32 env.msecNow - w.mSecLastSNTP)).tdiv 1000 = e / 1000 := by
  have hin : InI32 e := by
    unfold sntpUpdateIntervalMsec at he
    unfold InI32
    omega
  have hsub : t0 + e - t0 = e := by omega
  rw [hs.last, hnow, i32_u32, i32_sub_of_emod, hsub, i32_eq hin, Int.tdiv_eq_ediv_of_nonneg he.1]

end Call

/-! ## When the clock is right -/

/-- The four formulas of `update_time` show the base advanced by `s` seconds exactly when no carry
is missed. -/
theorem showsTime_iff {shown i : GreenHouseInfo} {s : Int} (hs : 0 ≤ s ∧ s ≤ 3600)
    (hhour : 0 ≤ i.sntpHour ∧ i.sntpHour < 24) (hmin : 0 ≤ i.sntpMin ∧ i.sntpMin < 60)
    (hsec : 0 ≤ i.sntpSec ∧ i.sntpSec < 60) (hday : 0 ≤ i.sntpDay ∧ i.sntpDay < 7)
    (hsecEq : shown.sec = (i.sntpSec + s).tmod 60)
    (hminEq : shown.min = (i.sntpMin + (i.sntpSec + s).tdiv 60).tmod 60)
    (hhourEq : shown.hour = (i.sntpHour + (i.sntpSec + s).tdiv 3600).tmod 24)
    (hdayEq : shown.day = i.sntpDay) :
    ShowsTime shown i s ↔ CarriesRight i s := by
  -- all operands are nonnegative, so C's division is that of `Int`
  rw [Int.tmod_eq_emod_of_nonneg (by omega)] at hsecEq
  rw [Int.tdiv_eq_ediv_of_nonneg (by omega), Int.tmod_eq_emod_of_nonneg (by omega)]
    at hminEq hhourEq
  have hiff : ShowsTime shown i s ↔
      shown.hour * 3600 + shown.min * 60 + shown.sec = (baseSec i + s) % 86400 ∧
        shown.day = (i.sntpDay + (baseSec i + s) / 86400) % 7 :=
    ⟨fun h => ⟨h.1, h.2⟩, fun h => ⟨h.1, h.2⟩⟩
  rw [hiff]
  unfold CarriesRight baseSec
  constructor
  · rintro ⟨hsod, hd⟩
    omega
  · rintro (hroom | ⟨hcarry, hlast⟩)
    · constructor <;> omega
    · constructor <;> omega

/-- **The local clock between synchronisations.** Up to an hour after a synchronisation, and
without a new one, `update_time` shows the base time advanced by the elapsed seconds exactly when no
carry is missed. -/
theorem updateTime_shows_iff {env : TimeEnv} {w : World} {t0 e : Int} (hs : Synced w t0)
    (he : 0 ≤ e ∧ e ≤ sntpUpdateIntervalMsec) (hdue : ¬ ResyncDue env w)
    (hnow : env.msecNow = u32 (t0 + e)) :
    ShowsTime (updateTime env w).info w.info (e / 1000) ↔ CarriesRight w.info (e / 1000) := by
  have hsecs := elapsed_eq hs he hnow
  have hrange : 0 ≤ e / 1000 ∧ e / 1000 ≤ 3600 := by
    unfold sntpUpdateIntervalMsec at he
    omega
  rw [updateTime_of_synced hs hdue]
  apply showsTime_iff hrange hs.hour hs.min hs.sec hs.day
  · rw [← hsecs]; rfl
  · rw [← hsecs]; rfl
  · rw [← hsecs]; rfl
  · rfl

def syncedAt (day hour min sec t0 : Int) : World :=
  { cleared fun _ => none with
    mSecLastSNTP := i32 t0
    info := { (cleared fun _ => none).info with
      sntpDay := day, sntpHour := hour, sntpMin := min, sntpSec := sec, timeIsValid := true } }

def callAt (t : Int) : TimeEnv where
  first := ⟨fun _ => .reset, 0, 0, 0, 0⟩
  msecFirst := t
  msecTest := t
  resync := ⟨fun _ => .reset, 0, 0, 0, 0⟩
  msecResync := t
  msecNow := t

theorem updateTime_shows_quarter_past :
    ShowsTime (updateTime (callAt 601000) (syncedAt 1 10 5 0 1000)).info
      (syncedAt 1 10 5 0 1000).info (600000 / 1000) :=
  have hs : Synced (syncedAt 1 10 5 0 1000) 1000 :=
    ⟨rfl, rfl, by decide, by decide, by decide, by decide⟩
  (updateTime_shows_iff (e := 600000) hs (by decide) (by decide) (by decide)).2
    (Or.inl (by decide))

/-- One minute after 10:59:30 the clock shows 10:00:30. -/
theorem updateTime_not_shows_at_full_hour :
    Synced (syncedAt 1 10 59 30 1000) 1000 ∧ ¬ ResyncDue (callAt 61000) (syncedAt 1 10 59 30 1000) ∧
      ¬ ShowsTime (updateTime (callAt 61000) (syncedAt 1 10 59 30 1000)).info
        (syncedAt 1 10 59 30 1000).info (60000 / 1000) := by
  refine ⟨⟨rfl, rfl, by decide, by decide, by decide, by decide⟩, by decide, ?_⟩
  rintro ⟨hsod, -⟩
  exact absurd hsod (by decide)

end GreenHouse
