import GreenHouse.Drip.View
import GreenHouse.Lib.Loop
import GreenHouse.Mqtt.Effects

/-!
# The schedule waits for a valid time (`sntp_get_time`, `update_time`, `app_loop`)

`sntp_get_time` polls until a poll is answered or fifteen have failed; `update_time` calls it in its
first block until it has passed once; and `app_loop` calls `update_drip` only then. An iteration is
its list of calls, with messages handled before each of them (`Turn`).
-/

namespace GreenHouse

open CText

/-! ## The wait loop -/

/-- One evaluation of the condition of the wait loop, `sntp_get_sync_status() ==
SNTP_SYNC_STATUS_RESET && ++retry < retry_count`. -/
def sntpStep (poll : Nat → SyncStatus) (retry : Nat) : Nat ⊕ Nat :=
  if poll retry = .reset then
    if retry + 1 < retryCount then .inl (retry + 1) else .inr (retry + 1)
  else .inr retry

theorem sntpWait_ends_of_answered {poll : Nat → SyncStatus} {left retry : Nat}
    (hretry : retry + left + 1 = retryCount) (hpoll : poll retry ≠ .reset) :
    Ends (sntpStep poll) retry 1 (sntpWait poll (left + 1) retry) ∧
      (sntpWait poll (left + 1) retry ≠ retryCount ↔
        ∃ i, retry ≤ i ∧ i < retry + 1 ∧ poll i ≠ .reset) := by
  have hwait : sntpWait poll (left + 1) retry = retry := by
    rw [sntpWait, if_neg hpoll]
  rw [hwait]
  refine ⟨.leave (by unfold sntpStep; rw [if_neg hpoll]), ?_⟩
  exact iff_of_true (by omega) ⟨retry, Nat.le_refl _, Nat.lt_succ_self _, hpoll⟩

/-- From `retry` on, the loop ends at its `n`-th poll, at most the last one, and the counter shows
whether one of these polls was answered. -/
theorem sntpWait_ends (poll : Nat → SyncStatus) (left : Nat) : ∀ retry,
    retry + left + 1 = retryCount → ∃ n ≤ left + 1,
      Ends (sntpStep poll) retry n (sntpWait poll (left + 1) retry) ∧
        (sntpWait poll (left + 1) retry ≠ retryCount ↔
          ∃ i, retry ≤ i ∧ i < retry + n ∧ poll i ≠ .reset) := by
  induction left with
  | zero =>
    intro retry hretry
    refine ⟨1, Nat.le_refl _, ?_⟩
    by_cases hpoll : poll retry = .reset
    · have hlast : ¬ retry + 1 < retryCount := by omega
      have hwait : sntpWait poll 1 retry = retry + 1 := by
        rw [sntpWait, if_pos hpoll, if_neg hlast]
      rw [hwait]
      refine ⟨.leave (by unfold sntpStep; rw [if_pos hpoll, if_neg hlast]), ?_⟩
      refine iff_of_false (fun h => h hretry) ?_
      rintro ⟨i, hlo, hhi, hi⟩
      obtain rfl : i = retry := by omega
      exact hi hpoll
    · exact sntpWait_ends_of_answered hretry hpoll
  | succ left ih =>
    intro retry hretry
    by_cases hpoll : poll retry = .reset
    · have hmore : retry + 1 < retryCount := by omega
      have hwait : sntpWait poll (left + 1 + 1) retry = sntpWait poll (left + 1) (retry + 1) := by
        rw [sntpWait, if_pos hpoll, if_pos hmore]
      obtain ⟨n, hn, hends, hiff⟩ := ih (retry + 1) (by omega)
      refine ⟨n + 1, by omega, ?_⟩
      rw [hwait]
      refine ⟨.again (by unfold sntpStep; rw [if_pos hpoll, if_pos hmore]) hends, ?_⟩
      rw [hiff]
      constructor
      · rintro ⟨i, hlo, hhi, hi⟩
        exact ⟨i, by omega, by omega, hi⟩
      · rintro ⟨i, hlo, hhi, hi⟩
        have hne : i ≠ retry := by
          rintro rfl
          exact hi hpoll
        exact ⟨i, by omega, by omega, hi⟩
    · exact ⟨1, by omega, sntpWait_ends_of_answered hretry hpoll⟩

/-- What a call of `sntp_get_time` that returned `passed` polled: at most fifteen times, and it
passed exactly if one of these polls was answered. -/
def PolledFor (r : SntpReply) (passed : Bool) : Prop :=
  ∃ n ≤ 15, ∃ retry, Ends (sntpStep r.poll) 0 n retry ∧
    (passed = true ↔ ∃ i < n, r.poll i ≠ .reset)

theorem sntpGetTime_polled (r : SntpReply) (w : World) : PolledFor r (sntpGetTime r w).1 := by
  obtain ⟨n, hn, hends, hiff⟩ := sntpWait_ends r.poll 14 0 rfl
  refine ⟨n, hn, _, hends, ?_⟩
  have hpassed : (sntpGetTime r w).1 = true ↔ sntpWait r.poll retryCount 0 ≠ retryCount := by
    unfold sntpGetTime
    dsimp only
    split <;> simp [*]
  exact (hpassed.trans hiff).trans (by simp)

/-! ## Iterations -/

/-- The calls of `app_loop`. -/
inductive Call where
  | temperature
  | humidity
  | time
  | fan
  | drip (num : Fin 3)
  deriving DecidableEq

namespace Call

def exec (env : LoopEnv) : Call → World → World
  | temperature, w => updateTemperature env.temperature w
  | humidity, w => updateHumidity env.humidity w
  | time, w => updateTime env.time w
  | fan, w => updateFan w
  | drip num, w => (updateDrip num w).2

/-- The call `app_loop` makes after a call that left the world `w`. -/
def next (w : World) : Call → Call
  | temperature => humidity
  | humidity => time
  | time => fan
  | fan => if w.info.timeIsValid then drip 0 else temperature
  | drip 0 => drip 1
  | drip 1 => drip 2
  | drip 2 => temperature

/-- A call, with the one that `app_loop` makes after it. -/
def step (env : LoopEnv) (s : Call × World) : Call × World :=
  let w := s.1.exec env s.2
  (s.1.next w, w)

/-- The calls before the test of `timeIsValid`. -/
def measure : List Call := [temperature, humidity, time, fan]

/-- The calls behind it. -/
def drips : List Call := [drip 0, drip 1, drip 2]

end Call

/-- The bodies of branches that messages run, one after another. -/
def hear (messages : List (Branch × Text)) (w : World) : World :=
  messages.foldl (fun w m => (m.1.act m.2 w).1) w

/-- An iteration of `app_loop` with the messages handled before each of its calls. -/
structure Turn where
  env : LoopEnv
  messages : Nat → List (Branch × Text)

namespace Turn

/-- No message comes into the iteration. -/
def quiet (env : LoopEnv) : Turn := ⟨env, fun _ => []⟩

variable (t : Turn)

/-- A row of calls, the first of which is the call number `k` of the iteration. -/
def exec : List Call → Nat → World → World
  | [], _, w => w
  | c :: calls, k, w => exec calls (k + 1) (c.exec t.env (hear (t.messages k) w))

/-- The calls the iteration makes. -/
def made (w : World) : List Call :=
  Call.measure ++ if (t.exec Call.measure 0 w).info.timeIsValid then Call.drips else []

def after (w : World) : World := t.exec (t.made w) 0 w

/-- The row of calls, the first of which is the call number `k`, is the one that `Call.next` gives
from `c` on up to the end of the iteration. -/
def Follows : List Call → Nat → Call → World → Prop
  | [], _, c, _ => c = .temperature
  | c' :: calls, k, c, w =>
    let v := c.exec t.env (hear (t.messages k) w)
    c' = c ∧ Follows calls (k + 1) (c.next v) v

/-- The world `update_time` is called in. -/
def atTime (w : World) : World := hear (t.messages 2) (t.exec [.temperature, .humidity] 0 w)

/-- The result of the call of `sntp_get_time` in the first block of `update_time`, where it is
made. -/
def sync (w : World) : Option Bool :=
  if (t.atTime w).info.timeIsValid = false then some (sntpGetTime t.env.time.first (t.atTime w)).1
  else none

/-- The commands that the messages before the first `n` calls give to drip `k + 1`. -/
def manual (k : Fin 3) (n : Nat) : List Bool :=
  (List.range n).flatMap fun i => (t.messages i).flatMap fun m => m.1.command m.2 k

theorem exec_append (calls calls' : List Call) (k : Nat) (w : World) :
    t.exec (calls ++ calls') k w = t.exec calls' (k + calls.length) (t.exec calls k w) := by
  induction calls generalizing k w with
  | nil => rfl
  | cons c calls ih =>
    rw [List.cons_append, exec, exec, ih, List.length_cons, Nat.add_assoc, Nat.add_comm 1]

end Turn

/-- The calls an iteration makes are those that `Call.next` gives, from the measurement of the
temperature to the next one. -/
theorem follows_made (t : Turn) (w : World) : t.Follows (t.made w) 0 .temperature w := by
  unfold Turn.made
  split
  · next hvalid =>
    have hnext : Call.fan.next (t.exec Call.measure 0 w) = .drip 0 := if_pos hvalid
    refine ⟨rfl, rfl, rfl, rfl, ?_⟩
    show t.Follows Call.drips 4 (Call.fan.next (t.exec Call.measure 0 w)) _
    rw [hnext]
    exact ⟨rfl, rfl, rfl, rfl⟩
  · next hinvalid => exact ⟨rfl, rfl, rfl, rfl, if_neg hinvalid⟩

/-- Without messages an iteration is `app_loop`. -/
theorem after_eq_appLoop (env : LoopEnv) (w : World) :
    (Turn.quiet env).after w = appLoop env w := by
  have hfan : (Turn.quiet env).exec Call.measure 0 w = appLoopFan env w := by
    simp only [Turn.quiet, Call.measure, Turn.exec, Call.exec, hear, List.foldl_nil, appLoopFan]
  unfold Turn.after Turn.made appLoop updateDrips
  rw [Turn.exec_append, hfan]
  split <;> rfl

theorem step_iterate_of_follows {env : LoopEnv} {calls : List Call} {k : Nat} {c : Call} {w : World}
    (h : (Turn.quiet env).Follows calls k c w) :
    (Call.step env)^[calls.length] (c, w) = (.temperature, (Turn.quiet env).exec calls k w) := by
  induction calls generalizing k c w with
  | nil =>
    obtain rfl : c = .temperature := h
    rfl
  | cons c' calls ih =>
    obtain ⟨rfl, hrest⟩ := h
    rw [List.length_cons, Function.iterate_succ_apply]
    exact ih hrest

/-- The calls one after another, each followed by the one that `Call.next` gives, are `app_loop`. -/
theorem step_iterate_eq_appLoop (env : LoopEnv) (w : World) :
    (Call.step env)^[((Turn.quiet env).made w).length] (.temperature, w) =
      (.temperature, appLoop env w) := by
  rw [← after_eq_appLoop]
  exact step_iterate_of_follows (follows_made (.quiet env) w)

/-! ## The validity of the time -/

section Valid

variable (w : World)

theorem timeIsValid_hear (messages : List (Branch × Text)) :
    (hear messages w).info.timeIsValid = w.info.timeIsValid := by
  unfold hear
  induction messages generalizing w with
  | nil => rfl
  | cons m messages ih => rw [List.foldl_cons, ih, Branch.act_timeIsValid]

/-- The first block sets the validity exactly when its call passed; nothing else in `update_time`
touches it. -/
theorem timeIsValid_updateTime (env : TimeEnv) :
    (updateTime env w).info.timeIsValid =
      (w.info.timeIsValid || (sntpGetTime env.first w).1) := by
  show (updateTimeResync env (updateTimeFirst env w)).info.timeIsValid = _
  rw [timeIsValid_updateTimeResync]
  cases hw : w.info.timeIsValid with
  | true =>
    rw [updateTimeFirst_of_valid hw, hw]
    rfl
  | false =>
    rw [updateTimeFirst_of_invalid hw]
    rfl

theorem timeIsValid_updateTemperature (reading : Int) :
    (updateTemperature reading w).info.timeIsValid = w.info.timeIsValid := by
  unfold updateTemperature
  dsimp only
  split <;> rfl

theorem timeIsValid_updateHumidity (reading : Int) :
    (updateHumidity reading w).info.timeIsValid = w.info.timeIsValid := by
  unfold updateHumidity
  dsimp only
  split <;> rfl

theorem timeIsValid_exec_of_ne_time (env : LoopEnv) {c : Call} (hc : c ≠ .time) :
    (c.exec env w).info.timeIsValid = w.info.timeIsValid := by
  cases c with
  | temperature => exact timeIsValid_updateTemperature w env.temperature
  | humidity => exact timeIsValid_updateHumidity w env.humidity
  | time => exact absurd rfl hc
  | fan => exact congrArg GreenHouseInfo.timeIsValid (info_updateFan w)
  | drip num => exact updateDrip_timeIsValid num w

variable (t : Turn)

theorem timeIsValid_exec {calls : List Call} (hcalls : .time ∉ calls) (k : Nat) :
    (t.exec calls k w).info.timeIsValid = w.info.timeIsValid := by
  induction calls generalizing k w with
  | nil => rfl
  | cons c calls ih =>
    obtain ⟨hc, hrest⟩ := not_or.1 (List.mem_cons.not.1 hcalls)
    rw [Turn.exec, ih _ hrest, timeIsValid_exec_of_ne_time _ _ (Ne.symm hc), timeIsValid_hear]

theorem timeIsValid_atTime : (t.atTime w).info.timeIsValid = w.info.timeIsValid := by
  unfold Turn.atTime
  rw [timeIsValid_hear, timeIsValid_exec w t (by decide)]

/-- Behind the first calls of an iteration the time is valid if it was before, or if the
synchronisation of this iteration passed. -/
theorem timeIsValid_measure : (t.exec Call.measure 0 w).info.timeIsValid = true ↔
    w.info.timeIsValid = true ∨ t.sync w = some true := by
  have hsplit : t.exec Call.measure 0 w = t.exec [.fan] 3 (updateTime t.env.time (t.atTime w)) :=
    rfl
  have htime := timeIsValid_atTime w t
  rw [hsplit, timeIsValid_exec _ t (by decide), timeIsValid_updateTime, htime]
  unfold Turn.sync
  rw [htime]
  cases hw : w.info.timeIsValid <;> simp

theorem timeIsValid_after : (t.after w).info.timeIsValid = true ↔
    w.info.timeIsValid = true ∨ t.sync w = some true := by
  unfold Turn.after Turn.made
  rw [Turn.exec_append, timeIsValid_exec, timeIsValid_measure]
  split <;> decide

theorem sync_eq_none_iff : t.sync w = none ↔ w.info.timeIsValid = true := by
  unfold Turn.sync
  rw [timeIsValid_atTime]
  cases w.info.timeIsValid <;> simp

end Valid

/-! ## Valve commands before the time is valid -/

theorem drip_hear (messages : List (Branch × Text)) (w : World) (k : Fin 3) :
    (hear messages w).drip k =
      (messages.flatMap fun m => m.1.command m.2 k).foldl DripView.commanded (w.drip k) := by
  unfold hear
  induction messages generalizing w with
  | nil => rfl
  | cons m messages ih =>
    rw [List.foldl_cons, ih, drip_message, List.flatMap_cons, List.foldl_append]

/-- The calls before the test give no valve command. -/
theorem drip_exec_measure (env : LoopEnv) {c : Call} (hc : c ∈ Call.measure) (w : World)
    (k : Fin 3) : (c.exec env w).drip k = w.drip k := by
  cases c with
  | temperature => exact (keeps_updateTemperature w env.temperature).drip k
  | humidity => exact (keeps_updateHumidity w env.humidity).drip k
  | time => exact (keeps_updateTime w env.time).drip k
  | fan => exact drip_updateFan w k
  | drip num => simp [Call.measure] at hc

theorem drip_measure (t : Turn) (w : World) (k : Fin 3) :
    (t.exec Call.measure 0 w).drip k =
      (t.manual k 4).foldl DripView.commanded (w.drip k) := by
  have hstep : ∀ c ∈ Call.measure, ∀ n v, (c.exec t.env (hear (t.messages n) v)).drip k =
      ((t.messages n).flatMap fun m => m.1.command m.2 k).foldl DripView.commanded (v.drip k) :=
    fun c hc n v => (drip_exec_measure t.env hc _ k).trans (drip_hear _ _ _)
  show (Call.fan.exec t.env (hear (t.messages 3) _)).drip k = _
  rw [hstep _ (by decide), hstep .time (by decide), hstep .humidity (by decide),
    hstep .temperature (by decide)]
  simp only [Turn.manual, List.range, List.range.loop, List.flatMap_cons, List.flatMap_nil,
    List.foldl_append, List.append_nil]

/-! ## Runs -/

/-- What an iteration shows: the calls it made, and the result of the synchronisation in the first
block of `update_time`, where there was one. -/
structure TurnOut where
  turn : Turn
  before : World
  after : World
  made : List Call
  sync : Option Bool

def turns : Mealy World Turn TurnOut where
  step w t := (t.after w, ⟨t, w, t.after w, t.made w, t.sync w⟩)

/-- A synchronisation passed in one of the iterations. -/
def Passed (os : List TurnOut) : Prop := ∃ o ∈ os, o.sync = some true

/-- What an iteration does, where `passed` says that a synchronisation has passed by then. -/
structure TurnOut.Gated (o : TurnOut) (passed : Prop) : Prop where
  polled : ∀ b, o.sync = some b → PolledFor o.turn.env.time.first b
  valid : o.after.info.timeIsValid = true ↔ passed
  kept : o.before.info.timeIsValid = true → o.after.info.timeIsValid = true
  becomes : o.before.info.timeIsValid = false → o.after.info.timeIsValid = true →
    o.sync = some true
  drips : ∀ num, .drip num ∈ o.made ↔ passed
  retries : ¬ passed → o.sync = some false
  quiet : ¬ passed → ∀ k,
    (o.after.drip k).commands = (o.before.drip k).commands ++ o.turn.manual k 4

section Step

variable (w : World) (t : Turn)

theorem polled_sync {b : Bool} (h : t.sync w = some b) : PolledFor t.env.time.first b := by
  unfold Turn.sync at h
  split at h
  · obtain rfl := Option.some.inj h
    exact sntpGetTime_polled _ _
  · cases h

/-- All three calls of `update_drip` are made, or none. -/
theorem drip_mem_made_iff (num : Fin 3) :
    .drip num ∈ t.made w ↔ w.info.timeIsValid = true ∨ t.sync w = some true := by
  have hall : ∀ num, Call.drip num ∈ Call.measure ++ Call.drips := by decide
  have hnone : ∀ num, Call.drip num ∉ Call.measure ++ [] := by decide
  rw [← timeIsValid_measure]
  unfold Turn.made
  split
  · next h => exact iff_of_true (hall num) h
  · next h => exact iff_of_false (hnone num) h

variable {w t} (h : ¬ (w.info.timeIsValid = true ∨ t.sync w = some true))

include h

theorem sync_of_not_passed : t.sync w = some false := by
  obtain ⟨hinvalid, hfailed⟩ := not_or.1 h
  have hsome := (sync_eq_none_iff w t).not.2 hinvalid
  cases hs : t.sync w with
  | none => exact absurd hs hsome
  | some b =>
    cases b with
    | true => exact absurd hs hfailed
    | false => rfl

theorem commands_of_not_passed (k : Fin 3) :
    ((t.after w).drip k).commands = (w.drip k).commands ++ t.manual k 4 := by
  have hmade : t.after w = t.exec Call.measure 0 w := by
    unfold Turn.after Turn.made
    rw [if_neg ((timeIsValid_measure w t).not.2 h), List.append_nil]
  rw [hmade, drip_measure, DripView.commands_foldl]

end Step

/-- **The step lemma.** -/
theorem gated_step (w : World) (t : Turn) :
    (turns.step w t).2.Gated (w.info.timeIsValid = true ∨ t.sync w = some true) where
  polled := fun _ hb => polled_sync w t hb
  valid := timeIsValid_after w t
  kept := fun h => (timeIsValid_after w t).2 (Or.inl h)
  becomes := by
    intro hbefore hafter
    rcases (timeIsValid_after w t).1 hafter with h | h
    · exact absurd (hbefore.symm.trans h) (by decide)
    · exact h
  drips := drip_mem_made_iff w t
  retries := sync_of_not_passed
  quiet := commands_of_not_passed

theorem gated_run (ts : List Turn) : ∀ (w : World) (pre : List TurnOut) (o : TurnOut)
    (post : List TurnOut), turns.run w ts = pre ++ o :: post →
      o.Gated (w.info.timeIsValid = true ∨ Passed (pre ++ [o])) := by
  induction ts with
  | nil =>
    intro w pre o post h
    simp at h
  | cons t ts ih =>
    intro w pre o post h
    rw [Mealy.run_cons] at h
    cases pre with
    | nil =>
      obtain ⟨rfl, -⟩ := List.cons.inj h
      have hone : Passed ([] ++ [(turns.step w t).2]) ↔ t.sync w = some true := by
        simp [Passed, turns]
      rw [hone]
      exact gated_step w t
    | cons first pre =>
      obtain ⟨rfl, hrest⟩ := List.cons.inj h
      have hlater := ih _ pre o post hrest
      have hpassed : (turns.step w t).1.info.timeIsValid = true ∨ Passed (pre ++ [o]) ↔
          w.info.timeIsValid = true ∨ Passed ((turns.step w t).2 :: pre ++ [o]) := by
        rw [show (turns.step w t).1 = t.after w from rfl, timeIsValid_after, or_assoc]
        simp [Passed, turns]
      rw [← hpassed]
      exact hlater

/-- **The schedule waits for a valid time.** Every call of `sntp_get_time` ends after at most
fifteen polls and passes exactly if one of them is answered. In every run from a boot and for every
stream of polls: the time becomes valid by such a call in the first block of `update_time` only, and
stays valid; and an iteration calls `update_drip` exactly if such a call has passed by then. Until
then every iteration synchronises again, and the valve commands are those of messages. -/
theorem turns_gated (flash : Text → Option Int) (ts : List Turn) (pre : List TurnOut)
    (o : TurnOut) (post : List TurnOut) (h : turns.run (boot flash) ts = pre ++ o :: post) :
    (∀ (r : SntpReply) (w : World), PolledFor r (sntpGetTime r w).1) ∧
      o.Gated (Passed (pre ++ [o])) := by
  have hgated := gated_run ts (boot flash) pre o post h
  have hboot : (boot flash).info.timeIsValid = true ∨ Passed (pre ++ [o]) ↔
      Passed (pre ++ [o]) := by
    rw [timeIsValid_boot]
    simp
  rw [hboot] at hgated
  exact ⟨sntpGetTime_polled, hgated⟩

/-- The state behind iterations without messages. -/
theorem after_quiet (envs : List LoopEnv) (w : World) :
    turns.after w (envs.map .quiet) = envs.foldl (fun w env => appLoop env w) w := by
  induction envs generalizing w with
  | nil => rfl
  | cons env envs ih =>
    rw [List.map_cons, Mealy.after_cons, List.foldl_cons, ← after_eq_appLoop]
    exact ih _

/-- **The loop alone**: iterations of `app_loop` into which no message comes. Behind each of them
the time is valid exactly if a synchronisation of its own or of one before has passed; up to then it
synchronises again and commands no valve. -/
theorem appLoop_gated (flash : Text → Option Int) (envs : List LoopEnv) (env : LoopEnv) :
    let w := envs.foldl (fun w env => appLoop env w) (boot flash)
    let passed := Passed (turns.run (boot flash) ((envs ++ [env]).map .quiet))
    ((appLoop env w).info.timeIsValid = true ↔ passed) ∧
      (¬ passed → (Turn.quiet env).sync w = some false ∧
        ∀ k, ((appLoop env w).drip k).commands = (w.drip k).commands) := by
  intro w passed
  have hrun : turns.run (boot flash) ((envs ++ [env]).map .quiet) =
      turns.run (boot flash) (envs.map .quiet) ++ [(turns.step w (.quiet env)).2] := by
    rw [List.map_append, Mealy.run_append, after_quiet]
    rfl
  have hgated := gated_run _ (boot flash) _ _ [] hrun
  rw [← hrun, timeIsValid_boot] at hgated
  have hpassed : (false = true ∨ passed) ↔ passed := by simp
  rw [hpassed] at hgated
  have hafter : (turns.step w (.quiet env)).2.after = appLoop env w := after_eq_appLoop env w
  refine ⟨hafter ▸ hgated.valid, fun h => ⟨hgated.retries h, fun k => ?_⟩⟩
  have hquiet := hgated.quiet h k
  rw [hafter] at hquiet
  exact hquiet.trans (List.append_nil _)

/-- An iteration whose synchronisation is answered at the last poll. -/
def lastPoll : Turn where
  env := ⟨70, 40, ⟨⟨fun n => if n = 14 then .completed else .reset, 0, 30, 6, 1⟩, 1000, 1000,
    ⟨fun _ => .reset, 0, 0, 0, 0⟩, 0, 1000⟩⟩
  messages := fun _ => []

theorem turns_gated_last_poll :
    turns.run (boot fun _ => none) [lastPoll] =
        [] ++ (turns.step (boot fun _ => none) lastPoll).2 :: [] ∧
      (turns.step (boot fun _ => none) lastPoll).2.Gated
        (Passed ([] ++ [(turns.step (boot fun _ => none) lastPoll).2])) :=
  ⟨rfl, (turns_gated _ [lastPoll] [] _ [] rfl).2⟩

end GreenHouse
