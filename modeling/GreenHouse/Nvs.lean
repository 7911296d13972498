import GreenHouse.Init
import GreenHouse.Lib.Mealy
import Mathlib.Data.List.Perm.Basic

/-!
# Handles of the flash driver (`nvs.c`)

`NVS_Write`, `NVS_Read` and `NVS_Erase` open a handle of the driver, use it and close it. Here they
are modelled on the driver itself (`nvs_api.cpp`): its list of open handles, the entries of the
namespace `storage`, and answers that may fail at every call. `read_eq_nvsRead` and `storage_write`
say that with a driver that works they are the `nvsRead` and `nvsWrite` of the other modules.

Two paths lose track of the handle. `NVS_Read` returns without closing it when the key cannot be
read, and after a failed `nvs_open` the two others go on with whatever the local variable holds.
`nvs_balanced_iff` says that these are the only ones. A boot leaks one handle for each setting that
is not in flash (`length_handles_initCalls`).
-/

namespace GreenHouse

open CText

/-- `nvs_handle_t`. -/
abbrev NvsHandle := UInt32

/-- The lines the three functions log. -/
inductive NvsLog where
  | openError
  | writeError
  | commitError
  | wrote (key : Text) (val : Int)
  | readError
  | eraseError
  deriving DecidableEq

structure Nvs where
  -- `s_nvs_handles`
  handles : List NvsHandle
  -- the entries of the namespace `storage`
  storage : Text → Option Int
  -- for each get, set, commit, erase and close of a call: whether its handle was open
  uses : List Bool
  log : List NvsLog

/-- How the driver answers the calls that one of the three functions makes. -/
structure Answers where
  -- the handle of a successful `nvs_open`, whatever number the driver gives it
  opened : Option NvsHandle
  -- what the uninitialised local `nvs_handle` holds; a failed `nvs_open` does not write it
  stray : NvsHandle
  -- whether the other calls succeed where the handle is open and the key is there
  get : Bool
  set : Bool
  commit : Bool
  erase : Bool

namespace Nvs

/-! ## The driver (`nvs_api.cpp`) -/

section Driver

variable (h : NvsHandle) (key : Text) (s : Nvs)

def use : Nvs := { s with uses := s.uses ++ [decide (h ∈ s.handles)] }

def report (line : NvsLog) : Nvs := { s with log := s.log ++ [line] }

/-- A call with its error handling where that is a log line: control falls through. -/
def orReport (line : NvsLog) (r : Bool × Nvs) : Nvs := if r.1 then r.2 else r.2.report line

def nvsOpen (answer : Option NvsHandle) : Bool × Nvs :=
  (answer.isSome, { s with handles := s.handles ++ answer.toList })

/-- The value, or `none` for an error, in which case the target is not written. -/
def nvsGetI32 (ok : Bool) : Option Int × Nvs :=
  (if ok = true ∧ h ∈ s.handles then s.storage key else none, s.use h)

def nvsSetI32 (ok : Bool) (val : Int) : Bool × Nvs :=
  if ok = true ∧ h ∈ s.handles then
    (true, { s.use h with storage := Function.update s.storage key (some val) })
  else (false, s.use h)

def nvsCommit (ok : Bool) : Bool × Nvs := (decide (ok = true ∧ h ∈ s.handles), s.use h)

def nvsEraseKey (ok : Bool) : Bool × Nvs :=
  if ok = true ∧ h ∈ s.handles ∧ s.storage key ≠ none then
    (true, { s.use h with storage := Function.update s.storage key none })
  else (false, s.use h)

/-- The first entry with the handle is removed, if there is one. -/
def nvsClose : Nvs := { s.use h with handles := s.handles.erase h }

end Driver

/-! ## The three functions -/

/-- `NVS_Write`. -/
def write (a : Answers) (key : Text) (val : Int) (s : Nvs) : Nvs :=
  let handle := a.opened.getD a.stray
  let s := orReport .openError (s.nvsOpen a.opened)
  let s := orReport .writeError (s.nvsSetI32 handle key a.set val)
  let r := s.nvsCommit handle a.commit
  let s := r.2.report (if r.1 then .wrote key val else .commitError)
  s.nvsClose handle

/-- `NVS_Read` with `val` in its target: whether it returns `ESP_OK`, and the target afterwards. -/
def read (a : Answers) (key : Text) (val : Int) (s : Nvs) : (Bool × Int) × Nvs :=
  match a.opened with
  | none => ((false, val), s.report .openError)
  | some handle =>
    match (s.nvsOpen (some handle)).2.nvsGetI32 handle key a.get with
    | (none, s) => ((false, val), s.report .readError)
    | (some v, s) => ((true, v), s.nvsClose handle)

/-- `NVS_Erase`. -/
def erase (a : Answers) (key : Text) (s : Nvs) : Nvs :=
  let handle := a.opened.getD a.stray
  let s := orReport .openError (s.nvsOpen a.opened)
  let s := orReport .eraseError (s.nvsEraseKey handle key a.erase)
  s.nvsClose handle

/-! ## What they do with the handles -/

section Handles

variable (h : NvsHandle) (key : Text) (s : Nvs)

@[simp] theorem handles_use : (s.use h).handles = s.handles := rfl

@[simp] theorem uses_use : (s.use h).uses = s.uses ++ [decide (h ∈ s.handles)] := rfl

@[simp] theorem handles_report (line : NvsLog) : (s.report line).handles = s.handles := rfl

@[simp] theorem uses_report (line : NvsLog) : (s.report line).uses = s.uses := rfl

@[simp] theorem handles_orReport (line : NvsLog) (r : Bool × Nvs) :
    (orReport line r).handles = r.2.handles := by
  unfold orReport
  split <;> rfl

@[simp] theorem uses_orReport (line : NvsLog) (r : Bool × Nvs) :
    (orReport line r).uses = r.2.uses := by
  unfold orReport
  split <;> rfl

@[simp] theorem storage_orReport (line : NvsLog) (r : Bool × Nvs) :
    (orReport line r).storage = r.2.storage := by
  unfold orReport
  split <;> rfl

@[simp] theorem handles_nvsSetI32 (ok : Bool) (val : Int) :
    (s.nvsSetI32 h key ok val).2.handles = s.handles := by
  unfold nvsSetI32
  split <;> rfl

@[simp] theorem uses_nvsSetI32 (ok : Bool) (val : Int) :
    (s.nvsSetI32 h key ok val).2.uses = s.uses ++ [decide (h ∈ s.handles)] := by
  unfold nvsSetI32
  split <;> rfl

@[simp] theorem handles_nvsEraseKey (ok : Bool) :
    (s.nvsEraseKey h key ok).2.handles = s.handles := by
  unfold nvsEraseKey
  split <;> rfl

@[simp] theorem uses_nvsEraseKey (ok : Bool) :
    (s.nvsEraseKey h key ok).2.uses = s.uses ++ [decide (h ∈ s.handles)] := by
  unfold nvsEraseKey
  split <;> rfl

end Handles

/-- What a function that falls through to its `nvs_close` does with the handles: they gain what
`nvs_open` returned and lose what the local variable holds, and all uses are of the latter. -/
structure FallsThrough (a : Answers) (s s' : Nvs) : Prop where
  handles : s'.handles = (s.handles ++ a.opened.toList).erase (a.opened.getD a.stray)
  uses : (∀ ok ∈ s'.uses, ok = true) ↔
    (∀ ok ∈ s.uses, ok = true) ∧ a.opened.getD a.stray ∈ s.handles ++ a.opened.toList

theorem fallsThrough_write (a : Answers) (key : Text) (val : Int) (s : Nvs) :
    FallsThrough a s (write a key val s) := by
  unfold write
  dsimp only
  refine ⟨?_, ?_⟩
  · simp [nvsClose, nvsCommit, nvsOpen]
  · simp [nvsClose, nvsCommit, nvsOpen, or_imp, forall_and]

theorem fallsThrough_erase (a : Answers) (key : Text) (s : Nvs) :
    FallsThrough a s (erase a key s) := by
  unfold erase
  dsimp only
  refine ⟨?_, ?_⟩
  · simp [nvsClose, nvsOpen]
  · simp [nvsClose, nvsOpen, or_imp, forall_and]

/-- What `nvs_get_i32` yields on an open handle. -/
def found (a : Answers) (key : Text) (s : Nvs) : Option Int :=
  if a.get then s.storage key else none

section Read

variable {a : Answers} {key : Text} {s : Nvs} (val : Int)

theorem read_of_not_opened (h : a.opened = none) :
    read a key val s = ((false, val), s.report .openError) := by
  unfold read
  rw [h]

theorem nvsGetI32_opened (h : NvsHandle) :
    (s.nvsOpen (some h)).2.nvsGetI32 h key a.get =
      (found a key s, (s.nvsOpen (some h)).2.use h) := by
  have hmem : h ∈ s.handles ++ [h] := List.mem_append_right _ List.mem_cons_self
  unfold nvsGetI32 nvsOpen found
  simp [hmem]

/-- The handle stays open. -/
theorem read_of_not_found {h : NvsHandle} (hopen : a.opened = some h)
    (hfound : found a key s = none) :
    read a key val s =
      ((false, val), ((s.nvsOpen (some h)).2.use h).report .readError) := by
  unfold read
  rw [hopen]
  dsimp only
  rw [nvsGetI32_opened, hfound]

theorem read_of_found {h : NvsHandle} {v : Int} (hopen : a.opened = some h)
    (hfound : found a key s = some v) :
    read a key val s = ((true, v), ((s.nvsOpen (some h)).2.use h).nvsClose h) := by
  unfold read
  rw [hopen]
  dsimp only
  rw [nvsGetI32_opened, hfound]

end Read

/-! ## With a driver that works -/

section Works

variable {a : Answers} {s : Nvs} {w : World} (hopen : a.opened ≠ none)
  (hflash : s.storage = w.flash) (key : Text) (val : Int)

include hopen hflash

/-- `NVS_Read` is the lookup in flash. -/
theorem read_eq_nvsRead (hget : a.get = true) :
    (read a key val s).1 = ((nvsRead key w).isSome, (nvsRead key w).getD val) := by
  obtain ⟨h, hopen⟩ := Option.ne_none_iff_exists'.1 hopen
  have hfound : found a key s = nvsRead key w := by
    unfold found nvsRead
    rw [if_pos hget, hflash]
  cases hkey : nvsRead key w with
  | none => rw [read_of_not_found val hopen (hfound.trans hkey)]; rfl
  | some v => rw [read_of_found val hopen (hfound.trans hkey)]; rfl

/-- `NVS_Write` is the update of flash. -/
theorem storage_write (hset : a.set = true) :
    (write a key val s).storage = (nvsWrite key val w).flash := by
  obtain ⟨h, hopen⟩ := Option.ne_none_iff_exists'.1 hopen
  have hmem : h ∈ s.handles ++ [h] := List.mem_append_right _ List.mem_cons_self
  have hclose : (write a key val s).storage = (orReport .writeError
      ((orReport .openError (s.nvsOpen (some h))).nvsSetI32 h key a.set val)).storage := by
    unfold write
    rw [hopen]
    rfl
  rw [hclose, storage_orReport, nvsSetI32, handles_orReport, if_pos ⟨hset, hmem⟩]
  show Function.update (orReport _ _).storage key _ = Function.update w.flash key _
  rw [storage_orReport, ← hflash]
  rfl

end Works

end Nvs

/-! ## Balance -/

/-- A call of one of the three functions. For a read, `val` is what its target holds before. -/
inductive NvsCall where
  | write (a : Answers) (key : Text) (val : Int)
  | read (a : Answers) (key : Text) (val : Int)
  | erase (a : Answers) (key : Text)

/-- What is seen of a call. -/
structure Served where
  before : List NvsHandle
  after : List NvsHandle
  uses : List Bool
  -- of a read: whether it returned `ESP_OK`, and its target before and after
  target : Option (Bool × Int × Int)

/-- The entries of the driver are the same as before the call, each use was of an open handle, and a
read that returned an error left its target alone. -/
structure Served.Balanced (o : Served) : Prop where
  handles : o.after.Perm o.before
  uses : ∀ ok ∈ o.uses, ok = true
  target : ∀ x y, o.target = some (false, x, y) → y = x

def nvs : Mealy Nvs NvsCall Served where
  step s c :=
    let s := { s with uses := [], log := [] }
    match c with
    | .write a key val =>
      (s.write a key val, ⟨s.handles, (s.write a key val).handles, (s.write a key val).uses, none⟩)
    | .read a key val =>
      let r := s.read a key val
      (r.2, ⟨s.handles, r.2.handles, r.2.uses, some (r.1.1, val, r.1.2)⟩)
    | .erase a key =>
      (s.erase a key, ⟨s.handles, (s.erase a key).handles, (s.erase a key).uses, none⟩)

/-- The call meets neither of the two paths: a write or an erase gets its handle, and a read that
gets a handle gets its value. -/
def Nvs.Kept (s : Nvs) : NvsCall → Prop
  | .write a _ _ => a.opened ≠ none
  | .read a key _ => a.opened ≠ none → Nvs.found a key s ≠ none
  | .erase a _ => a.opened ≠ none

section Lists

variable {α : Type*} (l : List α) (x : α)

theorem perm_erase_concat [DecidableEq α] : ((l ++ [x]).erase x).Perm l := by
  have hmem : x ∈ l ++ [x] := List.mem_append_right _ List.mem_cons_self
  have hsplit : (x :: (l ++ [x]).erase x).Perm (x :: l) :=
    (List.perm_cons_erase hmem).symm.trans (List.perm_append_singleton x l)
  exact hsplit.cons_inv

theorem not_perm_concat : ¬ (l ++ [x]).Perm l := by
  intro h
  have hlen := h.length_eq
  rw [List.length_append, List.length_singleton] at hlen
  omega

theorem not_perm_erase [DecidableEq α] {l : List α} {x : α} (hmem : x ∈ l) :
    ¬ (l.erase x).Perm l := by
  intro h
  have hlen := h.length_eq
  have hpos := List.length_pos_of_mem hmem
  rw [List.length_erase_of_mem hmem] at hlen
  omega

end Lists

namespace Nvs

/-- After a failed `nvs_open` the local variable names a handle that is not open, or one that is and
that is closed under its owner. -/
theorem FallsThrough.balanced_iff {a : Answers} {s s' : Nvs} (h : FallsThrough a s s')
    (hs : s.uses = []) :
    Served.Balanced ⟨s.handles, s'.handles, s'.uses, none⟩ ↔ a.opened ≠ none := by
  have hall : ∀ ok ∈ s.uses, ok = true := by
    rw [hs]
    exact fun _ hok => absurd hok List.not_mem_nil
  have hhandles := h.handles
  have huses := h.uses
  cases hopen : a.opened with
  | none =>
    refine ⟨fun hbal => ?_, fun hne => absurd rfl hne⟩
    have hperm : s'.handles.Perm s.handles := hbal.handles
    obtain ⟨-, hmem⟩ := huses.1 hbal.uses
    rw [hhandles] at hperm
    rw [hopen, Option.toList_none, List.append_nil] at hperm hmem
    exact absurd hperm (not_perm_erase hmem)
  | some h =>
    rw [hopen] at hhandles huses
    refine ⟨fun _ => Option.some_ne_none h, fun _ => ⟨?_, huses.2 ⟨hall, ?_⟩, nofun⟩⟩
    · show s'.handles.Perm s.handles
      rw [hhandles]
      exact perm_erase_concat s.handles h
    · exact List.mem_append_right _ List.mem_cons_self

theorem read_balanced_iff (a : Answers) (key : Text) (val : Int) {s : Nvs} (hs : s.uses = []) :
    Served.Balanced ⟨s.handles, (read a key val s).2.handles, (read a key val s).2.uses,
        some ((read a key val s).1.1, val, (read a key val s).1.2)⟩ ↔
      (a.opened ≠ none → found a key s ≠ none) := by
  have hunwritten : ∀ x y, some (false, val, val) = some (false, x, y) → y = x := by
    rintro x y ⟨⟩
    rfl
  cases hopen : a.opened with
  | none =>
    rw [read_of_not_opened val hopen]
    refine ⟨fun _ hne => absurd rfl hne, fun _ => ⟨List.Perm.refl _, ?_, hunwritten⟩⟩
    show ∀ ok ∈ s.uses, ok = true
    rw [hs]
    exact fun _ hok => absurd hok List.not_mem_nil
  | some h =>
    cases hfound : found a key s with
    | none =>
      rw [read_of_not_found val hopen hfound]
      refine ⟨fun hbal => ?_, fun hne => absurd rfl (hne (Option.some_ne_none h))⟩
      exact absurd hbal.handles (not_perm_concat s.handles h)
    | some v =>
      rw [read_of_found val hopen hfound]
      refine ⟨fun _ _ => Option.some_ne_none v, fun _ => ⟨?_, ?_, nofun⟩⟩
      · exact perm_erase_concat s.handles h
      · simp [nvsClose, nvsOpen, hs]

/-- **The step lemma**: a call is balanced exactly when it meets neither path. -/
theorem balanced_step_iff (s : Nvs) (c : NvsCall) : (nvs.step s c).2.Balanced ↔ s.Kept c := by
  cases c with
  | write a key val =>
    exact (fallsThrough_write a key val { s with uses := [], log := [] }).balanced_iff rfl
  | read a key val =>
    exact read_balanced_iff a key val (s := { s with uses := [], log := [] }) rfl
  | erase a key =>
    exact (fallsThrough_erase a key { s with uses := [], log := [] }).balanced_iff rfl

end Nvs

/-- **Balanced handles.** Whatever the driver answers, the calls of a run are all balanced exactly
when every write and every erase gets its handle, and every read that gets a handle gets its
value. -/
theorem nvs_balanced_iff (s : Nvs) (calls : List NvsCall) :
    (∀ o ∈ nvs.run s calls, o.Balanced) ↔ nvs.Along Nvs.Kept s calls :=
  Mealy.forall_run_iff (I := fun _ => True) (fun _ _ _ _ => trivial)
    (fun s c _ => Nvs.balanced_step_iff s c) trivial

/-- The answers of a driver that works, with handle `h`. -/
def Answers.working (h : NvsHandle) : Answers := ⟨some h, 0, true, true, true, true⟩

/-- The first read of the first boot: the key is not there, and the handle stays open. And a write
whose `nvs_open` fails, with 7 in the local variable: it is made on a handle nobody opened. -/
theorem nvs_not_balanced :
    (¬ ∀ o ∈ nvs.run ⟨[], fun _ => none, [], []⟩ [.read (.working 1) (ascii "FAN_TEMP_ON") 0],
        o.Balanced) ∧
      ¬ ∀ o ∈ nvs.run ⟨[], fun _ => none, [], []⟩
          [.write ⟨none, 7, true, true, true, true⟩ (ascii "FAN_TEMP_ON") 95],
        o.Balanced := by
  refine ⟨fun h => ?_, fun h => ?_⟩
  · have hlen := (h _ List.mem_cons_self).handles.length_eq
    exact absurd hlen (by decide)
  · have huse := (h _ List.mem_cons_self).uses false
    exact absurd (huse (by decide)) (by decide)

/-! ## Booting -/

/-- Every call of the driver succeeds that can. -/
structure Answers.Work (a : Answers) : Prop where
  opened : a.opened ≠ none
  get : a.get = true
  set : a.set = true

/-- The calls of the block of `Init_Settings` for a setting: a read, and a write of the default if
the read fails. -/
def initCalls (reading writing : Setting → Answers) (storage : Text → Option Int) (t : Setting) :
    List NvsCall :=
  .read (reading t) t.key 0 ::
    if storage t.key = none then [.write (writing t) t.key (initBlock t).stored] else []

theorem initCalls_congr {reading writing : Setting → Answers} {storage storage' : Text → Option Int}
    {t : Setting} (h : storage t.key = storage' t.key) :
    initCalls reading writing storage t = initCalls reading writing storage' t := by
  unfold initCalls
  rw [h]

namespace Nvs

def serve (s : Nvs) (calls : List NvsCall) : Nvs := calls.foldl (fun s c => (nvs.step s c).1) s

section Boot

variable {a : Answers} (ha : a.Work) (key : Text) (val : Int) (s : Nvs)

include ha

theorem write_step : (nvs.step s (.write a key val)).1.handles.length = s.handles.length ∧
    (nvs.step s (.write a key val)).1.storage = Function.update s.storage key (some val) := by
  have hkept : s.Kept (.write a key val) := ha.opened
  have hstorage := storage_write ha.opened (s := { s with uses := [], log := [] })
    (w := cleared s.storage) rfl key val ha.set
  exact ⟨((balanced_step_iff s _).2 hkept).handles.length_eq, hstorage⟩

theorem read_step : (nvs.step s (.read a key val)).1.handles.length =
      s.handles.length + (if s.storage key = none then 1 else 0) ∧
    (nvs.step s (.read a key val)).1.storage = s.storage := by
  obtain ⟨h, hopen⟩ := Option.ne_none_iff_exists'.1 ha.opened
  have hfound : found a key { s with uses := [], log := [] } = s.storage key := if_pos ha.get
  show (read a key val { s with uses := [], log := [] }).2.handles.length = _ ∧
    (read a key val { s with uses := [], log := [] }).2.storage = _
  cases hkey : s.storage key with
  | none =>
    rw [read_of_not_found val hopen (hfound.trans hkey), if_pos rfl]
    exact ⟨List.length_append, rfl⟩
  | some v =>
    rw [read_of_found val hopen (hfound.trans hkey), if_neg (Option.some_ne_none v)]
    exact ⟨(perm_erase_concat s.handles h).length_eq, rfl⟩

end Boot

section Settings

variable {reading writing : Setting → Answers} (hreading : ∀ t, (reading t).Work)
  (hwriting : ∀ t, (writing t).Work)

include hreading hwriting

/-- A block leaves its key in flash, and a handle open if the key was not there. -/
theorem serve_block (t : Setting) (s : Nvs) :
    (s.serve (initCalls reading writing s.storage t)).handles.length =
        s.handles.length + (if s.storage t.key = none then 1 else 0) ∧
      (s.serve (initCalls reading writing s.storage t)).storage =
        Function.update s.storage t.key (some ((s.storage t.key).getD (initBlock t).stored)) := by
  obtain ⟨hlength, hstorage⟩ := read_step (hreading t) t.key 0 s
  unfold serve initCalls
  rw [List.foldl_cons]
  cases hkey : s.storage t.key with
  | none =>
    obtain ⟨hlength', hstorage'⟩ := write_step (hwriting t) t.key (initBlock t).stored
      (nvs.step s (.read (reading t) t.key 0)).1
    rw [hlength, hkey] at hlength'
    rw [hstorage] at hstorage'
    rw [if_pos rfl, List.foldl_cons, List.foldl_nil]
    exact ⟨hlength', hstorage'⟩
  | some v =>
    have hself : Function.update s.storage t.key (some v) = s.storage := by
      rw [← hkey, Function.update_eq_self]
    rw [hkey] at hlength
    rw [if_neg (Option.some_ne_none v), List.foldl_nil, Option.getD_some, hself]
    exact ⟨hlength, hstorage⟩

/-- **A boot leaks handles.** With a driver that works, `Init_Settings` leaves one handle open for
each setting that was not in flash. -/
theorem length_handles_initCalls {l : List Setting} (hl : l.Nodup) (s : Nvs) :
    (s.serve (l.flatMap (initCalls reading writing s.storage))).handles.length =
      s.handles.length + l.countP (fun t => s.storage t.key = none) := by
  induction l generalizing s with
  | nil => rfl
  | cons t l ih =>
    obtain ⟨ht, hl⟩ := List.nodup_cons.1 hl
    obtain ⟨hlength, hstorage⟩ := serve_block hreading hwriting t s
    have happend : s.serve ((t :: l).flatMap (initCalls reading writing s.storage)) =
        (s.serve (initCalls reading writing s.storage t)).serve
          (l.flatMap (initCalls reading writing s.storage)) := by
      unfold serve
      rw [List.flatMap_cons, List.foldl_append]
    rw [happend, List.countP_cons]
    generalize s.serve (initCalls reading writing s.storage t) = s' at hlength hstorage
    -- no block touches the key of a later one
    have hsame : ∀ r ∈ l, s.storage r.key = s'.storage r.key := by
      intro r hr
      have hkey : r.key ≠ t.key := fun e => ht (Setting.key_injective e ▸ hr)
      rw [hstorage, Function.update_of_ne hkey]
    have hcount : l.countP (fun r => s.storage r.key = none) =
        l.countP (fun r => s'.storage r.key = none) :=
      List.countP_congr fun r hr => by rw [hsame r hr]
    rw [List.flatMap_congr fun r hr => initCalls_congr (hsame r hr), ih hl s', hlength, hcount]
    simp only [decide_eq_true_eq]
    omega

end Settings

end Nvs

end GreenHouse
