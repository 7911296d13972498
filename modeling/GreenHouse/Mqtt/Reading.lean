import GreenHouse.Mqtt.Handler

/-!
# What the handler reads

The tests see the topic and, directly behind it, the payload and whatever follows up to the first
NUL. So a run of the handler is a run over one text, the string at the payload, which starts as
`cstr (payload ++ residue)` and becomes `cstr payload` once a branch has terminated the payload
(`Hearing`). `handle_reads` is the refinement: the handler on the memory does what it does on that
text. Header and residue matter through the text only.
-/

namespace GreenHouse

open CText

/-- A run of the handler, with the string at the payload in place of the memory. -/
structure Hearing where
  world : World
  text : Text
  fault : Option Fault
  ran : List Branch

namespace Hearing

variable (topic payload : Text)

def enter (b : Branch) (h : Hearing) : Hearing :=
  let h := { h with ran := h.ran ++ [b] }
  match b.use with
  | .none => { h with world := (b.act [] h.world).1, fault := (b.act [] h.world).2 }
  | .read =>
    if payload = [] then { h with fault := some .nullRead }
    else { h with world := (b.act h.text h.world).1, fault := (b.act h.text h.world).2 }
  | .terminate =>
    if payload = [] then { h with fault := some .nullWrite }
    else
      { h with
        text := cstr payload
        world := (b.act (cstr payload) h.world).1
        fault := (b.act (cstr payload) h.world).2 }

/-- The test of `b` succeeds on the text. -/
def Hit (text : Text) (b : Branch) : Prop := b.topic <:+: topic ++ text

instance (text : Text) (b : Branch) : Decidable (Hit topic text b) :=
  inferInstanceAs (Decidable (_ <:+: _))

def test (h : Hearing) (b : Branch) : Hearing :=
  if h.fault.isSome then h else if Hit topic h.text b then h.enter payload b else h

def run (l : List Branch) (h : Hearing) : Hearing := l.foldl (test topic payload) h

end Hearing

def Publish.hear (m : Publish) (w : World) : Hearing :=
  Hearing.run m.topic m.payload Branch.all ⟨w, cstr (m.payload ++ m.residue), none, []⟩

/-! ## The refinement -/

/-- The memory still holds the message, and the string at the payload is the text. -/
structure Reads (m : Publish) (h : Handling) (t : Hearing) : Prop where
  world : h.world = t.world
  fault : h.fault = t.fault
  ran : h.ran = t.ran
  mem : ∃ r, h.mem = m.header ++ m.topic ++ m.payload ++ r ∧ t.text = cstr (m.payload ++ r)

section Refinement

variable {m : Publish} {h : Handling} {t : Hearing}

theorem strAt_topic (htopic : 0 ∉ m.topic) (hr : Reads m h t) :
    strAt h.mem m.header.length = m.topic ++ t.text := by
  obtain ⟨r, hmem, htext⟩ := hr.mem
  unfold strAt
  rw [hmem, htext, List.append_assoc, List.append_assoc, List.drop_left, cstr_append htopic]

theorem strAt_data (hr : Reads m h t) :
    strAt h.mem (m.header.length + m.topic.length) = t.text := by
  obtain ⟨r, hmem, htext⟩ := hr.mem
  unfold strAt
  rw [hmem, htext, ← List.length_append, List.append_assoc, List.drop_left]

theorem strAt_terminated (hr : Reads m h t) :
    ∃ r, h.mem.set (m.header.length + m.topic.length + m.payload.length) 0 =
        m.header ++ m.topic ++ m.payload ++ r ∧ cstr (m.payload ++ r) = cstr m.payload := by
  obtain ⟨r, hmem, -⟩ := hr.mem
  have hlen : m.header.length + m.topic.length + m.payload.length =
      (m.header ++ m.topic ++ m.payload).length + 0 := by simp [Nat.add_assoc]
  refine ⟨r.set 0 0, ?_, ?_⟩
  · rw [hmem, hlen, List.set_append_right _ _ (by omega), Nat.add_sub_cancel_left]
  · cases r with
    | nil => rw [List.set_nil, List.append_nil]
    | cons b r => exact cstr_append_zero _ _

theorem reads_enter (b : Branch) (hr : Reads m h t) :
    Reads m (h.enter m.event b) (t.enter m.payload b) := by
  have hdata : m.event.data =
      if m.payload = [] then none else some (m.header.length + m.topic.length) := by
    unfold Publish.event
    cases m.payload <;> simp
  have hran : h.ran ++ [b] = t.ran ++ [b] := by rw [hr.ran]
  unfold Handling.enter Hearing.enter
  rw [hdata]
  cases b.use with
  | none => exact ⟨by rw [hr.world], by rw [hr.world], hran, hr.mem⟩
  | read =>
    by_cases hp : m.payload = []
    · simp only [if_pos hp]
      exact ⟨hr.world, rfl, hran, hr.mem⟩
    · simp only [if_neg hp]
      have hact : b.act (strAt h.mem (m.header.length + m.topic.length)) h.world =
          b.act t.text t.world := by rw [strAt_data hr, hr.world]
      exact ⟨congrArg Prod.fst hact, congrArg Prod.snd hact, hran, hr.mem⟩
  | terminate =>
    by_cases hp : m.payload = []
    · simp only [if_pos hp]
      exact ⟨hr.world, rfl, hran, hr.mem⟩
    · simp only [if_neg hp]
      obtain ⟨r, hset, hcstr⟩ := strAt_terminated hr
      have hread : strAt (h.mem.set (m.header.length + m.topic.length + m.payload.length) 0)
          (m.header.length + m.topic.length) = cstr m.payload := by
        unfold strAt
        rw [hset, ← List.length_append, List.append_assoc, List.drop_left, hcstr]
      have hact : b.act (strAt (h.mem.set (m.header.length + m.topic.length + m.event.dataLen) 0)
          (m.header.length + m.topic.length)) h.world = b.act (cstr m.payload) t.world := by
        rw [hr.world]
        exact congrArg (b.act · t.world) hread
      exact ⟨congrArg Prod.fst hact, congrArg Prod.snd hact, hran, r, hset, hcstr.symm⟩

theorem reads_test (htopic : 0 ∉ m.topic) (b : Branch) (hr : Reads m h t) :
    Reads m (h.test m.event b) (t.test m.topic m.payload b) := by
  have hsee := strAt_topic htopic hr
  unfold Handling.test Hearing.test
  rw [hr.fault]
  split
  · exact hr
  · show Reads m (if strstr (strAt h.mem m.header.length) b.topic = true then _ else h) _
    by_cases hit : Hearing.Hit m.topic t.text b
    · rw [if_pos hit, if_pos (by rw [hsee, strstr_iff]; exact hit)]
      exact reads_enter b hr
    · rw [if_neg hit, if_neg (by rw [hsee, strstr_iff]; exact hit)]
      exact hr

theorem reads_run (htopic : 0 ∉ m.topic) (l : List Branch) (hr : Reads m h t) :
    Reads m (l.foldl (Handling.test m.event) h) (t.run m.topic m.payload l) := by
  unfold Hearing.run
  induction l generalizing h t with
  | nil => exact hr
  | cons b l ih => exact ih (reads_test htopic b hr)

end Refinement

/-- **The handler on the memory is the handler on the text.** -/
theorem handle_reads {m : Publish} (htopic : 0 ∉ m.topic) (w : World) :
    Reads m (m.handle w) (m.hear w) :=
  reads_run htopic _ ⟨rfl, rfl, rfl, m.residue, rfl, rfl⟩

theorem zero_notMem_of_subscribed : ∀ t ∈ subscribed, 0 ∉ t := by decide +kernel

end GreenHouse
