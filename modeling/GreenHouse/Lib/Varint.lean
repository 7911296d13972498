import Mathlib.Data.List.Basic
import Mathlib.Data.UInt

/-!
# Numbers as bytes of seven bits

A number is sent seven bits a byte, the lowest first; the high bit of a byte says that more follow.
`size` and `value` read the number at the head of a text, whatever lies behind it; a text in which
no byte ends the number counts whole. `IsNumber` are the texts that are one number, not only the
shortest one for their value.

* `IsNumber.size_append`, `IsNumber.value_append`: what lies behind a number is not read.
* `value_lt_size`, `size_le_of_not_more`: how large a number is and where it ends, of any text.
* `IsNumber.more_of_lt`, `IsNumber.more_last`: a number ends at its first byte without the high bit.
* `isNumber_encode`, `value_encode`: the shortest text of a number is one, and reads as that number.
-/

namespace Varint

/-- The high bit: more bytes follow. -/
def more (b : UInt8) : Bool := decide (128 ≤ b.toNat)

def size : List UInt8 → Nat
  | [] => 0
  | b :: bs => if more b then size bs + 1 else 1

def value : List UInt8 → Nat
  | [] => 0
  | b :: bs => b.toNat % 128 + if more b then 128 * value bs else 0

/-- One number and nothing else. -/
def IsNumber : List UInt8 → Prop
  | [] => False
  | [b] => more b = false
  | b :: bs => more b = true ∧ IsNumber bs

/-- The shortest text of a number. -/
def encode (n : Nat) : List UInt8 :=
  if n < 128 then [UInt8.ofNat n] else UInt8.ofNat (n % 128 + 128) :: encode (n / 128)
termination_by n

theorem size_le_length (l : List UInt8) : size l ≤ l.length := by
  induction l with
  | nil => exact Nat.le_refl 0
  | cons b bs ih =>
    rw [size, List.length_cons]
    split <;> omega

/-- A number is less than its bytes can hold. -/
theorem value_lt_size (l : List UInt8) : value l < 128 ^ size l := by
  induction l with
  | nil => exact Nat.one_pos
  | cons b bs ih =>
    have hb : b.toNat % 128 < 128 := Nat.mod_lt _ (by decide)
    rw [value, size]
    split
    · rw [pow_succ]
      omega
    · omega

theorem value_lt (l : List UInt8) : value l < 128 ^ l.length :=
  (value_lt_size l).trans_le (Nat.pow_le_pow_right (by decide) (size_le_length l))

/-- A byte without the high bit ends the number. -/
theorem size_le_of_not_more {l : List UInt8} {i : Nat} (h : more (l.getD i 0) = false) :
    size l ≤ i + 1 := by
  induction l generalizing i with
  | nil => exact Nat.zero_le _
  | cons b bs ih =>
    rw [size]
    split
    · next hb =>
      cases i with
      | zero =>
        rw [List.getD_cons_zero, hb] at h
        cases h
      | succ i => exact Nat.succ_le_succ (ih (by rwa [List.getD_cons_succ] at h))
    · omega

section Reading

variable {l : List UInt8}

theorem isNumber_cons {b : UInt8} {bs : List UInt8} :
    IsNumber (b :: bs) ↔ if more b then IsNumber bs else bs = [] := by
  cases bs with
  | nil => cases hb : more b <;> simp [IsNumber, hb]
  | cons c bs => cases hb : more b <;> simp [IsNumber, hb]

theorem IsNumber.ne_nil (h : IsNumber l) : l ≠ [] := by
  rintro rfl
  exact h

theorem IsNumber.size_append (h : IsNumber l) (v : List UInt8) : size (l ++ v) = l.length := by
  induction l with
  | nil => exact h.elim
  | cons b bs ih =>
    rw [isNumber_cons] at h
    rw [List.cons_append, size]
    cases hb : more b with
    | false =>
      rw [hb, if_neg (by decide)] at h
      rw [h, if_neg (by decide)]
      rfl
    | true =>
      rw [hb, if_pos rfl] at h
      rw [if_pos rfl, ih h, List.length_cons]

theorem IsNumber.value_append (h : IsNumber l) (v : List UInt8) : value (l ++ v) = value l := by
  induction l with
  | nil => exact h.elim
  | cons b bs ih =>
    rw [isNumber_cons] at h
    rw [List.cons_append, value, value]
    cases hb : more b with
    | false => rw [if_neg (by decide), if_neg (by decide)]
    | true =>
      rw [hb, if_pos rfl] at h
      rw [if_pos rfl, if_pos rfl, ih h]

/-- All bytes of a number but its last one say that more follow. -/
theorem IsNumber.more_of_lt (h : IsNumber l) {i : Nat} (hi : i + 1 < l.length) :
    more (l.getD i 0) = true := by
  induction l generalizing i with
  | nil => exact h.elim
  | cons b bs ih =>
    rw [isNumber_cons] at h
    cases hb : more b with
    | false =>
      rw [hb, if_neg (by decide)] at h
      subst h
      simp at hi
    | true =>
      rw [hb, if_pos rfl] at h
      cases i with
      | zero => exact hb
      | succ i => exact ih h (by simpa using hi)

theorem IsNumber.more_last (h : IsNumber l) : more (l.getD (l.length - 1) 0) = false := by
  induction l with
  | nil => exact h.elim
  | cons b bs ih =>
    rw [isNumber_cons] at h
    cases hb : more b with
    | false =>
      rw [hb, if_neg (by decide)] at h
      subst h
      exact hb
    | true =>
      rw [hb, if_pos rfl] at h
      have hlen : 0 < bs.length := List.length_pos_iff.2 h.ne_nil
      have hget : (b :: bs).getD ((b :: bs).length - 1) 0 = bs.getD (bs.length - 1) 0 := by
        rw [List.length_cons, Nat.add_sub_cancel, ← Nat.sub_add_cancel hlen, List.getD_cons_succ,
          Nat.add_sub_cancel]
      rw [hget]
      exact ih h

end Reading

section Encode

variable (n : Nat)

theorem toNat_ofNat {m : Nat} (h : m < 256) : (UInt8.ofNat m).toNat = m :=
  UInt8.toNat_ofNat_of_lt' h

theorem more_ofNat {m : Nat} (h : m < 256) : more (UInt8.ofNat m) = decide (128 ≤ m) := by
  rw [more, toNat_ofNat h]

theorem isNumber_encode : IsNumber (encode n) := by
  induction n using Nat.strongRecOn with
  | ind n ih =>
    rw [encode]
    split
    · next h =>
      rw [isNumber_cons, more_ofNat (by omega), if_neg (by simpa using h)]
    · next h =>
      rw [isNumber_cons, more_ofNat (by omega), if_pos (by simp)]
      exact ih (n / 128) (by omega)

@[simp] theorem value_encode : value (encode n) = n := by
  induction n using Nat.strongRecOn with
  | ind n ih =>
    rw [encode]
    split
    · next h =>
      rw [value, more_ofNat (by omega), if_neg (by simpa using h), toNat_ofNat (by omega)]
      omega
    · next h =>
      rw [value, more_ofNat (by omega), if_pos (by simp), toNat_ofNat (by omega),
        ih (n / 128) (by omega)]
      omega

theorem length_encode_le {k : Nat} (hk : 0 < k) {n : Nat} (h : n < 128 ^ k) :
    (encode n).length ≤ k := by
  induction k generalizing n with
  | zero => omega
  | succ k ih =>
    rw [encode]
    split
    · simp
    · next hn =>
      have hpos : 0 < k := by
        rcases Nat.eq_zero_or_pos k with rfl | hpos
        · simp at h
          omega
        · exact hpos
      have hdiv : n / 128 < 128 ^ k := by
        rw [Nat.div_lt_iff_lt_mul (by decide)]
        rwa [pow_succ] at h
      have hlen := ih hpos hdiv
      rw [List.length_cons]
      omega

end Encode

end Varint
