import GreenHouse.Lib.CInt
import Mathlib.Data.Nat.Digits.Lemmas
import Mathlib.Data.List.Infix
import Mathlib.Data.List.TakeWhile
import Mathlib.Data.UInt

/-!
# C texts

Memory is a list of bytes and a C string is what lies before the first NUL (`cstr`). On that reading
the string functions of `<string.h>` and `<stdlib.h>` are functions of lists: `strstr` is an infix
test, `strchr` cuts at a byte, `atoi` is blanks, a sign and a run of digits, saturated to `int` as
`strtol` does.

* `cstr_append_of_mem`, `cstr_append`: what a string read sees of the bytes behind a text.
* `Numeral.atoi_append`: parsing a numeral gives its value, whatever non-digit follows.
* `atoi_itoa_append`: printing in decimal and parsing is the identity on `int`.
* `atoi_append_of_stop`: a byte that is no blank, sign or digit ends the number.
-/

namespace CText

open CInt

abbrev Text := List UInt8

/-- The bytes of an ASCII literal. -/
def ascii (s : String) : Text := s.toByteArray.data.toList

/-! ## Strings in memory -/

/-- The C string at the head of a stretch of memory. -/
def cstr (mem : Text) : Text := mem.takeWhile (· != 0)

theorem cstr_eq_self {t : Text} (h : 0 ∉ t) : cstr t = t := by
  unfold cstr
  rw [List.takeWhile_eq_self_iff]
  intro b hb
  simp only [bne_iff_ne, ne_eq]
  rintro rfl
  exact h hb

/-- A text without NUL is read through, into what lies behind it. -/
theorem cstr_append {t : Text} (h : 0 ∉ t) (r : Text) : cstr (t ++ r) = t ++ cstr r := by
  have ht : t.takeWhile (· != 0) = t := cstr_eq_self h
  unfold cstr
  rw [List.takeWhile_append, ht, if_pos rfl]

/-- A NUL inside a text stops the read: what lies behind is not seen. -/
theorem cstr_append_of_mem {t : Text} (h : 0 ∈ t) (r : Text) : cstr (t ++ r) = cstr t := by
  unfold cstr
  rw [List.takeWhile_append, if_neg]
  intro hlen
  have heq : t.takeWhile (· != 0) = t :=
    (List.takeWhile_prefix _).eq_of_length hlen
  have := List.takeWhile_eq_self_iff.1 heq 0 h
  simp at this

theorem cstr_append_zero (t r : Text) : cstr (t ++ 0 :: r) = cstr t := by
  by_cases h : (0 : UInt8) ∈ t
  · exact cstr_append_of_mem h _
  · rw [cstr_append h, cstr_eq_self h]
    simp [cstr]

/-! ## Searching -/

/-- `strstr(hay, needle) != NULL`. -/
def strstr (hay needle : Text) : Bool := decide (needle <:+: hay)

@[simp] theorem strstr_iff {hay needle : Text} : strstr hay needle = true ↔ needle <:+: hay := by
  simp [strstr]

/-- A needle is not found in front of the first occurrence of its first byte. -/
theorem infix_append_of_notMem {c : UInt8} {u : Text} (h : c ∉ u) (cs t : Text) :
    c :: cs <:+: u ++ t ↔ c :: cs <:+: t := by
  induction u with
  | nil => rfl
  | cons a u ih =>
    obtain ⟨ha, hu⟩ := not_or.1 (List.mem_cons.not.1 h)
    rw [List.cons_append, List.infix_cons_iff, ih hu]
    refine ⟨fun hor => hor.resolve_left fun hpre => ?_, Or.inr⟩
    exact ha (List.cons_prefix_cons.1 hpre).1

theorem prefix_of_prefix_set {u : Text} (h : (0 : UInt8) ∉ u) {r : Text} {i : Nat}
    (hu : u <+: r.set i 0) : u <+: r := by
  induction r generalizing u i with
  | nil => exact hu
  | cons b r ih =>
    cases u with
    | nil => exact List.nil_prefix
    | cons a u =>
      obtain ⟨ha, hrest⟩ := not_or.1 (List.mem_cons.not.1 h)
      cases i with
      | zero =>
        rw [List.set_cons_zero, List.cons_prefix_cons] at hu
        exact absurd hu.1.symm ha
      | succ i =>
        rw [List.set_cons_succ, List.cons_prefix_cons] at hu
        exact List.cons_prefix_cons.2 ⟨hu.1, ih hrest hu.2⟩

/-- A NUL that is written into a text brings no needle about. -/
theorem infix_of_infix_set {u : Text} (h : (0 : UInt8) ∉ u) {r : Text} {i : Nat}
    (hu : u <:+: r.set i 0) : u <:+: r := by
  induction r generalizing i with
  | nil => exact hu
  | cons b r ih =>
    cases i with
    | zero =>
      rw [List.set_cons_zero, List.infix_cons_iff] at hu
      rcases hu with hu | hu
      · exact (prefix_of_prefix_set (r := b :: r) (i := 0) h hu).isInfix
      · exact List.infix_cons hu
    | succ i =>
      rw [List.set_cons_succ, List.infix_cons_iff] at hu
      rcases hu with hu | hu
      · exact (prefix_of_prefix_set (r := b :: r) (i := i + 1) h hu).isInfix
      · exact List.infix_cons (ih hu)

/-- `strchr(s, c)`: what follows the first occurrence of `c`, if there is one. -/
def afterChr (s : Text) (c : UInt8) : Option Text :=
  match s.dropWhile (· != c) with
  | [] => none
  | _ :: rest => some rest

theorem afterChr_isSome {s : Text} {c : UInt8} : (afterChr s c).isSome ↔ c ∈ s := by
  induction s with
  | nil => simp [afterChr]
  | cons b s ih =>
    by_cases h : b = c
    · subst h; simp [afterChr]
    · have hc : (b != c) = true := by simpa using h
      have : afterChr (b :: s) c = afterChr s c := by
        unfold afterChr; rw [List.dropWhile_cons, if_pos hc]
      rw [this, ih, List.mem_cons]
      exact ⟨Or.inr, fun hm => hm.resolve_left fun e => h e.symm⟩

theorem afterChr_append {t : Text} {c : UInt8} (h : c ∉ t) (r : Text) :
    afterChr (t ++ c :: r) c = some r := by
  induction t with
  | nil => simp [afterChr]
  | cons b t ih =>
    have hb : (b != c) = true := by
      simp only [bne_iff_ne, ne_eq]; rintro rfl; exact h List.mem_cons_self
    have := ih fun hm => h (List.mem_cons_of_mem _ hm)
    unfold afterChr at this ⊢
    rw [List.cons_append, List.dropWhile_cons, if_pos hb]
    exact this

/-! ## Numbers -/

def isSpace (b : UInt8) : Bool := b == 32 || (9 ≤ b && b ≤ 13)

def isDigit (b : UInt8) : Bool := 48 ≤ b && b ≤ 57

def natOf (s : Text) : Nat := s.foldl (fun a b => 10 * a + (b.toNat - 48)) 0

/-- The saturation `strtol` applies to a number outside of the range of its type. -/
def clamp (x : Int) : Int := max (-2 ^ 31) (min x (2 ^ 31 - 1))

def signed : Text → Int
  | [] => 0
  | b :: s =>
    if b = 45 then clamp (-(natOf (s.takeWhile isDigit) : Int))
    else if b = 43 then clamp (natOf (s.takeWhile isDigit))
    else clamp (natOf ((b :: s).takeWhile isDigit))

theorem signed_cons (b : UInt8) (s : Text) :
    signed (b :: s) =
      if b = 45 then clamp (-(natOf (s.takeWhile isDigit) : Int))
      else if b = 43 then clamp (natOf (s.takeWhile isDigit))
      else clamp (natOf ((b :: s).takeWhile isDigit)) := rfl

/-- `atoi`: leading blanks, an optional sign, digits; the rest is ignored. -/
def atoi (s : Text) : Int := signed (s.dropWhile isSpace)

theorem inI32_clamp (x : Int) : InI32 (clamp x) := by
  unfold InI32 clamp
  omega

/-- Whatever the text, the number is an `int`. -/
theorem inI32_atoi (s : Text) : InI32 (atoi s) := by
  unfold atoi signed
  split
  · decide
  · split
    · exact inI32_clamp _
    · split <;> exact inI32_clamp _

def digit (d : Nat) : UInt8 := UInt8.ofNat (48 + d)

def decimal (n : Nat) : Text :=
  if n = 0 then [digit 0] else (Nat.digits 10 n).reverse.map digit

/-- `itoa(v, s, 10)` and `sprintf(s, "%d", v)`. -/
def itoa (v : Int) : Text := if v < 0 then 45 :: decimal v.natAbs else decimal v.natAbs

/-- `sprintf(s, "%02d", v)` for a nonnegative `v`. -/
def itoa02 (v : Int) : Text := if v < 10 then digit 0 :: itoa v else itoa v

theorem clamp_eq {x : Int} (h : InI32 x) : clamp x = x := by
  unfold InI32 at h
  unfold clamp
  omega

theorem toNat_digit {d : Nat} (h : d < 10) : (digit d).toNat = 48 + d := by
  unfold digit
  rw [UInt8.toNat_ofNat']
  omega

theorem isDigit_digit {d : Nat} (h : d < 10) : isDigit (digit d) = true := by
  have := toNat_digit h
  simp only [isDigit, Bool.and_eq_true, decide_eq_true_eq, UInt8.le_iff_toNat_le]
  simp only [this]
  constructor
  · show 48 ≤ 48 + d; omega
  · show 48 + d ≤ 57; omega

theorem natOf_append_digit (s : Text) {d : Nat} (h : d < 10) :
    natOf (s ++ [digit d]) = 10 * natOf s + d := by
  unfold natOf
  rw [List.foldl_append, List.foldl_cons, List.foldl_nil, toNat_digit h]
  omega

theorem natOf_digits : ∀ (l : List Nat), (∀ d ∈ l, d < 10) →
    natOf (l.reverse.map digit) = Nat.ofDigits 10 l
  | [], _ => rfl
  | d :: l, h => by
    have hl := natOf_digits l fun e he => h e (List.mem_cons_of_mem _ he)
    rw [List.reverse_cons, List.map_append, List.map_singleton,
      natOf_append_digit _ (h d List.mem_cons_self), hl, Nat.ofDigits_cons]
    omega

theorem natOf_decimal (n : Nat) : natOf (decimal n) = n := by
  unfold decimal
  split
  · next h => subst h; decide
  · rw [natOf_digits _ fun d hd => Nat.digits_lt_base (by decide) hd, Nat.ofDigits_digits]

theorem decimal_isDigit {n : Nat} {b : UInt8} (h : b ∈ decimal n) : isDigit b = true := by
  unfold decimal at h
  split at h
  · rw [List.mem_singleton] at h
    subst h; decide
  · obtain ⟨d, hd, rfl⟩ := List.mem_map.1 h
    exact isDigit_digit (Nat.digits_lt_base (by decide) (List.mem_reverse.1 hd))

theorem decimal_ne_nil (n : Nat) : decimal n ≠ [] := by
  unfold decimal
  split
  · exact List.cons_ne_nil _ _
  · next h => simpa using Nat.digits_ne_nil_iff_ne_zero.2 h

theorem length_decimal (n : Nat) : (decimal n).length = Nat.log 10 n + 1 := by
  unfold decimal
  split
  · next h => subst h; simp
  · next h => rw [List.length_map, List.length_reverse, Nat.length_digits 10 n (by decide) h]

theorem length_decimal_le {n k : Nat} (hk : 0 < k) (h : n < 10 ^ k) : (decimal n).length ≤ k := by
  rw [length_decimal]
  by_cases hn : n = 0
  · subst hn
    rw [Nat.log_zero_right]
    omega
  · exact Nat.log_lt_of_lt_pow hn h

theorem length_itoa_le {v : Int} {k : Nat} (hk : 0 < k) (h : v.natAbs < 10 ^ k) :
    (itoa v).length ≤ k + 1 := by
  have hdigits := length_decimal_le hk h
  unfold itoa
  split
  · rw [List.length_cons]
    omega
  · omega

/-- The longest text of an `int` is that of the least one. -/
theorem length_itoa_of_inI32 {v : Int} (h : InI32 v) : (itoa v).length ≤ 11 := by
  unfold InI32 at h
  exact length_itoa_le (by decide) (by omega)

/-- Two characters: two digits, or a minus sign and one. -/
theorem length_itoa_eq_two_iff (v : Int) :
    (itoa v).length = 2 ↔ (10 ≤ v ∧ v < 100) ∨ (-10 < v ∧ v < 0) := by
  unfold itoa
  split
  · next hneg =>
    have hlog : Nat.log 10 v.natAbs = 0 ↔ v.natAbs < 10 ∨ 10 ≤ 1 := Nat.log_eq_zero_iff
    rw [List.length_cons, length_decimal]
    omega
  · next hpos =>
    have hlog : Nat.log 10 v.natAbs = 1 ↔ 10 ^ 1 ≤ v.natAbs ∧ v.natAbs < 10 ^ (1 + 1) :=
      Nat.log_eq_iff (Or.inl (by decide))
    rw [length_decimal]
    omega

theorem notMem_itoa {b : UInt8} (hdigit : isDigit b = false) (hminus : b ≠ 45) (v : Int) :
    b ∉ itoa v := by
  have hdigits : ∀ n, b ∉ decimal n := fun n h => by
    rw [decimal_isDigit h] at hdigit
    cases hdigit
  unfold itoa
  split
  · intro h
    rcases List.mem_cons.1 h with h | h
    · exact hminus h
    · exact hdigits _ h
  · exact hdigits _

theorem zero_notMem_itoa (v : Int) : 0 ∉ itoa v := notMem_itoa (by decide) (by decide) v

theorem itoa_ne_nil (v : Int) : itoa v ≠ [] := by
  unfold itoa
  split
  · exact List.cons_ne_nil _ _
  · exact decimal_ne_nil _

def Numeral (ds : Text) : Prop := ds ≠ [] ∧ ∀ b ∈ ds, isDigit b = true

theorem numeral_of_all {ds : Text} (hne : ds ≠ []) (hall : ds.all isDigit = true) : Numeral ds :=
  ⟨hne, List.all_eq_true.1 hall⟩

theorem numeral_decimal (n : Nat) : Numeral (decimal n) :=
  ⟨decimal_ne_nil n, fun _ hb => decimal_isDigit hb⟩

/-- The first byte of a text that starts with `a`. -/
theorem forall_head {p : UInt8 → Bool} {t : Text} {a : UInt8} (ht : t.head? = some a)
    (ha : p a = false) : ∀ b ∈ t.head?, p b = false := by
  intro b hb
  rw [ht] at hb
  obtain rfl := Option.mem_some_iff.1 hb
  exact ha

/-- A run of bytes that ends where the predicate fails is read back whole. -/
theorem takeWhile_append_of_head {p : UInt8 → Bool} {u r : Text} (hu : ∀ b ∈ u, p b = true)
    (hr : ∀ b ∈ r.head?, p b = false) : (u ++ r).takeWhile p = u := by
  have hall : u.takeWhile p = u := List.takeWhile_eq_self_iff.2 hu
  rw [List.takeWhile_append, hall, if_pos rfl]
  cases r with
  | nil => simp
  | cons b r => rw [List.takeWhile_cons, hr b rfl]; simp

/-- So a text is cut in one way into such a run and what follows. -/
theorem append_inj_of_head {p : UInt8 → Bool} {u u' r r' : Text} (hu : ∀ b ∈ u, p b = true)
    (hu' : ∀ b ∈ u', p b = true) (hr : ∀ b ∈ r.head?, p b = false)
    (hr' : ∀ b ∈ r'.head?, p b = false) (h : u ++ r = u' ++ r') : u = u' ∧ r = r' := by
  have heq : u = u' := by
    rw [← takeWhile_append_of_head hu hr, h, takeWhile_append_of_head hu' hr']
  subst heq
  exact ⟨rfl, List.append_cancel_left h⟩

theorem Numeral.takeWhile {ds : Text} (h : Numeral ds) {r : Text}
    (hr : ∀ b ∈ r.head?, isDigit b = false) : (ds ++ r).takeWhile isDigit = ds :=
  takeWhile_append_of_head h.2 hr

theorem atoi_append_of_blanks {u : Text} (hu : ∀ b ∈ u, isSpace b = true) (r : Text) :
    atoi (u ++ r) = atoi r := by
  unfold atoi
  rw [List.dropWhile_append, List.dropWhile_eq_nil_iff.2 hu, List.isEmpty_nil, if_pos rfl]

theorem itoa_natCast (n : Nat) : itoa n = decimal n := by
  unfold itoa
  rw [if_neg (by omega), Int.natAbs_natCast]

theorem numeral_itoa02 (n : Nat) : Numeral (itoa02 n) := by
  have hdigits := numeral_decimal n
  unfold itoa02
  rw [itoa_natCast]
  split
  · refine ⟨List.cons_ne_nil _ _, fun b hb => ?_⟩
    rcases List.mem_cons.1 hb with rfl | hb
    · decide
    · exact hdigits.2 b hb
  · exact hdigits

theorem length_itoa02 {n : Nat} (h : n < 100) : (itoa02 n).length = 2 := by
  unfold itoa02
  split
  · next hlt =>
    have hone : (decimal n).length ≤ 1 := length_decimal_le (by decide) (by omega)
    have hpos := List.length_pos_of_ne_nil (decimal_ne_nil n)
    rw [itoa_natCast, List.length_cons]
    omega
  · next hge => exact (length_itoa_eq_two_iff n).2 (Or.inl ⟨by omega, by omega⟩)

theorem length_itoa02_le {n : Nat} (h : n < 1000) : (itoa02 n).length ≤ 3 := by
  by_cases hlt : n < 100
  · rw [length_itoa02 hlt]
    decide
  · have hdigits : (decimal n).length ≤ 3 := length_decimal_le (by decide) h
    unfold itoa02
    rwa [if_neg (by omega), itoa_natCast]

/-- A leading zero does not change the value. -/
theorem natOf_itoa02 (n : Nat) : natOf (itoa02 n) = n := by
  unfold itoa02
  rw [itoa_natCast]
  split
  · have hzero : natOf (digit 0 :: decimal n) = natOf (decimal n) := rfl
    rw [hzero, natOf_decimal]
  · exact natOf_decimal n

theorem isSpace_eq_false_of_isDigit {b : UInt8} (h : isDigit b = true) : isSpace b = false := by
  simp only [isDigit, Bool.and_eq_true, decide_eq_true_eq, UInt8.le_iff_toNat_le] at h
  have h1 : 48 ≤ b.toNat := h.1
  simp only [isSpace, Bool.or_eq_false_iff, beq_eq_false_iff_ne, Bool.and_eq_false_iff,
    decide_eq_false_iff_not, UInt8.le_iff_toNat_le]
  refine ⟨?_, Or.inr ?_⟩
  · rintro rfl; exact absurd h1 (by decide)
  · show ¬ b.toNat ≤ 13; omega

theorem isDigit_ne_sign {b : UInt8} (h : isDigit b = true) : b ≠ 45 ∧ b ≠ 43 := by
  constructor <;> rintro rfl <;> exact absurd h (by decide)

/-- **Parsing a numeral** gives its value, whatever non-digit follows. -/
theorem Numeral.atoi_append {ds : Text} (h : Numeral ds) (hv : InI32 (natOf ds)) {r : Text}
    (hr : ∀ b ∈ r.head?, isDigit b = false) : atoi (ds ++ r) = natOf ds := by
  have htake := h.takeWhile hr
  cases ds with
  | nil => exact absurd rfl h.1
  | cons b s =>
    have hb : isDigit b = true := h.2 b List.mem_cons_self
    rw [List.cons_append] at htake ⊢
    unfold atoi
    rw [List.dropWhile_cons, if_neg (by rw [isSpace_eq_false_of_isDigit hb]; decide), signed_cons,
      if_neg (isDigit_ne_sign hb).1, if_neg (isDigit_ne_sign hb).2, htake, clamp_eq hv]

theorem Numeral.atoi_neg_append {ds : Text} (h : Numeral ds) (hv : InI32 (-(natOf ds : Int)))
    {r : Text} (hr : ∀ b ∈ r.head?, isDigit b = false) : atoi (45 :: ds ++ r) = -(natOf ds) := by
  unfold atoi
  rw [List.cons_append, List.dropWhile_cons, if_neg (by decide), signed_cons, if_pos rfl,
    h.takeWhile hr, clamp_eq hv]

theorem Numeral.atoi_pos_append {ds : Text} (h : Numeral ds) (hv : InI32 (natOf ds))
    {r : Text} (hr : ∀ b ∈ r.head?, isDigit b = false) : atoi (43 :: ds ++ r) = natOf ds := by
  unfold atoi
  rw [List.cons_append, List.dropWhile_cons, if_neg (by decide), signed_cons, if_neg (by decide),
    if_pos rfl, h.takeWhile hr, clamp_eq hv]

/-- **Printing an `int` and parsing it back** gives the value, whatever non-digit follows. -/
theorem atoi_itoa_append {v : Int} (h : InI32 v) {r : Text}
    (hr : ∀ b ∈ r.head?, isDigit b = false) : atoi (itoa v ++ r) = v := by
  unfold itoa
  split
  · next hneg =>
    have habs : -(natOf (decimal v.natAbs) : Int) = v := by rw [natOf_decimal]; omega
    rw [(numeral_decimal _).atoi_neg_append (by rwa [habs]) hr, habs]
  · next hpos =>
    have habs : (natOf (decimal v.natAbs) : Int) = v := by rw [natOf_decimal]; omega
    rw [(numeral_decimal _).atoi_append (by rwa [habs]) hr, habs]

theorem atoi_itoa {v : Int} (h : InI32 v) : atoi (itoa v) = v := by
  have := atoi_itoa_append h (r := []) (by simp)
  rwa [List.append_nil] at this

/-- A byte that is no blank, sign or digit ends the number: nothing behind it counts. -/
theorem atoi_append_of_stop (p q : Text) {b : UInt8} (hs : isSpace b = false)
    (hd : isDigit b = false) (hm : b ≠ 45) (hp : b ≠ 43) : atoi (p ++ b :: q) = atoi p := by
  unfold atoi
  have hdrop : (p ++ b :: q).dropWhile isSpace = p.dropWhile isSpace ++ b :: q := by
    induction p with
    | nil => rw [List.nil_append, List.dropWhile_cons, hs]; rfl
    | cons a p ih =>
      rw [List.cons_append, List.dropWhile_cons, List.dropWhile_cons, ih]
      split <;> rfl
  have htake : ∀ s : Text, (s ++ b :: q).takeWhile isDigit = s.takeWhile isDigit := by
    intro s
    induction s with
    | nil => rw [List.nil_append, List.takeWhile_cons, hd]; rfl
    | cons a s ih => rw [List.cons_append, List.takeWhile_cons, List.takeWhile_cons, ih]
  rw [hdrop]
  cases p.dropWhile isSpace with
  | nil =>
    rw [List.nil_append, signed_cons, if_neg hm, if_neg hp, List.takeWhile_cons, hd]
    rfl
  | cons a s =>
    have hcons := htake (a :: s)
    rw [List.cons_append] at hcons ⊢
    rw [signed_cons, signed_cons, htake s, hcons]

end CText
