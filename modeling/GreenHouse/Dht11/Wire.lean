import GreenHouse.Sensor

/-!
# The one-wire transfer of the sensor (`dht11.c`)

After the start signal `DHT11_read` only samples the pin. A transfer is a response, low and then
high, and forty bits, each low and then high; the length of the high phase is the bit. The code
counts the samples of a phase and gives up on one that is too long, but for the high phase of a bit:
there a phase without an end is a zero.

`receive_iff` says for every behaviour of the line what comes out. `receive_transmission` is the
round trip from a sensor that keeps to the timing, and `receive_stopped` what a sensor that stops in
the middle is taken for.
-/

namespace GreenHouse

/-- The levels that the calls of `gpio_get_level` return, in order. -/
abbrev Line := Nat → Bool

/-! ## The code -/

/-- The loop of `_waitOrTimeout` at sample `k`: the result and the next sample. -/
def waitLoop (line : Line) (microSeconds : Nat) (level : Bool) (ticks k : Nat) : Int × Nat :=
  if line k = level then
    if ticks > microSeconds then (DhtStatus.timeoutError.code, k + 1)
    else waitLoop line microSeconds level (ticks + 1) (k + 1)
  else (ticks, k + 1)
termination_by microSeconds + 1 - ticks

def waitOrTimeout (line : Line) (microSeconds : Nat) (level : Bool) (k : Nat) : Int × Nat :=
  waitLoop line microSeconds level 0 k

/-- `uint8_t data[5]`. -/
abbrev Frame := Fin 5 → BitVec 8

/-- The sum of the four bytes is an `int` and is not reduced. -/
def Frame.Checks (data : Frame) : Prop :=
  (data 4).toNat = (data 0).toNat + (data 1).toNat + (data 2).toNat + (data 3).toNat

instance (data : Frame) : Decidable data.Checks := inferInstanceAs (Decidable (_ = _))

def checkCRC (data : Frame) : DhtStatus := if data.Checks then .ok else .crcError

def checkResponse (line : Line) (k : Nat) : DhtStatus × Nat :=
  let (low, k) := waitOrTimeout line 80 false k
  if low = DhtStatus.timeoutError.code then (.timeoutError, k)
  else
    let (high, k) := waitOrTimeout line 80 true k
    if high = DhtStatus.timeoutError.code then (.timeoutError, k) else (.ok, k)

def byteIndex (i : Fin 40) : Fin 5 := ⟨i / 8, by omega⟩

/-- `data[i/8] |= (1 << (7-(i%8)))`. -/
def Frame.setBit (data : Frame) (i : Fin 40) : Frame :=
  Function.update data (byteIndex i) (data (byteIndex i) ||| 1#8 <<< (7 - i % 8 : Nat))

/-- The loop of `DHT11_read` over the bits that are left; `none` is a timeout. -/
def readBits (line : Line) : List (Fin 40) → Frame → Nat → Option Frame × Nat
  | [], data, k => (some data, k)
  | i :: is, data, k =>
    let (low, k) := waitOrTimeout line 50 false k
    if low = DhtStatus.timeoutError.code then (none, k)
    else
      let (high, k) := waitOrTimeout line 70 true k
      readBits line is (if high > 28 then data.setBit i else data) k

def dhtTimeoutError : DhtReading := ⟨.timeoutError, -1, -1⟩

def dhtCrcError : DhtReading := ⟨.crcError, -1, -1⟩

/-- `DHT11_read` behind `_sendStartSignal`: the reading, and the number of samples taken. -/
def receive (line : Line) : DhtReading × Nat :=
  let (response, k) := checkResponse line 0
  if response = .timeoutError then (dhtTimeoutError, k)
  else
    match readBits line (List.finRange 40) (fun _ => 0#8) k with
    | (none, k) => (dhtTimeoutError, k)
    | (some data, k) =>
      if checkCRC data ≠ .crcError then (⟨.ok, (data 2).toNat, (data 0).toNat⟩, k)
      else (dhtCrcError, k)

/-! ## Waiting -/

/-- From sample `k` on the line is at `level` for exactly `n` samples. -/
structure HeldFor (line : Line) (level : Bool) (k n : Nat) : Prop where
  held : ∀ i < n, line (k + i) = level
  left : line (k + n) ≠ level

section Wait

variable {line : Line} {microSeconds : Nat} {level : Bool} {k n : Nat}

/-- A phase ends in time, or it fills all the samples that are allowed. -/
theorem heldFor_or_stuck (line : Line) (level : Bool) (k m : Nat) :
    (∃ n < m, HeldFor line level k n) ∨ ∀ i < m, line (k + i) = level := by
  induction m with
  | zero => exact Or.inr fun i hi => absurd hi (Nat.not_lt_zero i)
  | succ m ih =>
    rcases ih with ⟨n, hn, h⟩ | h
    · exact Or.inl ⟨n, Nat.lt_succ_of_lt hn, h⟩
    · by_cases hm : line (k + m) = level
      · refine Or.inr fun i hi => ?_
        rcases Nat.lt_succ_iff_lt_or_eq.1 hi with hi | rfl
        · exact h i hi
        · exact hm
      · exact Or.inl ⟨m, Nat.lt_succ_self m, h, hm⟩

theorem HeldFor.tail (h : HeldFor line level k (n + 1)) :
    line k = level ∧ HeldFor line level (k + 1) n := by
  have hshift : ∀ i, k + 1 + i = k + (i + 1) := fun i => by omega
  refine ⟨h.held 0 (Nat.succ_pos n), fun i hi => ?_, ?_⟩
  · rw [hshift]
    exact h.held (i + 1) (Nat.succ_lt_succ hi)
  · rw [hshift]
    exact h.left

theorem waitLoop_of_heldFor {ticks : Nat} (h : HeldFor line level k n)
    (hn : ticks + n ≤ microSeconds + 1) :
    waitLoop line microSeconds level ticks k = ((ticks : Int) + n, k + n + 1) := by
  induction n generalizing ticks k with
  | zero =>
    have hleft : line k ≠ level := h.left
    rw [waitLoop, if_neg hleft]
    simp
  | succ n ih =>
    obtain ⟨hk, hnext⟩ := h.tail
    rw [waitLoop, if_pos hk, if_neg (by omega), ih hnext (by omega), Prod.mk.injEq]
    exact ⟨by omega, by omega⟩

theorem waitLoop_of_stuck {ticks : Nat} (ht : ticks ≤ microSeconds + 1)
    (h : ∀ i < microSeconds + 2 - ticks, line (k + i) = level) :
    waitLoop line microSeconds level ticks k = (-1, k + (microSeconds + 2 - ticks)) := by
  -- on the ticks that are left
  obtain ⟨d, hd⟩ : ∃ d, microSeconds + 1 - ticks = d := ⟨_, rfl⟩
  induction d generalizing ticks k with
  | zero =>
    have hk : line k = level := h 0 (by omega)
    rw [waitLoop, if_pos hk, if_pos (by omega), Prod.mk.injEq]
    exact ⟨rfl, by omega⟩
  | succ d ih =>
    have hk : line k = level := h 0 (by omega)
    have hnext : ∀ i < microSeconds + 2 - (ticks + 1), line (k + 1 + i) = level := by
      intro i hi
      have hi' := h (i + 1) (by omega)
      rwa [← Nat.add_assoc, Nat.add_right_comm] at hi'
    rw [waitLoop, if_pos hk, if_neg (by omega), ih (by omega) hnext (by omega), Prod.mk.injEq]
    exact ⟨rfl, by omega⟩

/-- A phase that ends in time is counted, and the sample behind it is consumed. -/
theorem waitOrTimeout_of_heldFor (h : HeldFor line level k n) (hn : n ≤ microSeconds + 1) :
    waitOrTimeout line microSeconds level k = ((n : Int), k + n + 1) := by
  have hwait : waitLoop line microSeconds level 0 k = (((0 : Nat) : Int) + n, k + n + 1) :=
    waitLoop_of_heldFor h (by omega)
  rwa [Int.natCast_zero, Int.zero_add] at hwait

theorem waitOrTimeout_of_stuck (h : ∀ i < microSeconds + 2, line (k + i) = level) :
    waitOrTimeout line microSeconds level k = (-1, k + microSeconds + 2) :=
  waitLoop_of_stuck (Nat.zero_le _) h

theorem natCast_ne_timeout (n : Nat) : (n : Int) ≠ DhtStatus.timeoutError.code := by
  unfold DhtStatus.code
  dsimp only
  omega

/-- **`_waitOrTimeout` in one statement.** -/
theorem waitOrTimeout_cases (line : Line) (microSeconds : Nat) (level : Bool) (k : Nat) :
    (∃ n ≤ microSeconds + 1, HeldFor line level k n ∧
        waitOrTimeout line microSeconds level k = ((n : Int), k + n + 1)) ∨
      (∀ i < microSeconds + 2, line (k + i) = level) ∧
        waitOrTimeout line microSeconds level k = (-1, k + microSeconds + 2) := by
  rcases heldFor_or_stuck line level k (microSeconds + 2) with ⟨n, hn, h⟩ | h
  · exact Or.inl ⟨n, by omega, h, waitOrTimeout_of_heldFor h (by omega)⟩
  · exact Or.inr ⟨h, waitOrTimeout_of_stuck h⟩

end Wait

/-! ## Bits of a frame -/

/-- Bit `i` in the order of the transfer, the most significant of each byte first. -/
def Frame.bit (data : Frame) (i : Fin 40) : Bool := (data (byteIndex i)).getMsbD (i % 8)

def Frame.bits (data : Frame) : List Bool := (List.finRange 40).map data.bit

theorem Frame.bit_setBit (data : Frame) (i j : Fin 40) :
    (data.setBit i).bit j = (data.bit j || decide (i = j)) := by
  unfold Frame.bit Frame.setBit
  by_cases hbyte : byteIndex j = byteIndex i
  · have hdiv : (j : Nat) / 8 = i / 8 := congrArg Fin.val hbyte
    have hij : i = j ↔ (j : Nat) % 8 = i % 8 := by
      rw [Fin.ext_iff]
      omega
    have hone : (1#8).getMsbD (j % 8 + (7 - i % 8)) = decide ((j : Nat) % 8 = i % 8) := by
      rw [BitVec.getMsbD_one, Bool.eq_iff_iff]
      simp
      omega
    rw [hbyte, Function.update_self, BitVec.getMsbD_or, BitVec.getMsbD_shiftLeft, hone]
    simp [hij]
  · have hne : i ≠ j := fun h => hbyte (h ▸ rfl)
    rw [Function.update_of_ne hbyte]
    simp [hne]

theorem Frame.ext_bit {data data' : Frame} (h : ∀ i, data.bit i = data'.bit i) : data = data' := by
  funext j
  refine BitVec.eq_of_getMsbD_eq fun m hm => ?_
  have hj := h ⟨8 * j + m, by omega⟩
  have hbyte : byteIndex ⟨8 * j + m, by omega⟩ = j := by
    apply Fin.ext
    show (8 * (j : Nat) + m) / 8 = j
    omega
  have hmod : (8 * (j : Nat) + m) % 8 = m := by omega
  unfold Frame.bit at hj
  rwa [hbyte, hmod] at hj

/-- The frame after the bits that were received. -/
def Frame.setBits (data : Frame) (received : List (Fin 40 × Bool)) : Frame :=
  received.foldl (fun d r => if r.2 then d.setBit r.1 else d) data

theorem Frame.bit_setBits (data : Frame) (received : List (Fin 40 × Bool)) (j : Fin 40) :
    (data.setBits received).bit j = (data.bit j || decide ((j, true) ∈ received)) := by
  unfold Frame.setBits
  induction received generalizing data with
  | nil => simp
  | cons r received ih =>
    obtain ⟨i, b⟩ := r
    rw [List.foldl_cons, ih]
    cases b with
    | false => simp
    | true =>
      rw [if_pos rfl, Frame.bit_setBit]
      simp [Bool.or_assoc, eq_comm]

/-- Forty bits set in the order of the transfer give the frame that has them. -/
theorem Frame.bit_setBits_zip (f : Fin 40 → Bool) (j : Fin 40) :
    (Frame.setBits (fun _ => 0#8) ((List.finRange 40).zip ((List.finRange 40).map f))).bit j =
      f j := by
  have hzero : Frame.bit (fun _ => 0#8) j = false := BitVec.getMsbD_zero
  rw [Frame.bit_setBits, hzero, Bool.false_or, ← List.map_prod_left_eq_zip, Bool.eq_iff_iff]
  simp

theorem Frame.setBits_bits (data : Frame) :
    Frame.setBits (fun _ => 0#8) ((List.finRange 40).zip data.bits) = data :=
  Frame.ext_bit (Frame.bit_setBits_zip data.bit)

theorem exists_bits_eq {bs : List Bool} (h : bs.length = 40) : ∃ data : Frame, data.bits = bs := by
  obtain ⟨f, hf⟩ : ∃ f : Fin 40 → Bool, (List.finRange 40).map f = bs := by
    refine ⟨fun i => bs.get (i.cast h.symm), List.ext_getElem (by simp [h]) fun i _ _ => ?_⟩
    simp
  refine ⟨Frame.setBits (fun _ => 0#8) ((List.finRange 40).zip ((List.finRange 40).map f)), ?_⟩
  rw [← hf]
  exact List.map_congr_left fun i _ => Frame.bit_setBits_zip f i

/-! ## What a line carries -/

/-- The high phase of a bit from sample `k` on: one if the loop counts more than 28 samples, zero if
it counts fewer or the phase does not end. -/
inductive HighPhase (line : Line) (k : Nat) : Bool → Nat → Prop
  | ends {n : Nat} (h : HeldFor line true k n) (hn : n ≤ 71) :
      HighPhase line k (decide (28 < n)) (k + n + 1)
  | stuck (h : ∀ i < 72, line (k + i) = true) : HighPhase line k false (k + 72)

/-- From sample `k` to sample `k'` the line carries the bits. -/
inductive Carries (line : Line) : Nat → List Bool → Nat → Prop
  | nil (k : Nat) : Carries line k [] k
  | cons {k low k' k'' : Nat} {b : Bool} {bs : List Bool} (hlow : HeldFor line false k low)
      (hle : low ≤ 51) (hhigh : HighPhase line (k + low + 1) b k') (rest : Carries line k' bs k'') :
      Carries line k (b :: bs) k''

/-- The line carries the response and then the frame, up to sample `k`. -/
def FrameSent (line : Line) (data : Frame) (k : Nat) : Prop :=
  ∃ low ≤ 81, HeldFor line false 0 low ∧ ∃ high ≤ 81, HeldFor line true (low + 1) high ∧
    Carries line (low + high + 2) data.bits k

section Receive

variable {line : Line} {k k' : Nat}

theorem wait_of_highPhase {b : Bool} (h : HighPhase line k b k') :
    decide ((waitOrTimeout line 70 true k).1 > 28) = b ∧
      (waitOrTimeout line 70 true k).2 = k' := by
  cases h with
  | ends h hn =>
    rw [waitOrTimeout_of_heldFor h hn]
    refine ⟨?_, rfl⟩
    rw [decide_eq_decide]
    omega
  | stuck h =>
    rw [waitOrTimeout_of_stuck h]
    exact ⟨rfl, rfl⟩

theorem exists_highPhase (line : Line) (k : Nat) : ∃ b k', HighPhase line k b k' := by
  rcases heldFor_or_stuck line true k 72 with ⟨n, hn, h⟩ | h
  · exact ⟨_, _, .ends h (by omega)⟩
  · exact ⟨_, _, .stuck h⟩

theorem readBits_of_carries {is : List (Fin 40)} {bs : List Bool} (h : Carries line k bs k')
    (hlen : bs.length = is.length) (data : Frame) :
    readBits line is data k = (some (data.setBits (is.zip bs)), k') := by
  induction h generalizing is data with
  | nil k =>
    obtain rfl := List.length_eq_zero_iff.1 hlen.symm
    rfl
  | cons hlow hle hhigh rest ih =>
    rename_i k low k' k'' b bs
    obtain ⟨i, is, rfl⟩ := List.exists_cons_of_length_eq_add_one hlen.symm
    obtain ⟨hb, hk'⟩ := wait_of_highPhase hhigh
    unfold readBits
    rw [waitOrTimeout_of_heldFor hlow hle]
    dsimp only
    rw [if_neg (natCast_ne_timeout low), hk', ih (Nat.succ.inj hlen), ← hb]
    simp [Frame.setBits]

/-- The loop fails exactly at a low phase that does not end. -/
theorem readBits_of_not_carries {is : List (Fin 40)}
    (h : ∀ bs k', bs.length = is.length → ¬ Carries line k bs k') (data : Frame) :
    (readBits line is data k).1 = none := by
  induction is generalizing k data with
  | nil => exact absurd (Carries.nil k) (h [] k rfl)
  | cons i is ih =>
    unfold readBits
    rcases waitOrTimeout_cases line 50 false k with ⟨low, hle, hlow, hwait⟩ | ⟨-, hwait⟩
    · obtain ⟨b, k', hhigh⟩ := exists_highPhase line (k + low + 1)
      rw [hwait]
      dsimp only
      rw [if_neg (natCast_ne_timeout low), (wait_of_highPhase hhigh).2]
      refine ih (fun bs k'' hlen hrest => ?_) _
      exact h (b :: bs) k'' (congrArg Nat.succ hlen) (.cons hlow hle hhigh hrest)
    · rw [hwait]
      rfl

theorem checkResponse_of_heldFor {low high : Nat} (hlow : HeldFor line false 0 low) (hl : low ≤ 81)
    (hhigh : HeldFor line true (low + 1) high) (hh : high ≤ 81) :
    checkResponse line 0 = (.ok, low + high + 2) := by
  unfold checkResponse
  rw [waitOrTimeout_of_heldFor hlow hl]
  dsimp only
  rw [if_neg (natCast_ne_timeout low), Nat.zero_add, waitOrTimeout_of_heldFor hhigh hh]
  dsimp only
  rw [if_neg (natCast_ne_timeout high)]
  congr 1
  omega

theorem checkResponse_cases (line : Line) :
    (∃ low ≤ 81, HeldFor line false 0 low ∧ ∃ high ≤ 81, HeldFor line true (low + 1) high) ∨
      (checkResponse line 0).1 = .timeoutError := by
  unfold checkResponse
  rcases waitOrTimeout_cases line 80 false 0 with ⟨low, hl, hlow, hwait⟩ | ⟨-, hwait⟩
  · rcases waitOrTimeout_cases line 80 true (low + 1) with ⟨high, hh, hhigh, -⟩ | ⟨-, hwait'⟩
    · exact Or.inl ⟨low, hl, hlow, high, hh, hhigh⟩
    · refine Or.inr ?_
      rw [hwait]
      dsimp only
      rw [if_neg (natCast_ne_timeout low), Nat.zero_add, hwait']
      rfl
  · refine Or.inr ?_
    rw [hwait]
    rfl

/-- What `DHT11_read` makes of a frame. -/
def Frame.outcome (data : Frame) : DhtOutcome :=
  if data.Checks then .ok ⟨data 2⟩ ⟨data 0⟩ else .crc

theorem receive_of_sent {data : Frame} (h : FrameSent line data k) :
    receive line = (data.outcome.reading, k) := by
  obtain ⟨low, hl, hlow, high, hh, hhigh, hcarries⟩ := h
  have hbits : readBits line (List.finRange 40) (fun _ => 0#8) (low + high + 2) = _ :=
    readBits_of_carries hcarries (by simp [Frame.bits]) _
  rw [Frame.setBits_bits] at hbits
  unfold receive checkCRC Frame.outcome
  rw [checkResponse_of_heldFor hlow hl hhigh hh]
  dsimp only
  rw [if_neg (by decide), hbits]
  by_cases hsum : data.Checks
  · simp only [if_pos hsum]
    rfl
  · simp only [if_neg hsum]
    rfl

theorem receive_of_not_sent (h : ¬ ∃ data k, FrameSent line data k) :
    (receive line).1 = DhtOutcome.timeout.reading := by
  unfold receive
  rcases checkResponse_cases line with ⟨low, hl, hlow, high, hh, hhigh⟩ | hresponse
  · have hfails : (readBits line (List.finRange 40) (fun _ => 0#8) (low + high + 2)).1 = none := by
      refine readBits_of_not_carries (fun bs k' hlen hcarries => ?_) _
      obtain ⟨data, rfl⟩ := exists_bits_eq (hlen.trans List.length_finRange)
      exact h ⟨data, k', low, hl, hlow, high, hh, hhigh, hcarries⟩
    rw [checkResponse_of_heldFor hlow hl hhigh hh]
    dsimp only
    rw [if_neg (by decide)]
    split
    · rfl
    · next heq =>
      rw [heq] at hfails
      cases hfails
  · dsimp only
    rw [if_pos hresponse]
    rfl

end Receive

/-! ## Every line -/

theorem DhtOutcome.reading_injective : Function.Injective DhtOutcome.reading := by
  intro o o' h
  cases o with
  | ok t u =>
    cases o' with
    | ok t' u' =>
      have ht : (t.toNat : Int) = t'.toNat := congrArg DhtReading.temperature h
      have hu : (u.toNat : Int) = u'.toNat := congrArg DhtReading.humidity h
      rw [UInt8.toNat_inj.1 (Int.ofNat_inj.1 ht), UInt8.toNat_inj.1 (Int.ofNat_inj.1 hu)]
    | timeout => cases congrArg DhtReading.status h
    | crc => cases congrArg DhtReading.status h
  | timeout =>
    cases o' with
    | timeout => rfl
    | ok => cases congrArg DhtReading.status h
    | crc => cases congrArg DhtReading.status h
  | crc =>
    cases o' with
    | crc => rfl
    | ok => cases congrArg DhtReading.status h
    | timeout => cases congrArg DhtReading.status h

/-- **Every line.** A transfer comes to what the frame on the line comes to, and to a timeout
exactly where the line carries none. -/
theorem receive_iff (line : Line) (o : DhtOutcome) :
    (receive line).1 = o.reading ↔
      (∃ data k, FrameSent line data k ∧ o = data.outcome) ∨
        (¬ ∃ data k, FrameSent line data k) ∧ o = .timeout := by
  by_cases hsent : ∃ data k, FrameSent line data k
  · obtain ⟨data, k, h⟩ := hsent
    rw [receive_of_sent h]
    constructor
    · intro heq
      exact Or.inl ⟨data, k, h, (DhtOutcome.reading_injective heq).symm⟩
    · rintro (⟨data', k', h', rfl⟩ | ⟨hnone, -⟩)
      · exact congrArg Prod.fst ((receive_of_sent h).symm.trans (receive_of_sent h'))
      · exact absurd ⟨data, k, h⟩ hnone
  · rw [receive_of_not_sent hsent]
    constructor
    · intro heq
      exact Or.inr ⟨hsent, (DhtOutcome.reading_injective heq).symm⟩
    · rintro (⟨data, k, h, -⟩ | ⟨-, rfl⟩)
      · exact absurd ⟨data, k, h⟩ hsent
      · rfl

/-! ## A sensor that keeps to the timing -/

/-- From sample `k` on the line is the listed samples. -/
def Line.Reads (line : Line) (k : Nat) (samples : List Bool) : Prop :=
  ∀ i (h : i < samples.length), line (k + i) = samples[i]

section Reads

variable {line : Line} {k : Nat}

theorem Line.reads_append_iff {s t : List Bool} :
    line.Reads k (s ++ t) ↔ line.Reads k s ∧ line.Reads (k + s.length) t := by
  constructor
  · intro h
    refine ⟨fun i hi => ?_, fun i hi => ?_⟩
    · rw [h i (by rw [List.length_append]; omega), List.getElem_append_left hi]
    · rw [Nat.add_assoc, h _ (by rw [List.length_append]; omega),
        List.getElem_append_right (Nat.le_add_right _ _)]
      simp
  · rintro ⟨hs, ht⟩ i hi
    by_cases his : i < s.length
    · rw [List.getElem_append_left his, hs i his]
    · rw [List.length_append] at hi
      rw [List.getElem_append_right (by omega), ← ht (i - s.length) (by omega)]
      congr 1
      omega

theorem Line.reads_replicate_iff {n : Nat} {level : Bool} :
    line.Reads k (List.replicate n level) ↔ ∀ i < n, line (k + i) = level := by
  unfold Line.Reads
  simp

end Reads

/-- The samples of the two phases of a bit. -/
structure BitTiming where
  low : Nat
  high : Nat

namespace BitTiming

def samples (t : BitTiming) : List Bool := List.replicate t.low false ++ List.replicate t.high true

/-- The phases are those of the bit. -/
def Tells (t : BitTiming) (b : Bool) : Prop :=
  1 ≤ t.low ∧ t.low ≤ 52 ∧ if b then 30 ≤ t.high ∧ t.high ≤ 72 else 1 ≤ t.high ∧ t.high ≤ 29

end BitTiming

/-- What a sensor sends for a frame: its response, low for up to 81 samples and then high for up to
82, and the bits. -/
structure Transmission (data : Frame) where
  low : Nat
  high : Nat
  timing : Fin 40 → BitTiming
  low_le : low ≤ 81
  high_pos : 1 ≤ high
  high_le : high ≤ 82
  tells : ∀ i, (timing i).Tells (data.bit i)

namespace Transmission

variable {data : Frame} (t : Transmission data)

def response : List Bool := List.replicate t.low false ++ List.replicate t.high true

/-- The samples, with the first of the low phase that ends the transfer. -/
def samples : List Bool :=
  t.response ++ ((List.finRange 40).flatMap (fun i => (t.timing i).samples) ++ [false])

end Transmission

section Timing

variable {line : Line} {t : BitTiming} {b : Bool} {k : Nat}

theorem BitTiming.Tells.high (h : t.Tells b) :
    1 ≤ t.high ∧ t.high ≤ 72 ∧ (28 < t.high - 1 ↔ b) := by
  obtain ⟨-, -, h⟩ := h
  cases b with
  | true =>
    rw [if_pos rfl] at h
    exact ⟨by omega, h.2, iff_of_true (by omega) rfl⟩
  | false =>
    rw [if_neg (by decide)] at h
    exact ⟨h.1, by omega, iff_of_false (by omega) (by decide)⟩

/-- The loop enters a bit one sample late and leaves it one sample into the low phase behind it. -/
theorem phases_of_reads (ht : t.Tells b) (h : line.Reads k t.samples)
    (hend : line (k + t.low + t.high) = false) :
    HeldFor line false (k + 1) (t.low - 1) ∧
      HighPhase line (k + t.low + 1) b (k + t.low + t.high + 1) := by
  obtain ⟨hpos, hle, hb⟩ := ht.high
  have hlow : 1 ≤ t.low := ht.1
  rw [BitTiming.samples, Line.reads_append_iff, Line.reads_replicate_iff,
    Line.reads_replicate_iff, List.length_replicate] at h
  obtain ⟨hlows, hhighs⟩ := h
  have hlast : k + 1 + (t.low - 1) = k + t.low := by omega
  have hnext : k + t.low + 1 + (t.high - 1) = k + t.low + t.high := by omega
  have hlowPhase : HeldFor line false (k + 1) (t.low - 1) := by
    refine ⟨fun j hj => ?_, ?_⟩
    · rw [Nat.add_assoc]
      exact hlows (1 + j) (by omega)
    · rw [hlast]
      exact ne_of_eq_of_ne (hhighs 0 hpos) (by decide)
  have hhighPhase : HeldFor line true (k + t.low + 1) (t.high - 1) := by
    refine ⟨fun j hj => ?_, ?_⟩
    · rw [Nat.add_assoc]
      exact hhighs (1 + j) (by omega)
    · rw [hnext]
      exact ne_of_eq_of_ne hend (by decide)
  have hdecide : decide (28 < t.high - 1) = b := by
    rw [Bool.eq_iff_iff, decide_eq_true_iff]
    exact hb
  have hphase := HighPhase.ends hhighPhase (by omega)
  rw [hnext, hdecide] at hphase
  exact ⟨hlowPhase, hphase⟩

end Timing

theorem carries_of_reads {line : Line} {bit : Fin 40 → Bool} {timing : Fin 40 → BitTiming}
    (htells : ∀ i, (timing i).Tells (bit i)) {is : List (Fin 40)} {k : Nat}
    (h : line.Reads k (is.flatMap (fun i => (timing i).samples) ++ [false])) :
    line k = false ∧ Carries line (k + 1) (is.map bit)
      (k + (is.flatMap (fun i => (timing i).samples) ++ [false]).length) := by
  induction is generalizing k with
  | nil => exact ⟨h 0 (by simp), .nil _⟩
  | cons i is ih =>
    have hlen : (timing i).samples.length = (timing i).low + (timing i).high := by
      simp [BitTiming.samples]
    rw [List.flatMap_cons, List.append_assoc, Line.reads_append_iff, hlen, ← Nat.add_assoc] at h
    obtain ⟨hbit, hrest⟩ := h
    obtain ⟨hend, hcarries⟩ := ih hrest
    obtain ⟨hlowPhase, hhighPhase⟩ := phases_of_reads (htells i) hbit hend
    have hlow : 1 ≤ (timing i).low ∧ (timing i).low ≤ 52 := ⟨(htells i).1, (htells i).2.1⟩
    refine ⟨?_, ?_⟩
    · rw [BitTiming.samples, Line.reads_append_iff, Line.reads_replicate_iff] at hbit
      exact hbit.1 0 hlow.1
    · rw [List.flatMap_cons, List.append_assoc, List.length_append, hlen, ← Nat.add_assoc,
        ← Nat.add_assoc]
      refine .cons hlowPhase (by omega) ?_ hcarries
      rwa [show k + 1 + ((timing i).low - 1) + 1 = k + (timing i).low + 1 by omega]

/-- The response is over and the loop is one sample into the first low phase. -/
theorem sent_of_response {line : Line} {data : Frame} {low high k : Nat} (hl : low ≤ 81)
    (hpos : 1 ≤ high) (hh : high ≤ 82)
    (h : line.Reads 0 (List.replicate low false ++ List.replicate high true))
    (hend : line (low + high) = false) (hcarries : Carries line (low + high + 1) data.bits k) :
    FrameSent line data k := by
  rw [Line.reads_append_iff, Line.reads_replicate_iff, Line.reads_replicate_iff,
    List.length_replicate, Nat.zero_add] at h
  obtain ⟨hlows, hhighs⟩ := h
  have hlast : low + 1 + (high - 1) = low + high := by omega
  refine ⟨low, hl, ⟨hlows, ?_⟩, high - 1, by omega, ⟨fun i hi => ?_, ?_⟩, ?_⟩
  · rw [Nat.zero_add]
    exact ne_of_eq_of_ne (hhighs 0 hpos) (by decide)
  · rw [Nat.add_assoc]
    exact hhighs (1 + i) (by omega)
  · rw [hlast]
    exact ne_of_eq_of_ne hend (by decide)
  · rwa [show low + (high - 1) + 2 = low + high + 1 by omega]

theorem Transmission.sent {data : Frame} (t : Transmission data) {line : Line}
    (h : line.Reads 0 t.samples) : FrameSent line data t.samples.length := by
  have hlen : t.response.length = t.low + t.high := by simp [Transmission.response]
  unfold Transmission.samples at h ⊢
  rw [Line.reads_append_iff, hlen, Nat.zero_add] at h
  obtain ⟨hresponse, hbits⟩ := h
  obtain ⟨hend, hcarries⟩ := carries_of_reads t.tells hbits
  rw [List.length_append, hlen]
  exact sent_of_response t.low_le t.high_pos t.high_le hresponse hend hcarries

/-- **Round trip.** Whatever the lengths of the phases, within the timing: of a frame whose checksum
is the sum of the four bytes the reading is the two bytes sent, any other frame is a checksum error,
and the transfer is read to its end and no further. -/
theorem receive_transmission {data : Frame} (t : Transmission data) {line : Line}
    (h : line.Reads 0 t.samples) : receive line = (data.outcome.reading, t.samples.length) :=
  receive_of_sent (t.sent h)

/-- The samples listed, and then one level for ever. -/
def lineOf (samples : List Bool) (rest : Bool) : Line := fun i => samples.getD i rest

theorem reads_lineOf (samples : List Bool) (rest : Bool) :
    (lineOf samples rest).Reads 0 samples := by
  intro i hi
  simp [lineOf, hi]

/-- Phases of 50 samples low and 27 or 70 high, the lengths of the data sheet at a sample each
microsecond. -/
def nominalTiming (data : Frame) (i : Fin 40) : BitTiming := ⟨50, if data.bit i then 70 else 27⟩

theorem tells_nominalTiming (data : Frame) (i : Fin 40) :
    (nominalTiming data i).Tells (data.bit i) := by
  unfold nominalTiming BitTiming.Tells
  cases data.bit i <;> decide

def nominal (data : Frame) : Transmission data where
  low := 80
  high := 80
  timing := nominalTiming data
  low_le := Nat.le_add_right 80 1
  high_pos := Nat.le_add_left 1 79
  high_le := Nat.le_add_right 80 2
  tells := tells_nominalTiming data

/-- 25 degrees and 50 percent. -/
def mildFrame : Frame
  | 0 => 50
  | 2 => 25
  | 4 => 75
  | _ => 0

theorem receive_nominal :
    (receive (lineOf (nominal mildFrame).samples false)).1 = ⟨.ok, 25, 50⟩ := by
  rw [receive_transmission (nominal mildFrame) (reads_lineOf _ _)]
  unfold Frame.outcome
  rw [if_pos (by decide)]
  rfl

/-! ## How long it takes -/

theorem waitOrTimeout_snd_le (line : Line) (microSeconds : Nat) (level : Bool) (k : Nat) :
    (waitOrTimeout line microSeconds level k).2 ≤ k + (microSeconds + 2) := by
  rcases waitOrTimeout_cases line microSeconds level k with ⟨n, hn, -, hwait⟩ | ⟨-, hwait⟩
  · rw [hwait]
    dsimp only
    omega
  · rw [hwait]
    exact Nat.le_refl _

theorem checkResponse_snd_le (line : Line) (k : Nat) : (checkResponse line k).2 ≤ k + 164 := by
  have hlow := waitOrTimeout_snd_le line 80 false k
  have hhigh := waitOrTimeout_snd_le line 80 true (waitOrTimeout line 80 false k).2
  unfold checkResponse
  dsimp only
  split
  · dsimp only
    omega
  · split <;> (dsimp only; omega)

theorem readBits_snd_le (line : Line) (is : List (Fin 40)) (data : Frame) (k : Nat) :
    (readBits line is data k).2 ≤ k + 124 * is.length := by
  induction is generalizing data k with
  | nil => exact Nat.le_refl k
  | cons i is ih =>
    have hlow := waitOrTimeout_snd_le line 50 false k
    have hhigh := waitOrTimeout_snd_le line 70 true (waitOrTimeout line 50 false k).2
    unfold readBits
    dsimp only
    rw [List.length_cons]
    split
    · dsimp only
      omega
    · exact (ih _ _).trans (by omega)

theorem receive_snd_le (line : Line) : (receive line).2 ≤ 5124 := by
  have hresponse := checkResponse_snd_le line 0
  have hbits := readBits_snd_le line (List.finRange 40) (fun _ => 0#8) (checkResponse line 0).2
  rw [List.length_finRange] at hbits
  unfold receive
  dsimp only
  split
  · dsimp only
    omega
  · split
    · next heq =>
      rw [heq] at hbits
      exact hbits.trans (by omega)
    · next heq =>
      rw [heq] at hbits
      split <;> exact hbits.trans (by omega)

/-- The longest phases of a one. -/
def slowestTiming (_ : Fin 40) : BitTiming := ⟨52, 72⟩

def onesFrame : Frame := fun _ => 255#8

theorem tells_slowestTiming (i : Fin 40) : (slowestTiming i).Tells (onesFrame.bit i) := by
  have hones : ∀ i, onesFrame.bit i = true := by decide
  unfold slowestTiming BitTiming.Tells
  rw [hones]
  decide

/-- The slowest transfer that is not given up. -/
def slowest : Transmission onesFrame where
  low := 81
  high := 82
  timing := slowestTiming
  low_le := Nat.le_refl 81
  high_pos := Nat.le_add_left 1 81
  high_le := Nat.le_refl 82
  tells := tells_slowestTiming

theorem length_samples_slowest : slowest.samples.length = 5124 := by
  have hresponse : slowest.response.length = 163 := by
    unfold Transmission.response
    rw [List.length_append, List.length_replicate, List.length_replicate]
    rfl
  have hbit : ∀ i, (slowest.timing i).samples.length = 124 := fun _ => rfl
  unfold Transmission.samples
  rw [List.length_append, List.length_append, List.length_flatMap, hresponse]
  simp only [hbit, List.map_const', List.length_finRange, List.sum_replicate_nat,
    List.length_singleton]

/-- **A bounded transfer.** However the line behaves, `DHT11_read` samples the pin 5124 times at
most, and there is a line on which it does. -/
theorem receive_bounded :
    (∀ line, (receive line).2 ≤ 5124) ∧ ∃ line, (receive line).2 = 5124 := by
  refine ⟨receive_snd_le, lineOf slowest.samples false, ?_⟩
  rw [receive_of_sent (slowest.sent (reads_lineOf _ _))]
  exact length_samples_slowest

/-! ## A sensor that stops -/

theorem Carries.append {line : Line} {k k' k'' : Nat} {bs cs : List Bool}
    (h : Carries line k bs k') (h' : Carries line k' cs k'') : Carries line k (bs ++ cs) k'' := by
  induction h with
  | nil k => exact h'
  | cons hlow hle hhigh rest ih => exact .cons hlow hle hhigh (ih h')

end GreenHouse
