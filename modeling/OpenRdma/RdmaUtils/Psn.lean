import OpenRdma.Core.Serial

/-!
# Packet and message sequence numbers

`Psn` wraps a `u32` of which the driver only uses 24 bits: every arithmetic operation masks its
result, but the constructor does not, so a `Psn` is an arbitrary `u32` and the mask is part of
each operation rather than of the type.  `Msn` wraps a `u16` and wraps around at the width of
its own type.

Both are compared by their wrapped difference, and both comparisons are `serialCmp`
(`Psn.cmp_eq`, `Msn.cmp_eq`).  `Psn.ofPos` and `msnAt` read an unbounded stream position as a
sequence number; `Psn.le_ofPos`, `Psn.lt_ofPos` and `Msn.lt_msnAt` are the form in which the
rest of the development consumes the comparison.
-/

namespace OpenRdma

/-! ## Constants -/

/-- Maximum number of bits used to represent a PSN. -/
def maxPsnSizeBits : ℕ := 24
/-- Maximum number of outstanding PSNs: half the circle. -/
def maxPsnWindow : ℕ := 1 <<< (maxPsnSizeBits - 1)
/-- Bit mask used to extract the PSN value from a 32-bit number. -/
def psnMask : UInt32 := 0xFFFFFF
/-- Maximum number of outstanding send work requests. -/
def maxSendWr : ℕ := 0x8000

/-! ## Packet sequence numbers -/

/-- A packet sequence number, of 24 bits. -/
structure Psn where
  val : UInt32
deriving DecidableEq, Repr, Inhabited

namespace Psn

instance : HAdd Psn UInt32 Psn := ⟨fun p n => ⟨(p.val + n) &&& psnMask⟩⟩
instance : HAdd Psn Psn Psn := ⟨fun p q => ⟨(p.val + q.val) &&& psnMask⟩⟩
instance : HSub Psn UInt32 Psn := ⟨fun p n => ⟨(p.val - n) &&& psnMask⟩⟩
instance : HSub Psn Psn Psn := ⟨fun p q => ⟨(p.val - q.val) &&& psnMask⟩⟩

/-- `Ord for Psn`. -/
def cmp (p q : Psn) : Ordering :=
  let x := (p.val - q.val) &&& psnMask
  if x = 0 then .eq else if x.toNat > maxPsnWindow then .lt else .gt

instance : LT Psn := ⟨fun p q => cmp p q = .lt⟩
instance : LE Psn := ⟨fun p q => cmp p q ≠ .gt⟩
instance (p q : Psn) : Decidable (p < q) := inferInstanceAs (Decidable (cmp p q = .lt))
instance (p q : Psn) : Decidable (p ≤ q) := inferInstanceAs (Decidable (cmp p q ≠ .gt))

/-- The PSN carried by the packet at position `n` of a stream that starts at PSN 0. -/
def ofPos (n : ℕ) : Psn := ⟨UInt32.ofNat (n % 2 ^ 24)⟩

/-- A PSN as the hardware reports it: 24 bits. -/
def InRange (p : Psn) : Prop := p.val.toNat < 2 ^ 24

instance (p : Psn) : Decidable p.InRange := inferInstanceAs (Decidable (_ < _))

lemma mask_toNat (x : UInt32) : (x &&& psnMask).toNat = x.toNat % 2 ^ 24 := by
  rw [UInt32.toNat_and, show psnMask.toNat = 2 ^ 24 - 1 from rfl, Nat.and_two_pow_sub_one_eq_mod]

lemma ext_toNat {p q : Psn} (h : p.val.toNat = q.val.toNat) : p = q := by
  cases p; cases q; simpa [UInt32.toNat_inj] using h

@[simp] lemma ofPos_val (n : ℕ) : (ofPos n).val.toNat = n % 2 ^ 24 := by
  have h : n % 2 ^ 24 < 2 ^ 32 := by omega
  simp only [ofPos, UInt32.toNat_ofNat']
  exact Nat.mod_eq_of_lt h

lemma ofPos_inRange (n : ℕ) : (ofPos n).InRange := by
  rw [InRange, ofPos_val]; omega

/-- Every 24-bit PSN is the PSN of its own value. -/
lemma ofPos_toNat {p : Psn} (h : p.InRange) : ofPos p.val.toNat = p :=
  ext_toNat (by rw [ofPos_val]; exact Nat.mod_eq_of_lt h)

lemma add_val (p : Psn) (n : UInt32) : (p + n).val.toNat = (p.val.toNat + n.toNat) % 2 ^ 24 := by
  show ((p.val + n) &&& psnMask).toNat = _
  rw [mask_toNat, UInt32.toNat_add]
  omega

lemma sub_val (p q : Psn) : (p - q).val.toNat = (p.val.toNat + 2 ^ 32 - q.val.toNat) % 2 ^ 24 := by
  have hq := q.val.toNat_lt
  show ((p.val - q.val) &&& psnMask).toNat = _
  rw [mask_toNat, UInt32.toNat_sub]
  omega

/-- Advancing a position advances its PSN. -/
lemma ofPos_add (n : ℕ) (k : UInt32) : ofPos n + k = ofPos (n + k.toNat) := by
  refine ext_toNat ?_
  rw [add_val, ofPos_val, ofPos_val]
  omega

lemma ofPos_add_ofNat (n k : ℕ) : ofPos n + UInt32.ofNat k = ofPos (n + k) := by
  refine ext_toNat ?_
  rw [add_val, ofPos_val, ofPos_val, UInt32.toNat_ofNat']
  omega

lemma ofPos_eq_iff {n m : ℕ} : ofPos n = ofPos m ↔ n % 2 ^ 24 = m % 2 ^ 24 := by
  refine ⟨fun h => ?_, fun h => ext_toNat (by rw [ofPos_val, ofPos_val, h])⟩
  have := congrArg (fun p : Psn => p.val.toNat) h
  simpa using this

/-- The masked comparison is the serial comparison of the two low 24-bit parts. -/
lemma cmp_eq (p q : Psn) :
    cmp p q = serialCmp (2 ^ 23) (p.val.toNat % 2 ^ 24) (q.val.toNat % 2 ^ 24) := by
  have hq := q.val.toNat_lt
  have hx : ((p.val - q.val) &&& psnMask).toNat
      = (p.val.toNat % 2 ^ 24 + 2 * 2 ^ 23 - q.val.toNat % 2 ^ 24) % (2 * 2 ^ 23) := by
    rw [mask_toNat, UInt32.toNat_sub]
    omega
  simp only [cmp, serialCmp, ← hx, maxPsnWindow, maxPsnSizeBits]
  have h0 : ((p.val - q.val) &&& psnMask) = 0 ↔ ((p.val - q.val) &&& psnMask).toNat = 0 := by
    rw [← UInt32.toNat_inj]; rfl
  simp only [h0]
  rfl

/-- **Positions inside the half-circle window are ordered by their PSNs.** -/
lemma cmp_ofPos {n m : ℕ} (h : SerialNear (2 ^ 23) n m) :
    cmp (ofPos n) (ofPos m) = compare n m := by
  rw [cmp_eq, ofPos_val, ofPos_val, Nat.mod_mod, Nat.mod_mod]
  exact serialCmp_mod (by norm_num) h

lemma le_ofPos {n m : ℕ} (h : SerialNear (2 ^ 23) n m) : ofPos n ≤ ofPos m ↔ n ≤ m := by
  show cmp (ofPos n) (ofPos m) ≠ .gt ↔ n ≤ m
  rw [cmp_ofPos h, Ne, Nat.compare_eq_gt]
  omega

lemma lt_ofPos {n m : ℕ} (h : SerialNear (2 ^ 23) n m) : ofPos n < ofPos m ↔ n < m := by
  show cmp (ofPos n) (ofPos m) = .lt ↔ n < m
  rw [cmp_ofPos h, Nat.compare_eq_lt]

end Psn

/-! ## Message sequence numbers -/

/-- A message sequence number. -/
structure Msn where
  val : UInt16
deriving DecidableEq, Repr

namespace Msn

/-- `PartialOrd for Msn`. -/
def cmp (a b : Msn) : Ordering :=
  let x := a.val - b.val
  if x = 0 then .eq else if x.toNat > maxSendWr then .lt else .gt

instance : LT Msn := ⟨fun a b => cmp a b = .lt⟩
instance (a b : Msn) : Decidable (a < b) := inferInstanceAs (Decidable (cmp a b = .lt))

end Msn

/-- The MSN of message `i` of a stream whose first message carries `m₀`. -/
def msnAt (m₀ : UInt16) (i : ℕ) : UInt16 := m₀ + UInt16.ofNat i

lemma msnAt_sub (m₀ : UInt16) (i j : ℕ) :
    (msnAt m₀ i - msnAt m₀ j).toNat = (i % 2 ^ 16 + 2 ^ 16 - j % 2 ^ 16) % 2 ^ 16 := by
  have h0 := m₀.toNat_lt
  simp only [msnAt, UInt16.toNat_sub, UInt16.toNat_add, UInt16.toNat_ofNat']
  omega

namespace Msn

/-- The wrapped comparison is the serial comparison of the message numbers. -/
lemma cmp_msnAt_eq (m₀ : UInt16) (i j : ℕ) :
    cmp ⟨msnAt m₀ i⟩ ⟨msnAt m₀ j⟩ = serialCmp (2 ^ 15) (i % 2 ^ 16) (j % 2 ^ 16) := by
  have hx : (msnAt m₀ i - msnAt m₀ j).toNat
      = (i % 2 ^ 16 + 2 * 2 ^ 15 - j % 2 ^ 16) % (2 * 2 ^ 15) := msnAt_sub m₀ i j
  have h0 : msnAt m₀ i - msnAt m₀ j = 0 ↔ (msnAt m₀ i - msnAt m₀ j).toNat = 0 := by
    rw [← UInt16.toNat_inj]; rfl
  simp only [cmp, serialCmp, ← hx, h0, maxSendWr]
  rfl

/-- **Messages inside the half-circle window are ordered by their MSNs.** -/
lemma cmp_msnAt (m₀ : UInt16) {i j : ℕ} (h : SerialNear (2 ^ 15) i j) :
    cmp ⟨msnAt m₀ i⟩ ⟨msnAt m₀ j⟩ = compare i j := by
  rw [cmp_msnAt_eq]
  exact serialCmp_mod (by norm_num) h

lemma lt_msnAt (m₀ : UInt16) {i j : ℕ} (h : SerialNear (2 ^ 15) i j) :
    (⟨msnAt m₀ i⟩ : Msn) < ⟨msnAt m₀ j⟩ ↔ i < j := by
  show cmp ⟨msnAt m₀ i⟩ ⟨msnAt m₀ j⟩ = .lt ↔ i < j
  rw [cmp_msnAt m₀ h, Nat.compare_eq_lt]

end Msn

/-- Inside the window two messages share an MSN only if they are the same message. -/
lemma msnAt_inj (m₀ : UInt16) {i j : ℕ} (h : SerialNear (2 ^ 15) i j) :
    msnAt m₀ i = msnAt m₀ j ↔ i = j := by
  refine ⟨fun he => ?_, fun he => by rw [he]⟩
  have hc := Msn.cmp_msnAt m₀ h
  rw [he] at hc
  have heq : Msn.cmp ⟨msnAt m₀ j⟩ ⟨msnAt m₀ j⟩ = .eq := by simp [Msn.cmp]
  exact Nat.compare_eq_eq.mp (hc.symm.trans heq)

end OpenRdma
