import OpenRdma.Core.Ring
import OpenRdma.Core.Serial

/-!
# Ring pointers

The pointers into a ring of `2 ^ e` descriptors have `e + 1` bits: an index, and a guard bit above
it that tells a full ring from an empty one.  A `RingPtr` is always below twice the size of the
ring.

`RingPtr.ofPos` reads a position of the stream of all descriptors as a pointer;
**`RingPtr.wrappingAdd_ofPos`**, `index_ofPos` and `eq_ofPos_iff` say how the operations act on
positions.
-/

namespace OpenRdma

/-- The error of a CSR access. -/
inductive CsrError where
  | failed
deriving DecidableEq, Repr

/-- The CSRs of one ring, as the card has them, and whether an access succeeds. -/
structure RingCsr where
  head : UInt32
  tail : UInt32
  ok : Bool
deriving DecidableEq, Repr

/-- A ring of `2 ^ elementNumExp` elements; its pointers fit into 32 bits. -/
structure RingSpec where
  elementNumExp : ℕ
  fits : elementNumExp < 31

namespace RingSpec

def elementNum (spec : RingSpec) : ℕ := 2 ^ spec.elementNumExp

instance (spec : RingSpec) : NeZero spec.elementNum := ⟨(Nat.two_pow_pos _).ne'⟩

/-- The rings of the card's queues have `2 ^ 12` elements. -/
lemma twelve_fits : 12 < 31 := by decide

lemma elementNum_pos (spec : RingSpec) : 0 < spec.elementNum := Nat.two_pow_pos _

lemma two_mul_dvd (spec : RingSpec) : 2 * spec.elementNum ∣ 2 ^ 32 := by
  rw [elementNum, ← pow_succ']
  exact pow_dvd_pow 2 (by have := spec.fits; omega)

lemma elementNum_lt (spec : RingSpec) : 2 * spec.elementNum < 2 ^ 32 := by
  have h := Nat.pow_lt_pow_right (a := 2) (by omega) spec.fits
  rw [elementNum]
  omega

end RingSpec

/-- A ring of two descriptors. -/
def pairSpec : RingSpec := ⟨1, by decide⟩

/-- `RingPtr<Spec>`: the mask is applied whenever one is made. -/
structure RingPtr (spec : RingSpec) where
  raw : UInt32
  lt : raw.toNat < 2 * spec.elementNum

namespace RingPtr

variable {spec : RingSpec}

instance : DecidableEq (RingPtr spec) := fun a b =>
  decidable_of_iff (a.raw = b.raw) ⟨fun h => by cases a; cases b; simpa using h, fun h => h ▸ rfl⟩

def bufSize (spec : RingSpec) : UInt32 := UInt32.ofNat spec.elementNum
def bufSizeMask (spec : RingSpec) : UInt32 := bufSize spec - 1
def hwPtrMask (spec : RingSpec) : UInt32 := bufSize spec * 2 - 1

lemma bufSize_toNat (spec : RingSpec) : (bufSize spec).toNat = spec.elementNum := by
  have := spec.elementNum_lt
  rw [bufSize, UInt32.toNat_ofNat', Nat.mod_eq_of_lt (by omega)]

lemma bufSizeMask_toNat (spec : RingSpec) :
    (bufSizeMask spec).toNat = 2 ^ spec.elementNumExp - 1 := by
  have hpos := spec.elementNum_pos
  have hle : (1 : UInt32) ≤ bufSize spec := by
    rw [UInt32.le_iff_toNat_le, bufSize_toNat]
    exact hpos
  rw [bufSizeMask, UInt32.toNat_sub_of_le _ _ hle, bufSize_toNat]
  rfl

lemma hwPtrMask_toNat (spec : RingSpec) :
    (hwPtrMask spec).toNat = 2 ^ (spec.elementNumExp + 1) - 1 := by
  have hlt := spec.elementNum_lt
  have hpos := spec.elementNum_pos
  have hmul : (bufSize spec * 2).toNat = 2 * spec.elementNum := by
    rw [UInt32.toNat_mul, bufSize_toNat, show (2 : UInt32).toNat = 2 from rfl,
      Nat.mod_eq_of_lt (by omega), Nat.mul_comm]
  have hle : (1 : UInt32) ≤ bufSize spec * 2 := by
    rw [UInt32.le_iff_toNat_le, hmul]
    show 1 ≤ _
    omega
  rw [hwPtrMask, UInt32.toNat_sub_of_le _ _ hle, hmul, pow_succ, Nat.mul_comm]
  rfl

/-- Masking with the low bits is taking the remainder. -/
lemma and_mask_toNat (x : UInt32) {m : UInt32} {j : ℕ} (hm : m.toNat = 2 ^ j - 1) :
    (x &&& m).toNat = x.toNat % 2 ^ j := by
  rw [UInt32.toNat_and, hm, Nat.and_two_pow_sub_one_eq_mod]

lemma masked_lt (x : UInt32) : (x &&& hwPtrMask spec).toNat < 2 * spec.elementNum := by
  rw [and_mask_toNat x (hwPtrMask_toNat spec), pow_succ, Nat.mul_comm]
  exact Nat.mod_lt _ (by have := spec.elementNum_pos; rw [RingSpec.elementNum] at this; omega)

def new (raw : UInt32) : RingPtr spec := ⟨raw &&& hwPtrMask spec, masked_lt raw⟩

def zero : RingPtr spec := new 0

def index (p : RingPtr spec) : UInt32 := p.raw &&& bufSizeMask spec

def wrappingAdd (p : RingPtr spec) (rhs : UInt32) : RingPtr spec := new (p.raw + rhs)

def wrappingSub (p rhs : RingPtr spec) : UInt32 := (p.raw - rhs.raw) &&& hwPtrMask spec

def hasSameIndex (p rhs : RingPtr spec) : Bool := p.index == rhs.index

def hasSameRaw (p rhs : RingPtr spec) : Bool := p.raw == rhs.raw

lemma index_toNat (p : RingPtr spec) : p.index.toNat = p.raw.toNat % spec.elementNum :=
  and_mask_toNat p.raw (bufSizeMask_toNat spec)

/-- The slot that the pointer is at. -/
def slot (p : RingPtr spec) : Fin spec.elementNum :=
  ⟨p.index.toNat, by rw [index_toNat]; exact Nat.mod_lt _ spec.elementNum_pos⟩

/-! ## Positions -/

@[ext] lemma ext_toNat {p q : RingPtr spec} (h : p.raw.toNat = q.raw.toNat) : p = q := by
  cases p
  cases q
  congr
  exact UInt32.toNat_inj.mp h

/-- The pointer to a position of the stream. -/
def ofPos (spec : RingSpec) (n : ℕ) : RingPtr spec := new (UInt32.ofNat (n % (2 * spec.elementNum)))

lemma new_toNat (x : UInt32) :
    (new x : RingPtr spec).raw.toNat = x.toNat % (2 * spec.elementNum) := by
  rw [new, and_mask_toNat x (hwPtrMask_toNat spec), pow_succ, Nat.mul_comm]
  rfl

@[simp] lemma ofPos_toNat (n : ℕ) : (ofPos spec n).raw.toNat = n % (2 * spec.elementNum) := by
  have hlt := spec.elementNum_lt
  have hmod := Nat.mod_lt n (show 0 < 2 * spec.elementNum by have := spec.elementNum_pos; omega)
  rw [ofPos, new_toNat, UInt32.toNat_ofNat', Nat.mod_eq_of_lt (a := n % _) (by omega), Nat.mod_mod]

lemma zero_eq_ofPos : (zero : RingPtr spec) = ofPos spec 0 := by
  ext
  rw [zero, new_toNat, ofPos_toNat]
  rfl

/-- **Adding moves the position.** -/
lemma wrappingAdd_ofPos (n : ℕ) (k : UInt32) :
    (ofPos spec n).wrappingAdd k = ofPos spec (n + k.toNat) := by
  ext
  rw [wrappingAdd, new_toNat, UInt32.toNat_add, Nat.mod_mod_of_dvd _ spec.two_mul_dvd, ofPos_toNat,
    ofPos_toNat, Nat.mod_add_mod]

lemma index_ofPos (n : ℕ) : (ofPos spec n).index.toNat = n % spec.elementNum := by
  rw [index_toNat, ofPos_toNat, Nat.mod_mod_of_dvd _ (Nat.dvd_mul_left _ _)]

lemma slot_ofPos (n : ℕ) : (ofPos spec n).slot = slotOf spec.elementNum n := by
  rw [slot, slotOf, Fin.mk.injEq, index_ofPos]

lemma ofPos_eq_iff {n m : ℕ} :
    ofPos spec n = ofPos spec m ↔ n % (2 * spec.elementNum) = m % (2 * spec.elementNum) := by
  refine ⟨fun h => ?_, fun h => ext_toNat (by rw [ofPos_toNat, ofPos_toNat, h])⟩
  rw [← ofPos_toNat, ← ofPos_toNat, h]

lemma hasSameRaw_iff {p q : RingPtr spec} : p.hasSameRaw q = true ↔ p = q := by
  rw [hasSameRaw, beq_iff_eq]
  exact ⟨fun h => ext_toNat (by rw [h]), fun h => by rw [h]⟩

lemma hasSameIndex_ofPos {n m : ℕ} : (ofPos spec n).hasSameIndex (ofPos spec m) = true ↔
    n % spec.elementNum = m % spec.elementNum := by
  rw [hasSameIndex, beq_iff_eq, ← UInt32.toNat_inj, index_ofPos, index_ofPos]

/-- Two positions at most one round apart have equal pointers only if they are equal. -/
lemma ofPos_inj_of_le {t h : ℕ} (hth : t ≤ h) (hht : h ≤ t + spec.elementNum) :
    ofPos spec h = ofPos spec t ↔ h = t := by
  refine ⟨fun heq => ?_, fun heq => by rw [heq]⟩
  rw [ofPos_eq_iff] at heq
  have hdvd : 2 * spec.elementNum ∣ h - t := (Nat.modEq_iff_dvd' hth).mp heq.symm
  rcases Nat.eq_zero_or_pos (h - t) with h0 | hpos
  · omega
  · have := Nat.le_of_dvd hpos hdvd
    have := spec.elementNum_pos
    omega

lemma new_raw (p : RingPtr spec) : new p.raw = p := by
  ext
  rw [new_toNat, Nat.mod_eq_of_lt p.lt]

/-- The distance of two positions at most one round apart. -/
lemma wrappingSub_ofPos {t h : ℕ} (hth : t ≤ h) (hht : h ≤ t + spec.elementNum) :
    ((ofPos spec h).wrappingSub (ofPos spec t)).toNat = h - t := by
  have hN := spec.elementNum_lt
  have hpos := spec.elementNum_pos
  have hdvd := spec.two_mul_dvd
  have htlt : t % (2 * spec.elementNum) < 2 * spec.elementNum := Nat.mod_lt _ (by omega)
  rw [wrappingSub, and_mask_toNat _ (hwPtrMask_toNat spec), pow_succ, Nat.mul_comm (2 ^ _) 2]
  change (_ % (2 * spec.elementNum)) = _
  refine Nat.ModEq.eq_of_lt_of_lt ?_ (Nat.mod_lt _ (by omega))
    (by omega : h - t < 2 * spec.elementNum)
  refine (Nat.mod_modEq _ _).trans ?_
  rw [UInt32.toNat_sub, ofPos_toNat, ofPos_toNat]
  refine ((Nat.mod_modEq _ (2 ^ 32)).of_dvd hdvd).trans ?_
  refine Nat.ModEq.add_right_cancel (c := t % (2 * spec.elementNum)) (d := t) (Nat.mod_modEq _ _) ?_
  rw [show 2 ^ 32 - t % (2 * spec.elementNum) + h % (2 * spec.elementNum) +
    t % (2 * spec.elementNum) =
      2 ^ 32 + h % (2 * spec.elementNum) by omega, show h - t + t = 0 + h by omega]
  exact (Nat.modEq_zero_iff_dvd.mpr hdvd).add (Nat.mod_modEq h _)

end RingPtr

end OpenRdma
