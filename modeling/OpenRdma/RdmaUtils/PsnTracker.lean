import OpenRdma.Core.BitWindow
import OpenRdma.RdmaUtils.Psn

/-!
# The acknowledgement window of a queue pair

`PsnTracker` keeps the first PSN not known to be acknowledged and a bit window over the PSNs
from there on.  `LocalAckTracker` (receive side) and `RemoteAckTracker` (send side) drive it from
the acknowledgements the hardware and the peer report.

Every operation turns its PSN arguments into offsets from the base (`rstart`) and then works on
the bit window alone.  `rstart_eq` is the closed form of that offset: it takes the *unmasked*
`u32` difference and sign-extends from bit 23, which gives the signed distance as long as the
argument does not lie ahead of the base on the other side of the wrap point.

The second half reads a tracker against an unbounded stream: `Tracks t B f` says that its base is
stream position `B` and that its bits are those of `f` from there on.  `tryAdvance_tracks` and
`ackOne_tracks` say how the operations move that reading.
-/

namespace OpenRdma

/-! ## The operations -/

/-- The acknowledged packets: a base, and the bits after it. -/
structure PsnTracker where
  basePsn : Psn
  inner : List Bool
deriving DecidableEq, Repr

instance : Inhabited PsnTracker := ⟨⟨⟨0⟩, []⟩⟩

/-- `usize::try_from` on an `i32`. -/
def usizeTryFrom (i : ℤ) : Option ℕ := if 0 ≤ i then some i.toNat else none

namespace PsnTracker

/-- Offset of `psn` from the base of the window, as an `i32`. -/
def rstart (t : PsnTracker) (psn : Psn) : ℤ :=
  let x := psn.val - t.basePsn.val
  if ((x >>> 23) &&& 1) ≠ 0 then (x ||| 0xFF000000).toInt32.toInt else x.toInt32.toInt

/-- Advance the base past the leading acknowledged PSNs. -/
def tryAdvance (t : PsnTracker) : PsnTracker × Option Psn :=
  let pos := (firstZero t.inner).getD t.inner.length
  if pos = 0 then (t, none)
  else
    let basePsn := t.basePsn + UInt32.ofNat pos
    (⟨basePsn, shiftLeft t.inner pos⟩, some basePsn)

/-- Acknowledges all PSNs before the given PSN. -/
def ackBefore (t : PsnTracker) (psn : Psn) : PsnTracker × Option Psn :=
  match usizeTryFrom (t.rstart psn) with
  | none => (t, none)
  | some rstart =>
    let inner := if rstart ≥ t.inner.length then fillFalse t.inner else shiftLeft t.inner rstart
    (⟨psn, inner⟩, some psn)

/-- Acknowledges a single PSN. -/
def ackOne (t : PsnTracker) (psn : Psn) : PsnTracker × Option Psn :=
  match usizeTryFrom (t.rstart psn) with
  | none => (t, none)
  | some rstart =>
    let inner := if rstart ≥ t.inner.length then resize t.inner (rstart + 1) false else t.inner
    tryAdvance { t with inner := inner.set rstart true }

/-- Acknowledges the 128 PSNs from `nowPsn` on that `bitmap` marks. -/
def ackBitmap (t : PsnTracker) (nowPsn : Psn) (bitmap : BitVec 128) : PsnTracker × Option Psn :=
  let rstart := t.rstart nowPsn
  let rend := rstart + 128
  let inner := match usizeTryFrom rend with
    | some x => if x > t.inner.length then resize t.inner x false else t.inner
    | none => t.inner
  -- `for i in rstart.max(0)..rend`
  let lo := max rstart 0
  let inner := setWhere (fun i => (bitmap >>> ((i : ℤ) - rstart).toNat) &&& 1 == 1)
    inner lo.toNat (rend - lo).toNat
  tryAdvance { t with inner := inner }

/-- Acknowledges the PSNs from `psnLow` to `psnHigh` (exclusive). -/
def ackRange (t : PsnTracker) (psnLow psnHigh : Psn) : PsnTracker × Option Psn :=
  if psnLow ≤ t.basePsn then t.ackBefore psnHigh
  else
    match usizeTryFrom (t.rstart psnLow), usizeTryFrom (t.rstart psnHigh) with
    | some rstart, some rend =>
      let inner := if rend ≥ t.inner.length then resize t.inner (rend + 1) false else t.inner
      ({ t with inner := setWhere (fun _ => true) inner rstart (rend - rstart) }, none)
    | _, _ => (t, none)

end PsnTracker

/-- The packets received. -/
structure LocalAckTracker where
  psnTracker : PsnTracker
  psnPre : Psn
deriving DecidableEq, Repr, Inhabited

namespace LocalAckTracker

def ackOne (t : LocalAckTracker) (psn : Psn) : LocalAckTracker × Option Psn :=
  let (tr, r) := t.psnTracker.ackOne psn
  ({ t with psnTracker := tr }, r)

def ackBitmap (t : LocalAckTracker) (basePsn : Psn) (bitmap : BitVec 128) :
    LocalAckTracker × Option Psn :=
  let (tr, x) := t.psnTracker.ackRange t.psnPre basePsn
  let (tr, y) := tr.ackBitmap basePsn bitmap
  (⟨tr, if t.psnPre < basePsn then basePsn else t.psnPre⟩, y.or x)

def nakBitmap (t : LocalAckTracker) (psnPre : Psn) (preBitmap : BitVec 128) (psnNow : Psn)
    (nowBitmap : BitVec 128) : LocalAckTracker × Option Psn :=
  let (tr, x) := t.psnTracker.ackRange t.psnPre psnPre
  let (tr, y) := tr.ackBitmap psnPre preBitmap
  let (tr, z) := tr.ackBitmap psnNow nowBitmap
  (⟨tr, if t.psnPre < psnNow then psnNow else t.psnPre⟩, (z.or y).or x)

def basePsn (t : LocalAckTracker) : Psn := t.psnTracker.basePsn

end LocalAckTracker

/-- The packets that the peer has received. -/
structure RemoteAckTracker where
  psnTracker : PsnTracker
  msnPre : UInt16
  psnPre : Psn
deriving DecidableEq, Repr, Inhabited

namespace RemoteAckTracker

def ackBefore (t : RemoteAckTracker) (psn : Psn) : RemoteAckTracker × Option Psn :=
  let (tr, r) := t.psnTracker.ackBefore psn
  ({ t with psnTracker := tr }, r)

def nakBitmap (t : RemoteAckTracker) (msn : UInt16) (psnPre : Psn) (preBitmap : BitVec 128)
    (psnNow : Psn) (nowBitmap : BitVec 128) : RemoteAckTracker × Option Psn :=
  let (tr, x) := if msn = t.msnPre + 1 then t.psnTracker.ackRange t.psnPre psnPre
    else (t.psnTracker, none)
  let (tr, y) := tr.ackBitmap psnPre preBitmap
  let (tr, z) := tr.ackBitmap psnNow nowBitmap
  let t' : RemoteAckTracker := { t with psnTracker := tr }
  (if t.psnPre < psnNow then { t' with psnPre := psnNow, msnPre := msn } else t', (z.or y).or x)

end RemoteAckTracker

/-! ## The offset -/

lemma toInt32_toInt (x : UInt32) :
    x.toInt32.toInt = if x.toNat < 2 ^ 31 then (x.toNat : ℤ) else x.toNat - 2 ^ 32 := by
  simp only [Int32.toInt, UInt32.toBitVec_toInt32, BitVec.toInt_eq_toNat_cond,
    UInt32.toNat_toBitVec]
  split <;> split <;> omega

lemma or_high_byte (x : UInt32) : (x ||| 0xFF000000).toNat = 0xFF000000 + x.toNat % 2 ^ 24 := by
  have hx := x.toNat_lt
  have hlow : (x.toNat ||| 0xFF000000) % 2 ^ 24 = x.toNat % 2 ^ 24 := by
    rw [Nat.or_mod_two_pow]; simp
  have hhigh : (x.toNat ||| 0xFF000000) / 2 ^ 24 = 255 := by
    rw [Nat.or_div_two_pow]
    have : x.toNat / 2 ^ 24 < 256 := by omega
    interval_cases (x.toNat / 2 ^ 24) <;> rfl
  have hsum := Nat.div_add_mod (x.toNat ||| 0xFF000000) (2 ^ 24)
  have hval : (0xFF000000 : UInt32).toNat = 0xFF000000 := rfl
  rw [UInt32.toNat_or, hval]
  omega

lemma bit23_iff (x : UInt32) : ((x >>> 23) &&& 1) ≠ 0 ↔ 2 ^ 23 ≤ x.toNat % 2 ^ 24 := by
  have h1 : (1 : UInt32).toNat = 2 ^ 1 - 1 := rfl
  have h23 : (23 : UInt32).toNat % 32 = 23 := rfl
  have h0 : (0 : UInt32).toNat = 0 := rfl
  rw [Ne, ← UInt32.toNat_inj, UInt32.toNat_and, UInt32.toNat_shiftRight, h1,
    Nat.and_two_pow_sub_one_eq_mod, h23, h0, Nat.shiftRight_eq_div_pow]
  omega

/-- Testing a bit of a bitmap by a shift. -/
lemma shiftRight_and_one (bitmap : BitVec 128) (n : ℕ) :
    ((bitmap >>> n) &&& 1 == 1) = bitmap.getLsbD n := by
  have hone : ∀ b : BitVec 128, (b &&& 1 == 1) = b.getLsbD 0 := by
    intro b
    rw [Bool.eq_iff_iff, beq_iff_eq]
    constructor
    · intro h
      have := congrArg (·.getLsbD 0) h
      simpa using this
    · intro h
      ext i hi
      rcases Nat.eq_zero_or_pos i with rfl | hpos
      · simpa using h
      · simp [Nat.pos_iff_ne_zero.1 hpos, BitVec.getElem_one]
  rw [hone]
  simp

namespace PsnTracker

variable {t : PsnTracker}

/-- **The offset in closed form.**  It is the difference of the two numbers, folded back by one
circle when it is `2 ^ 23` or more — and never folded *forward*, so an argument numerically far
below the base comes out far negative even when it lies just ahead of it across the wrap. -/
theorem rstart_eq {psn : Psn} (hb : t.basePsn.InRange) (hp : psn.InRange) :
    t.rstart psn
      = if t.basePsn.val.toNat + 2 ^ 23 ≤ psn.val.toNat
        then (psn.val.toNat : ℤ) - t.basePsn.val.toNat - 2 ^ 24
        else (psn.val.toNat : ℤ) - t.basePsn.val.toNat := by
  unfold Psn.InRange at hb hp
  have hx : (psn.val - t.basePsn.val).toNat
      = (2 ^ 32 - t.basePsn.val.toNat + psn.val.toNat) % 2 ^ 32 := UInt32.toNat_sub _ _
  simp only [rstart, bit23_iff, toInt32_toInt, or_high_byte]
  split <;> split <;> split <;> omega

/-! ## What an operation does to the bits -/

lemma usizeTryFrom_eq_some {i : ℤ} {n : ℕ} (h : usizeTryFrom i = some n) : (n : ℤ) = i := by
  unfold usizeTryFrom at h
  split at h
  · have := Option.some.inj h
    omega
  · exact absurd h (by simp)

/-- **What a bitmap does**: the window takes on the marked bits that are not behind the base, and
then the base advances. -/
lemma ackBitmap_eq (t : PsnTracker) (psn : Psn) (bitmap : BitVec 128) :
    ∃ inner, t.ackBitmap psn bitmap = tryAdvance { t with inner := inner } ∧
      ∀ i : ℕ, bitAt inner i = (bitAt t.inner i ||
        (decide (t.rstart psn ≤ i) && bitmap.getLsbD ((i : ℤ) - t.rstart psn).toNat)) := by
  have hloop : ∀ grown : List Bool, (∀ i, bitAt grown i = bitAt t.inner i) →
      (t.rstart psn + 128).toNat ≤ grown.length → ∀ i : ℕ,
      bitAt (setWhere (fun i => (bitmap >>> ((i : ℤ) - t.rstart psn).toNat) &&& 1 == 1) grown
        (max (t.rstart psn) 0).toNat (t.rstart psn + 128 - max (t.rstart psn) 0).toNat) i =
        (bitAt t.inner i ||
          (decide (t.rstart psn ≤ i) && bitmap.getLsbD ((i : ℤ) - t.rstart psn).toNat)) := by
    intro grown hgrow hlen i
    rcases lt_or_ge (t.rstart psn + 128) 0 with hneg | hpos
    · -- the whole bitmap is behind the base
      rw [show (t.rstart psn + 128 - max (t.rstart psn) 0).toNat = 0 by omega,
        BitVec.getLsbD_of_ge _ _ (by omega), Bool.and_false, Bool.or_false, ← hgrow]
      rfl
    · rw [bitAt_setWhere _ (by omega), hgrow, shiftRight_and_one]
      congr 1
      rw [Bool.eq_iff_iff]
      simp only [Bool.and_eq_true, decide_eq_true_eq]
      constructor
      · rintro ⟨⟨h1, -⟩, h3⟩
        exact ⟨by omega, h3⟩
      · rintro ⟨h1, h2⟩
        have hlt : ((i : ℤ) - t.rstart psn).toNat < 128 := BitVec.lt_of_getLsbD h2
        exact ⟨⟨by omega, by omega⟩, h2⟩
  cases hend : usizeTryFrom (t.rstart psn + 128) with
  | none =>
    simp only [ackBitmap, hend]
    refine ⟨_, rfl, hloop _ (fun _ => rfl) ?_⟩
    rw [usizeTryFrom] at hend
    split at hend
    · cases hend
    · omega
  | some x =>
    have hx := usizeTryFrom_eq_some hend
    simp only [ackBitmap, hend]
    refine ⟨_, rfl, hloop _ (fun i => ?_) ?_⟩
    · split
      · exact bitAt_resize (by omega) i
      · rfl
    · split
      · rw [length_resize]
        omega
      · omega

/-- **What a range does** that starts ahead of the base: the window takes on its bits. -/
lemma ackRange_eq {psnLow : Psn} (psnHigh : Psn) (hlow : ¬ psnLow ≤ t.basePsn) :
    ∃ inner, t.ackRange psnLow psnHigh = ({ t with inner := inner }, none) ∧
      ∀ i : ℕ, bitAt inner i = (bitAt t.inner i || (decide (0 ≤ t.rstart psnLow) &&
        (decide (t.rstart psnLow ≤ i) && decide ((i : ℤ) < t.rstart psnHigh)))) := by
  unfold ackRange
  rw [if_neg hlow]
  cases hl : usizeTryFrom (t.rstart psnLow) with
  | none =>
    refine ⟨t.inner, rfl, fun i => ?_⟩
    rw [usizeTryFrom] at hl
    split at hl
    · cases hl
    · rename_i hneg
      simp [hneg]
  | some rstart =>
    have hrs := usizeTryFrom_eq_some hl
    cases hh : usizeTryFrom (t.rstart psnHigh) with
    | none =>
      refine ⟨t.inner, rfl, fun i => ?_⟩
      rw [usizeTryFrom] at hh
      split at hh
      · cases hh
      · have hnot : ¬ (i : ℤ) < t.rstart psnHigh := by omega
        simp [hnot]
    | some rend =>
      have hre := usizeTryFrom_eq_some hh
      refine ⟨_, rfl, fun i => ?_⟩
      have hgrow : bitAt (if rend ≥ t.inner.length then resize t.inner (rend + 1) false
          else t.inner) i = bitAt t.inner i := by
        split
        · exact bitAt_resize (by omega) i
        · rfl
      have hlen : rend ≤ (if rend ≥ t.inner.length then resize t.inner (rend + 1) false
          else t.inner).length := by
        split
        · simp
        · omega
      rcases Nat.lt_or_ge rend rstart with hlt | hge
      · have hzero : rend - rstart = 0 := by omega
        have hnot :
            (decide (t.rstart psnLow ≤ i) && decide ((i : ℤ) < t.rstart psnHigh)) = false := by
          rw [Bool.and_eq_false_iff, decide_eq_false_iff_not, decide_eq_false_iff_not]
          omega
        rw [hzero, hnot, Bool.and_false, Bool.or_false, ← hgrow]
        rfl
      · rw [bitAt_setWhere _ (by omega), hgrow, Nat.add_sub_cancel' hge, Bool.and_true,
          decide_eq_true (show 0 ≤ t.rstart psnLow by omega), Bool.true_and,
          decide_eq_decide.2 (show rstart ≤ i ↔ t.rstart psnLow ≤ i by omega),
          decide_eq_decide.2 (show i < rend ↔ (i : ℤ) < t.rstart psnHigh by omega)]

/-! ## Reading a tracker against a stream -/

/-- The tracker's base is stream position `B`, and its window holds the bits of `f` from `B` on. -/
def Tracks (t : PsnTracker) (B : ℕ) (f : ℕ → Bool) : Prop :=
  t.basePsn = Psn.ofPos B ∧ ∀ i, bitAt t.inner i = f (B + i)

lemma Tracks.congr {B : ℕ} {f g : ℕ → Bool} (h : t.Tracks B f)
    (hfg : ∀ n, B ≤ n → f n = g n) : t.Tracks B g :=
  ⟨h.1, fun i => by rw [h.2 i, hfg _ (Nat.le_add_right _ _)]⟩

variable {f : ℕ → Bool}

/-- The base moves to the first position from `B` on whose bit is clear, and the move is reported
exactly when there is one. -/
theorem tryAdvance_tracks {B : ℕ} (h : t.Tracks B f) :
    ∃ B', B ≤ B' ∧ (∀ n, B ≤ n → n < B' → f n = true) ∧ f B' = false ∧
      t.tryAdvance.1.Tracks B' f ∧
      t.tryAdvance.2 = if B' = B then none else some (Psn.ofPos B') := by
  obtain ⟨hbase, hbits⟩ := h
  refine ⟨B + lead t.inner, Nat.le_add_right _ _, fun n h1 h2 => ?_, ?_, ?_⟩
  · have := hbits (n - B)
    rw [bitAt_of_lt_lead (by omega), show B + (n - B) = n by omega] at this
    exact this.symm
  · rw [← hbits, bitAt_lead]
  · by_cases hz : lead t.inner = 0
    · have hz' : (firstZero t.inner).getD t.inner.length = 0 := hz
      simp only [tryAdvance, hz', if_true, hz, Nat.add_zero]
      exact ⟨⟨hbase, hbits⟩, trivial⟩
    · have hz' : ¬ (firstZero t.inner).getD t.inner.length = 0 := hz
      simp only [tryAdvance, hz', if_false]
      refine ⟨⟨?_, fun i => ?_⟩, ?_⟩
      · rw [hbase, Psn.ofPos_add_ofNat]; rfl
      · rw [bitAt_shiftLeft, hbits]
        congr 1
        unfold lead
        omega
      · rw [if_neg (by omega), hbase, Psn.ofPos_add_ofNat]; rfl

/-- Acknowledging the PSN at offset `r` sets that bit and advances. -/
theorem ackOne_tracks {B : ℕ} {psn : Psn} {r : ℕ}
    (h : t.Tracks B f) (hr : usizeTryFrom (t.rstart psn) = some r) :
    ∃ B', B ≤ B' ∧ (∀ n, B ≤ n → n < B' → (f n || decide (n = B + r)) = true) ∧
      (f B' || decide (B' = B + r)) = false ∧
      (t.ackOne psn).1.Tracks B' (fun n => f n || decide (n = B + r)) ∧
      (t.ackOne psn).2 = if B' = B then none else some (Psn.ofPos B') := by
  obtain ⟨hbase, hbits⟩ := h
  simp only [ackOne, hr]
  refine tryAdvance_tracks ⟨hbase, fun i => ?_⟩
  have hgrow : ∀ j, bitAt (if r ≥ t.inner.length then resize t.inner (r + 1) false else t.inner) j
      = bitAt t.inner j := by
    intro j
    split
    · exact bitAt_resize (by omega) j
    · rfl
  have hlen :
      r < (if r ≥ t.inner.length then resize t.inner (r + 1) false else t.inner).length := by
    split
    · simp
    · omega
  show bitAt ((if r ≥ t.inner.length then resize t.inner (r + 1) false else t.inner).set r true) i =
    _
  rw [bitAt_set hlen, hgrow, hbits]
  congr 1
  exact decide_eq_decide.mpr (by omega)

/-- A PSN behind the base, or misread as such, changes nothing. -/
lemma ackOne_of_none {psn : Psn} (hr : usizeTryFrom (t.rstart psn) = none) :
    t.ackOne psn = (t, none) := by
  simp only [ackOne, hr]

/-! ### A stream that stays below the wrap -/

/-- The tracker has been told about exactly the positions of `f`, and its base is the first position
missing from them. -/
structure TracksSet (t : PsnTracker) (B : ℕ) (f : ℕ → Bool) : Prop where
  tracks : t.Tracks B f
  below : ∀ n < B, f n = true
  clear : f B = false

lemma tracksSet_default : TracksSet default 0 (fun _ => false) :=
  ⟨⟨rfl, fun _ => bitAt_nil _⟩, fun _ h => absurd h (Nat.not_lt_zero _), rfl⟩

lemma TracksSet.base_le {B N : ℕ} (h : t.TracksSet B f) (hf : ∀ n, f n = true → n < N) : B ≤ N := by
  by_contra hlt
  exact lt_irrefl N (hf N (h.below N (by omega)))

/-- **Acknowledging one position adds it to the set**, and the new base is reported exactly when it
moved. -/
theorem TracksSet.ackOne {B p : ℕ} (h : t.TracksSet B f)
    (hf : ∀ n, f n = true → n < 2 ^ 23) (hp : p < 2 ^ 23) :
    ∃ B', B ≤ B' ∧ (t.ackOne (Psn.ofPos p)).1.TracksSet B' (fun n => f n || decide (n = p)) ∧
      (t.ackOne (Psn.ofPos p)).2 = if B' = B then none else some (Psn.ofPos B') := by
  have hB := h.base_le hf
  obtain ⟨htr, hbelow, hclear⟩ := h
  have hbase : t.basePsn = Psn.ofPos B := htr.1
  have hr : t.rstart (Psn.ofPos p) = (p : ℤ) - B := by
    rw [rstart_eq (by rw [hbase]; exact Psn.ofPos_inRange B) (Psn.ofPos_inRange p), hbase,
      Psn.ofPos_val, Psn.ofPos_val, Nat.mod_eq_of_lt (by omega), Nat.mod_eq_of_lt (by omega),
      if_neg (by omega)]
  rcases Nat.lt_or_ge p B with hlt | hge
  · -- behind the base: nothing changes, and the position was in the set already
    have hnone : usizeTryFrom (t.rstart (Psn.ofPos p)) = none := by
      rw [hr, usizeTryFrom, if_neg (by omega)]
    rw [ackOne_of_none hnone]
    refine ⟨B, le_rfl, ⟨htr.congr (fun n hn => ?_), fun n hn => ?_, ?_⟩, by simp⟩
    · simp [show n ≠ p by omega]
    · simp [hbelow n hn]
    · simp [hclear, show B ≠ p by omega]
  · have hsome : usizeTryFrom (t.rstart (Psn.ofPos p)) = some (p - B) := by
      rw [hr, usizeTryFrom, if_pos (by omega)]
      congr 1
      omega
    obtain ⟨B', hle, hset, hzero, htr', hret⟩ := ackOne_tracks htr hsome
    rw [show B + (p - B) = p by omega] at hset hzero htr'
    refine ⟨B', hle, ⟨htr', fun n hn => ?_, hzero⟩, hret⟩
    rcases Nat.lt_or_ge n B with h1 | h1
    · simp [hbelow n h1]
    · exact hset n h1 hn

end PsnTracker

end OpenRdma
