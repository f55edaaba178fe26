import OpenRdma.Core.Loop
import OpenRdma.Core.Tiling
import OpenRdma.RdmaUtils.Qp

/-!
# Fragmenting work requests

A work request is cut twice in the driver: into chunks of 64 KiB for the hardware, which cuts each
of them into packets (`WrChunkFragmenter`), and directly into packets when it is retransmitted
(`WrPacketFragmenter`).  Both are one iterator over the remote address range, with different segment
sizes, that advances a PSN and a local address along the way.

* `Cut.chunkAt` — chunk number `k` in closed form; **`Cut.Valid.chunkFragmenter_eq`** — what the
  iterator yields.

Sums of addresses wrap; every result is about requests whose ranges end below `2 ^ 64`.
-/

namespace OpenRdma

/-! ## The iterators -/

/-- A piece of a request. -/
structure Fragment where
  addr : UInt64
  len : UInt64
  pos : ChunkPos
deriving DecidableEq, Repr

/-- A range, and how it is cut. -/
structure Fragmenter where
  segmentSize : UInt64
  align : UInt64
  baseAddr : UInt64
  endAddr : UInt64
deriving DecidableEq, Repr

/-- What is left of a range. -/
structure IntoIter where
  segmentSize : UInt64
  align : UInt64
  currentAddr : UInt64
  currentPos : ChunkPos
  endAddr : UInt64
  totalSegments : ℕ
  count : ℕ
deriving DecidableEq, Repr

namespace Fragmenter

def new (segmentSize align baseAddr length : UInt64) : Fragmenter :=
  ⟨segmentSize, align, baseAddr, baseAddr + length⟩

def numSegments (f : Fragmenter) : ℕ :=
  if f.baseAddr ≥ f.endAddr then 1
  else
    let firstAligned := (f.baseAddr + f.segmentSize) &&& ~~~(f.align - 1)
    let remainingAfterFirst := saturatingSub f.endAddr firstAligned
    (divCeil remainingAfterFirst f.segmentSize).toNat + 1

def intoIter (f : Fragmenter) : IntoIter where
  segmentSize := f.segmentSize
  align := f.align
  currentAddr := f.baseAddr
  currentPos := if f.numSegments = 1 then .only else .first
  endAddr := f.endAddr
  totalSegments := f.numSegments
  count := f.numSegments

end Fragmenter

namespace IntoIter

/-- The position of the next fragment, by whether one more is left. -/
def nextPos : Bool → ChunkPos → ChunkPos
  | _, .only => .only
  | true, _ | false, .last => .last
  | false, .first | false, .middle => .middle

/-- How much the next fragment covers: up to the boundary a segment further on, or the end. -/
def segLen (it : IntoIter) : UInt64 :=
  let «end» := min ((it.currentAddr + it.segmentSize) &&& ~~~(it.align - 1)) it.endAddr
  «end» - it.currentAddr

def next (it : IntoIter) : Option (Fragment × IntoIter) :=
  if it.count = 0 then none
  else
    let len := it.segLen
    let count := it.count - 1
    some (⟨it.currentAddr, len, it.currentPos⟩,
      { it with
        currentAddr := it.currentAddr + len
        count := count
        currentPos := nextPos (count == 1) it.currentPos })

/-- `ExactSizeIterator::len`. -/
def len (it : IntoIter) : ℕ := it.totalSegments

end IntoIter

/-- What is left of a request. -/
structure IntoIterChunk where
  inner : IntoIter
  psn : Psn
  builder : WrChunk
  laddr : UInt64
  pmtu : UInt64
  isRetry : Bool
deriving DecidableEq, Repr

/-- `u64::checked_add`. -/
def checkedAdd (a b : UInt64) : Option UInt64 :=
  if a.toNat + b.toNat < 2 ^ 64 then some (a + b) else none

namespace IntoIterChunk

def next (it : IntoIterChunk) : Turn IntoIterChunk WrChunk :=
  match it.inner.next with
  | none => .done
  | some (f, inner) =>
    let builder := it.builder.setChunkMeta it.psn it.laddr f.addr f.len.toUInt32 f.pos
    let chunk := if it.isRetry then builder.setIsRetry else builder
    let numPackets := (divCeil f.len it.pmtu).toUInt32
    match checkedAdd it.laddr f.len with
    | none => .crash "internal error: entered unreachable code: address overflow"
    | some laddr =>
      .item chunk { it with inner := inner, psn := it.psn + numPackets, laddr := laddr }

/-- Run the iterator to its end. -/
def collect (it : IntoIterChunk) : Drained IntoIterChunk WrChunk :=
  drain next (it.inner.count + 1) it

end IntoIterChunk

/-- `ChunkFragmenter::into_iter`; an unknown MTU code panics. -/
def chunkFragmenter (wr : SendWrRdma) (qpParam : QpParams) (basePsn : Psn) (chunkSize : UInt64)
    (isRetry : Bool) : Except String IntoIterChunk :=
  match convertIbvMtuToU16 qpParam.pmtu with
  | none => .error "internal error: entered unreachable code: invalid ibv_mtu"
  | some pmtu => .ok
      { inner := (Fragmenter.new chunkSize pmtu.toUInt64 wr.raddr wr.length.toUInt64).intoIter
        psn := basePsn
        builder := WrChunk.ofWr wr qpParam
        laddr := wr.laddr
        pmtu := pmtu.toUInt64
        isRetry := isRetry }

def wrChunkSize : UInt64 := 0x10000

/-- The chunks of a request, for the hardware to cut further. -/
def wrChunkFragmenter (wr : SendWrRdma) (qpParam : QpParams) (basePsn : Psn) :
    Except String IntoIterChunk :=
  chunkFragmenter wr qpParam basePsn wrChunkSize false

/-- The packets of a request. -/
def wrPacketFragmenter (wr : SendWrRdma) (qpParam : QpParams) (basePsn : Psn) :
    Except String IntoIterChunk :=
  match convertIbvMtuToU16 qpParam.pmtu with
  | none => .error "internal error: entered unreachable code: invalid ibv_mtu"
  | some pmtu => chunkFragmenter wr qpParam basePsn pmtu.toUInt64 true

/-! ## Fixed-width arithmetic -/

/-- Clearing the low bits rounds down. -/
lemma and_not_mask {x m : UInt64} {j : ℕ} (hm : m.toNat = 2 ^ j - 1) :
    (x &&& ~~~m).toNat = x.toNat / 2 ^ j * 2 ^ j := by
  have hshift : x.toBitVec &&& ~~~m.toBitVec = x.toBitVec >>> j <<< j := by
    refine BitVec.eq_of_getLsbD_eq (fun i hi => ?_)
    have hbit : m.toBitVec.getLsbD i = decide (i < j) := by
      rw [BitVec.getLsbD, UInt64.toNat_toBitVec, hm, Nat.testBit_two_pow_sub_one]
    rw [BitVec.getLsbD_and, BitVec.getLsbD_not, hbit, BitVec.getLsbD_shiftLeft,
      BitVec.getLsbD_ushiftRight]
    rcases Nat.lt_or_ge i j with hij | hij
    · simp [hij]
    · simp [hi, Nat.not_lt.mpr hij, Nat.add_sub_cancel' hij]
  have hle : x.toNat / 2 ^ j * 2 ^ j < 2 ^ 64 :=
    lt_of_le_of_lt (Nat.div_mul_le_self _ _) x.toNat_lt
  calc (x &&& ~~~m).toNat = (x.toBitVec >>> j <<< j).toNat := by
        rw [← hshift, UInt64.toNat_and, BitVec.toNat_and]; rfl
    _ = x.toNat / 2 ^ j * 2 ^ j := by
        rw [BitVec.toNat_shiftLeft, BitVec.toNat_ushiftRight, Nat.shiftLeft_eq,
          Nat.shiftRight_eq_div_pow, UInt64.toNat_toBitVec, Nat.mod_eq_of_lt hle]

lemma divCeil_toNat (a : UInt64) {b : UInt64} (hb : 0 < b.toNat) :
    (divCeil a b).toNat = (a.toNat + b.toNat - 1) / b.toNat := by
  have hlt := Nat.mod_lt a.toNat hb
  have hdm := Nat.div_add_mod a.toNat b.toNat
  have hform : a.toNat + b.toNat - 1
      = (a.toNat % b.toNat + b.toNat - 1) + b.toNat * (a.toNat / b.toNat) := by omega
  rw [hform, Nat.add_mul_div_left _ _ hb]
  unfold divCeil
  by_cases h0 : a.toNat % b.toNat = 0
  · have hz : ¬ a % b > 0 := by
      rw [gt_iff_lt, UInt64.lt_iff_toNat_lt, UInt64.toNat_mod, h0]
      decide
    have hzero : (b.toNat - 1) / b.toNat = 0 := Nat.div_eq_of_lt (by omega)
    rw [if_neg hz, UInt64.toNat_div, h0, Nat.zero_add, hzero, Nat.zero_add]
  · have hz : a % b > 0 := by
      rw [gt_iff_lt, UInt64.lt_iff_toNat_lt, UInt64.toNat_mod]
      exact Nat.pos_of_ne_zero h0
    have hone : (a.toNat % b.toNat + b.toNat - 1) / b.toNat = 1 :=
      Nat.div_eq_of_lt_le (by omega) (by omega)
    rw [if_pos hz, UInt64.toNat_add, UInt64.toNat_div, hone]
    have hb1 : b.toNat ≠ 1 := fun h1 => h0 (by rw [h1]; exact Nat.mod_one _)
    have hle : a.toNat / b.toNat * 2 ≤ a.toNat :=
      (Nat.mul_le_mul_left _ (by omega)).trans (Nat.div_mul_le_self _ _)
    have := a.toNat_lt
    rw [show (1 : UInt64).toNat = 1 from rfl, Nat.mod_eq_of_lt (by omega), Nat.add_comm]

lemma min_toNat (a b : UInt64) : (min a b).toNat = min a.toNat b.toNat := by
  rw [show min a b = if a ≤ b then a else b from rfl]
  split
  · next h => exact (min_eq_left (UInt64.le_iff_toNat_le.mp h)).symm
  · next h =>
      rw [UInt64.le_iff_toNat_le] at h
      exact (min_eq_right (by omega)).symm

/-- The MTUs are the powers of two from 256 to 4096. -/
lemma convertIbvMtuToU16_eq_some {code : UInt8} {p : UInt16}
    (h : convertIbvMtuToU16 code = some p) : ∃ j, 8 ≤ j ∧ j ≤ 12 ∧ p.toUInt64.toNat = 2 ^ j := by
  unfold convertIbvMtuToU16 at h
  split at h
  · cases h; exact ⟨8, by decide⟩
  · cases h; exact ⟨9, by decide⟩
  · cases h; exact ⟨10, by decide⟩
  · cases h; exact ⟨11, by decide⟩
  · cases h; exact ⟨12, by decide⟩
  · exact absurd h (by simp)

/-! ## Positions -/

/-- The position of chunk `k` of `n`. -/
def posAt (n k : ℕ) : ChunkPos :=
  if n = 1 then .only else if k = 0 then .first else if k + 1 = n then .last else .middle

lemma nextPos_posAt {n k : ℕ} (hk : k + 1 < n) :
    IntoIter.nextPos (n - (k + 1) == 1) (posAt n k) = posAt n (k + 1) := by
  have h1 : ¬ n = 1 := by omega
  have h2 : ¬ k + 1 = n := by omega
  have h3 : (n - (k + 1) == 1) = decide (k + 1 + 1 = n) := by
    rw [Bool.eq_iff_iff, beq_iff_eq, decide_eq_true_eq]; omega
  rw [h3]
  by_cases h0 : k = 0 <;> by_cases hl : k + 1 + 1 = n <;>
    simp [posAt, IntoIter.nextPos, h0, h1, h2, hl] <;> simp_all

/-! ## What a fragmenter yields -/

/-- A range of addresses, cut into segments of `q` units of `P` bytes. -/
structure Slice where
  P : ℕ
  q : ℕ
  start : ℕ
  stop : ℕ

namespace Slice

/-- The unit boundary at or before the start. -/
def origin (s : Slice) : ℕ := s.start / s.P * s.P
def count (s : Slice) : ℕ := blockCount s.origin (s.q * s.P) s.stop
def segment (s : Slice) (k : ℕ) : ℕ × ℕ := block s.origin (s.q * s.P) s.start s.stop k

/-- The unit is a power of two, and no address computed reaches `2 ^ 64`: neither the end of the
range nor the address a segment after the start of another. -/
structure Valid (s : Slice) : Prop where
  unit : ∃ j, s.P = 2 ^ j
  q_pos : 0 < s.q
  le : s.start ≤ s.stop
  stop_lt : s.stop < 2 ^ 64
  next_lt : ∀ k < s.count, (s.segment k).1 + s.q * s.P < 2 ^ 64

variable {s : Slice}

variable (h : s.Valid)

include h

lemma Valid.P_pos : 0 < s.P := by
  obtain ⟨j, hj⟩ := h.unit
  rw [hj]
  exact Nat.two_pow_pos j

lemma Valid.origin_le : s.origin ≤ s.start ∧ s.start < s.origin + s.P := by
  have hdm := Nat.div_add_mod s.start s.P
  have hlt := Nat.mod_lt s.start h.P_pos
  rw [Nat.mul_comm] at hdm
  simp only [origin]
  omega

lemma Valid.le_size : s.P ≤ s.q * s.P := Nat.le_mul_of_pos_left s.P h.q_pos

lemma Valid.size_pos : 0 < s.q * s.P := Nat.mul_pos h.q_pos h.P_pos

lemma Valid.start_le : s.start ≤ s.origin + s.q * s.P := by
  have h1 := h.origin_le
  have h2 := h.le_size
  omega

lemma Valid.segment_bounds {k : ℕ} (hk : k < s.count) :
    s.start ≤ (s.segment k).1 ∧ (s.segment k).1 ≤ (s.segment k).2 ∧ (s.segment k).2 ≤ s.stop :=
  ⟨le_max_left _ _, block_le h.origin_le.1 h.start_le h.le h.size_pos hk, min_le_left _ _⟩

/-- A segment starts where the one before it ends. -/
lemma Valid.segment_succ {k : ℕ} (hk : k + 1 < s.count) :
    (s.segment (k + 1)).1 = (s.segment k).2 := by
  rw [segment, block_succ h.start_le, segment, block_stop h.size_pos hk]

/-- The address after a segment, rounded down to a unit boundary, is the next grid line. -/
lemma Valid.round (k : ℕ) :
    ((s.segment k).1 + s.q * s.P) / s.P * s.P = s.origin + (k + 1) * (s.q * s.P) := by
  cases k with
  | zero =>
    rw [segment, block_zero h.origin_le.1, Nat.add_mul_div_right _ _ h.P_pos, origin]
    ring
  | succ k =>
    rw [segment, block_succ h.start_le, origin,
      show s.start / s.P * s.P + (k + 1) * (s.q * s.P) + s.q * s.P
        = (s.start / s.P + (k + 2) * s.q) * s.P by ring, Nat.mul_div_cancel _ h.P_pos]
    ring

/-- Subtracting one from a unit gives the mask of its low bits. -/
lemma Valid.mask_toNat {align : UInt64} (halign : align.toNat = s.P) :
    ∃ j, s.P = 2 ^ j ∧ (align - 1).toNat = 2 ^ j - 1 := by
  obtain ⟨j, hj⟩ := h.unit
  have hone : (1 : UInt64).toNat = 1 := rfl
  have hP := h.P_pos
  refine ⟨j, hj, ?_⟩
  rw [UInt64.toNat_sub_of_le _ _ (by rw [UInt64.le_iff_toNat_le, halign, hone]; omega),
    halign, hone, hj]

omit h

/-- The iterator over a slice, about to yield segment `k`. -/
structure At (s : Slice) (k : ℕ) (it : IntoIter) : Prop where
  segmentSize : it.segmentSize.toNat = s.q * s.P
  align : it.align.toNat = s.P
  endAddr : it.endAddr.toNat = s.stop
  currentAddr : it.currentAddr.toNat = (s.segment k).1
  currentPos : it.currentPos = posAt s.count k
  count : it.count = s.count - k

lemma At.segLen_toNat {k : ℕ} {it : IntoIter} (h : s.At k it) (hs : s.Valid) (hk : k < s.count) :
    it.segLen.toNat = (s.segment k).2 - (s.segment k).1 := by
  obtain ⟨-, hle, -⟩ := hs.segment_bounds hk
  obtain ⟨j, hj, hmask⟩ := hs.mask_toNat h.align
  have hnext := hs.next_lt k hk
  have hsum : (it.currentAddr + it.segmentSize).toNat = (s.segment k).1 + s.q * s.P := by
    rw [UInt64.toNat_add, h.currentAddr, h.segmentSize, Nat.mod_eq_of_lt (by omega)]
  have hend : (min ((it.currentAddr + it.segmentSize) &&& ~~~(it.align - 1)) it.endAddr).toNat
      = (s.segment k).2 := by
    rw [min_toNat, and_not_mask hmask, hsum, ← hj, hs.round, h.endAddr, Nat.min_comm]
    rfl
  rw [IntoIter.segLen, UInt64.toNat_sub_of_le _ _ (by
    rw [UInt64.le_iff_toNat_le, hend, h.currentAddr]; exact hle), hend, h.currentAddr]

/-- Fragment number `k`. -/
def fragmentAt (s : Slice) (k : ℕ) : Fragment :=
  ⟨UInt64.ofNat (s.segment k).1, UInt64.ofNat ((s.segment k).2 - (s.segment k).1), posAt s.count k⟩

/-- **One turn of the iterator.** -/
lemma At.next {k : ℕ} {it : IntoIter} (h : s.At k it) (hs : s.Valid) (hk : k < s.count) :
    ∃ it', it.next = some (⟨it.currentAddr, it.segLen, it.currentPos⟩, it') ∧
      it'.count = s.count - (k + 1) ∧ (k + 1 < s.count → s.At (k + 1) it') := by
  have hne : it.count ≠ 0 := by rw [h.count]; omega
  have hcount : it.count - 1 = s.count - (k + 1) := by rw [h.count]; omega
  refine ⟨{ it with
    currentAddr := it.currentAddr + it.segLen
    count := it.count - 1
    currentPos := IntoIter.nextPos (it.count - 1 == 1) it.currentPos },
    by simp only [IntoIter.next, if_neg hne], hcount, fun hk' => ?_⟩
  obtain ⟨-, hle, hhi⟩ := hs.segment_bounds hk
  have hstop := hs.stop_lt
  refine ⟨h.segmentSize, h.align, h.endAddr, ?_, ?_, hcount⟩
  · show (it.currentAddr + it.segLen).toNat = _
    rw [UInt64.toNat_add, h.currentAddr, h.segLen_toNat hs hk, hs.segment_succ hk',
      Nat.mod_eq_of_lt (by omega)]
    omega
  · show IntoIter.nextPos (it.count - 1 == 1) it.currentPos = _
    rw [hcount, h.currentPos]
    exact nextPos_posAt hk'

lemma At.fragment_eq {k : ℕ} {it : IntoIter} (h : s.At k it) (hs : s.Valid) (hk : k < s.count) :
    (⟨it.currentAddr, it.segLen, it.currentPos⟩ : Fragment) = s.fragmentAt k := by
  rw [fragmentAt, h.currentPos, ← h.segLen_toNat hs hk, ← h.currentAddr, UInt64.ofNat_toNat,
    UInt64.ofNat_toNat]

/-- The number of segments computed in advance is the number of pieces. -/
lemma Valid.numSegments_eq (hs : s.Valid) {f : Fragmenter} (hsize : f.segmentSize.toNat = s.q * s.P)
    (halign : f.align.toNat = s.P) (hbase : f.baseAddr.toNat = s.start)
    (hend : f.endAddr.toNat = s.stop) : f.numSegments = s.count := by
  obtain ⟨h1, h2⟩ := hs.origin_le
  have h3 := hs.le_size
  have h4 := hs.size_pos
  have hle := hs.le
  have hnext := hs.next_lt 0 (blockCount_pos _ _ _)
  simp only [Fragmenter.numSegments, ge_iff_le, UInt64.le_iff_toNat_le, hend, hbase]
  rw [count, blockCount]
  split
  · -- an empty range is one empty segment
    next hempty =>
      have hle : (s.stop - s.origin + s.q * s.P - 1) / (s.q * s.P) ≤ 1 :=
        Nat.lt_succ_iff.mp ((Nat.div_lt_iff_lt_mul h4).mpr (by omega))
      omega
  · next hne =>
      obtain ⟨j, hj, hmask⟩ := hs.mask_toNat halign
      have hline : ((f.baseAddr + f.segmentSize) &&& ~~~(f.align - 1)).toNat
          = s.origin + s.q * s.P := by
        have hround := hs.round 0
        rw [segment, block_zero h1] at hround hnext
        rw [and_not_mask hmask, UInt64.toNat_add, hsize, hbase, Nat.mod_eq_of_lt (by omega), ← hj,
          hround]
        ring
      have hrem : (saturatingSub f.endAddr
          ((f.baseAddr + f.segmentSize) &&& ~~~(f.align - 1))).toNat
          = s.stop - (s.origin + s.q * s.P) := by
        unfold saturatingSub
        split
        · next hle => rw [UInt64.toNat_sub_of_le _ _ hle, hend, hline]
        · next hle =>
            rw [UInt64.le_iff_toNat_le, hend, hline] at hle
            rw [show (0 : UInt64).toNat = 0 from rfl]
            omega
      rw [divCeil_toNat _ (by rw [hsize]; exact h4), hrem, hsize]
      rcases Nat.lt_or_ge (s.origin + s.q * s.P) s.stop with hlt | hge
      · rw [show s.stop - s.origin + s.q * s.P - 1
          = s.stop - (s.origin + s.q * s.P) + s.q * s.P - 1 + s.q * s.P by omega,
          Nat.add_div_right _ h4]
        exact (max_eq_right (Nat.le_add_left 1 _)).symm
      · rw [show s.stop - (s.origin + s.q * s.P) = 0 by omega, Nat.zero_add,
          Nat.div_eq_of_lt (by omega), Nat.div_eq_of_lt_le (show 1 * (s.q * s.P)
            ≤ s.stop - s.origin + s.q * s.P - 1 by omega) (by omega)]
        rfl

/-- A fragmenter starts at the first segment. -/
lemma Valid.intoIter_at (hs : s.Valid) {f : Fragmenter} (hsize : f.segmentSize.toNat = s.q * s.P)
    (halign : f.align.toNat = s.P) (hbase : f.baseAddr.toNat = s.start)
    (hend : f.endAddr.toNat = s.stop) : s.At 0 f.intoIter := by
  have hnum := hs.numSegments_eq hsize halign hbase hend
  refine ⟨hsize, halign, hend, ?_, ?_, hnum⟩
  · exact hbase.trans (block_zero hs.origin_le.1).symm
  · show (if _ = 1 then ChunkPos.only else ChunkPos.first) = _
    rw [hnum, posAt]
    simp

end Slice

/-! ## What the iterators over a request yield -/

/-- A request whose first packet is at stream position `pos`, cut into segments of `q` packets of
`P` bytes. -/
structure Cut where
  wr : SendWrRdma
  qpParam : QpParams
  pos : ℕ
  P : ℕ
  q : ℕ
  isRetry : Bool

namespace Cut

def start (c : Cut) : ℕ := c.wr.raddr.toNat
def stop (c : Cut) : ℕ := c.start + c.wr.length.toNat
/-- The packet boundary at or before the start. -/
def origin (c : Cut) : ℕ := c.start / c.P * c.P
def count (c : Cut) : ℕ := blockCount c.origin (c.q * c.P) c.stop
def segment (c : Cut) (k : ℕ) : ℕ × ℕ := block c.origin (c.q * c.P) c.start c.stop k

/-- Chunk number `k`. -/
def chunkAt (c : Cut) (k : ℕ) : WrChunk :=
  let chunk := (WrChunk.ofWr c.wr c.qpParam).setChunkMeta (Psn.ofPos (c.pos + k * c.q))
    (c.wr.laddr + UInt64.ofNat ((c.segment k).1 - c.start)) (UInt64.ofNat (c.segment k).1)
    (UInt32.ofNat ((c.segment k).2 - (c.segment k).1)) (posAt c.count k)
  if c.isRetry then chunk.setIsRetry else chunk

def chunks (c : Cut) : List WrChunk := (List.range c.count).map c.chunkAt

/-- The sizes are an MTU and a multiple of it, and no remote address computed reaches `2 ^ 64`:
neither the end of the range nor the address a segment after the start of a chunk. -/
structure Valid (c : Cut) : Prop where
  mtu : ∃ j, 8 ≤ j ∧ j ≤ 12 ∧ c.P = 2 ^ j
  q_pos : 0 < c.q
  stop_lt : c.stop < 2 ^ 64
  remote : ∀ k < c.count, (c.segment k).1 + c.q * c.P < 2 ^ 64

/-- The local range ends below `2 ^ 64`. -/
def LocalFits (c : Cut) : Prop := c.wr.laddr.toNat + c.wr.length.toNat < 2 ^ 64

variable {c : Cut}

/-- The remote range of the request. -/
def slice (c : Cut) : Slice := ⟨c.P, c.q, c.start, c.stop⟩

lemma Valid.slice (h : c.Valid) : c.slice.Valid := by
  obtain ⟨j, -, -, hj⟩ := h.mtu
  exact ⟨⟨j, hj⟩, h.q_pos, Nat.le_add_right _ _, h.stop_lt, h.remote⟩

lemma Valid.P_pos (h : c.Valid) : 0 < c.P := h.slice.P_pos

lemma Valid.origin_le (h : c.Valid) : c.origin ≤ c.start ∧ c.start < c.origin + c.P :=
  h.slice.origin_le

lemma Valid.le_size (h : c.Valid) : c.P ≤ c.q * c.P := h.slice.le_size

lemma Valid.size_pos (h : c.Valid) : 0 < c.q * c.P := h.slice.size_pos

lemma Valid.segment_bounds (h : c.Valid) {k : ℕ} (hk : k < c.count) :
    c.start ≤ (c.segment k).1 ∧ (c.segment k).1 ≤ (c.segment k).2 ∧ (c.segment k).2 ≤ c.stop :=
  h.slice.segment_bounds hk

/-- Each segment with another one after it is `q` packets long. -/
lemma Valid.packets (h : c.Valid) {k : ℕ} (hk : k + 1 < c.count) :
    ((c.segment k).2 - (c.segment k).1 + c.P - 1) / c.P = c.q := by
  obtain ⟨h1, h2⟩ := h.origin_le
  have h3 := h.le_size
  have hstop : (c.segment k).2 = c.origin + (k + 1) * (c.q * c.P) := block_stop h.size_pos hk
  have hstart : (c.segment k).1 < c.origin + k * (c.q * c.P) + c.P ∧
      c.origin + k * (c.q * c.P) ≤ (c.segment k).1 := by
    cases k with
    | zero => rw [segment, block_zero h1]; omega
    | succ k => rw [segment, block_succ (by omega)]; omega
  have h4 : (k + 1) * (c.q * c.P) = k * (c.q * c.P) + c.q * c.P := by ring
  have h5 : (c.q + 1) * c.P = c.q * c.P + c.P := by ring
  exact Nat.div_eq_of_lt_le (by omega) (by omega)

/-- The iterator of a cut, about to yield chunk `k`. -/
structure At (c : Cut) (k : ℕ) (it : IntoIterChunk) : Prop where
  segmentSize : it.inner.segmentSize.toNat = c.q * c.P
  align : it.inner.align.toNat = c.P
  endAddr : it.inner.endAddr.toNat = c.stop
  currentAddr : it.inner.currentAddr.toNat = (c.segment k).1
  currentPos : it.inner.currentPos = posAt c.count k
  count : it.inner.count = c.count - k
  psn : it.psn = Psn.ofPos (c.pos + k * c.q)
  builder : it.builder = WrChunk.ofWr c.wr c.qpParam
  laddr : it.laddr.toNat = c.wr.laddr.toNat + ((c.segment k).1 - c.start)
  pmtu : it.pmtu.toNat = c.P
  isRetry : it.isRetry = c.isRetry

section Turn

variable {k : ℕ} {it : IntoIterChunk}

variable (h : c.At k it)

include h

/-- The inner iterator is at the same segment. -/
lemma At.slice : c.slice.At k it.inner :=
  ⟨h.segmentSize, h.align, h.endAddr, h.currentAddr, h.currentPos, h.count⟩

lemma At.segLen_toNat (hc : c.Valid) (hk : k < c.count) :
    it.inner.segLen.toNat = (c.segment k).2 - (c.segment k).1 :=
  h.slice.segLen_toNat hc.slice hk

/-- The local address has not overflowed so far. -/
lemma At.laddr_eq : it.laddr = c.wr.laddr + UInt64.ofNat ((c.segment k).1 - c.start) := by
  have hlt := it.laddr.toNat_lt
  have hladdr := h.laddr
  refine UInt64.toNat_inj.mp ?_
  rw [UInt64.toNat_add, UInt64.toNat_ofNat',
    Nat.mod_eq_of_lt (show (c.segment k).1 - c.start < 2 ^ 64 by omega),
    Nat.mod_eq_of_lt (by omega), hladdr]

/-- The local address after this chunk. -/
lemma At.laddr_next (hc : c.Valid) (hk : k < c.count) :
    it.laddr.toNat + it.inner.segLen.toNat
      = c.wr.laddr.toNat + ((c.segment k).2 - c.start) := by
  obtain ⟨hlo, hle, hhi⟩ := hc.segment_bounds hk
  rw [h.laddr, h.segLen_toNat hc hk]
  omega

/-- What the iterator yields here. -/
lemma At.chunk_eq (hc : c.Valid) (hk : k < c.count) :
    (if it.isRetry then (it.builder.setChunkMeta it.psn it.laddr it.inner.currentAddr
        it.inner.segLen.toUInt32 it.inner.currentPos).setIsRetry
      else it.builder.setChunkMeta it.psn it.laddr it.inner.currentAddr it.inner.segLen.toUInt32
        it.inner.currentPos) = c.chunkAt k := by
  have haddr : it.inner.currentAddr = UInt64.ofNat (c.segment k).1 := by
    rw [← h.currentAddr, UInt64.ofNat_toNat]
  have hlen : it.inner.segLen.toUInt32 = UInt32.ofNat ((c.segment k).2 - (c.segment k).1) := by
    rw [← h.segLen_toNat hc hk]
    exact UInt32.toNat_inj.mp (by simp)
  rw [h.isRetry, h.builder, h.psn, h.laddr_eq, h.currentPos, haddr, hlen]
  rfl

/-- A turn panics when the local address overflows. -/
lemma At.crash (hc : c.Valid) (hk : k < c.count)
    (hl : ¬ c.wr.laddr.toNat + ((c.segment k).2 - c.start) < 2 ^ 64) :
    it.next = .crash "internal error: entered unreachable code: address overflow" := by
  have hne : it.inner.count ≠ 0 := by rw [h.count]; omega
  rw [← h.laddr_next hc hk] at hl
  simp only [IntoIterChunk.next, IntoIter.next, if_neg hne, checkedAdd, if_neg hl]

/-- **One turn of the iterator.** -/
lemma At.next (hc : c.Valid) (hk : k < c.count)
    (hl : c.wr.laddr.toNat + ((c.segment k).2 - c.start) < 2 ^ 64) :
    ∃ it', it.next = .item (c.chunkAt k) it' ∧ it'.inner.count = c.count - (k + 1) ∧
      (k + 1 < c.count → c.At (k + 1) it') := by
  have hladdr := h.laddr_next hc hk
  have hlocal := hladdr ▸ hl
  have hlen := h.segLen_toNat hc hk
  obtain ⟨inner, hinner, hcount, hat⟩ := h.slice.next hc.slice hk
  refine ⟨{ it with
    inner := inner
    psn := it.psn + (divCeil it.inner.segLen it.pmtu).toUInt32
    laddr := it.laddr + it.inner.segLen }, ?_, hcount, fun hk' => ?_⟩
  · simp only [IntoIterChunk.next, hinner, checkedAdd, if_pos hlocal, h.chunk_eq hc hk]
  · obtain ⟨hsize, halign, hend, haddr, hpos, -⟩ := hat hk'
    refine ⟨hsize, halign, hend, haddr, hpos, hcount, ?_, h.builder, ?_, h.pmtu, h.isRetry⟩
    · have hq : (divCeil it.inner.segLen it.pmtu).toNat = c.q := by
        rw [divCeil_toNat _ (by rw [h.pmtu]; exact hc.P_pos), h.pmtu, hlen, hc.packets hk']
      show it.psn + (divCeil it.inner.segLen it.pmtu).toUInt32 = _
      rw [h.psn, Psn.ofPos_add, UInt64.toNat_toUInt32, hq, Psn.ofPos_eq_iff]
      have : (k + 1) * c.q = k * c.q + c.q := by ring
      omega
    · have hseg : (c.segment (k + 1)).1 = (c.segment k).2 := hc.slice.segment_succ hk'
      show (it.laddr + it.inner.segLen).toNat = _
      rw [UInt64.toNat_add, Nat.mod_eq_of_lt hlocal, hladdr, hseg]

/-- From chunk `k` on, the iterator yields the chunks that are left, or panics on the way.  Whether
it panics or not, it yields no other chunks than those, in order. -/
lemma At.collect (hc : c.Valid) (hk : k < c.count) :
    it.collect.items <+: (List.range' k (c.count - k)).map c.chunkAt ∧
      (c.LocalFits → it.collect.items = (List.range' k (c.count - k)).map c.chunkAt) ∧
      (it.collect.crashed = none ↔ c.LocalFits) := by
  have hbelow : ∀ k, k < c.count → c.LocalFits →
      c.wr.laddr.toNat + ((c.segment k).2 - c.start) < 2 ^ 64 := by
    intro k hk hl
    obtain ⟨-, -, hhi⟩ := hc.segment_bounds hk
    simp only [stop] at hhi
    simp only [LocalFits] at hl
    omega
  have hrun : ∀ n k it, c.At k it → c.count = k + (n + 1) →
      (drain IntoIterChunk.next (n + 2) it).items <+: (List.range' k (n + 1)).map c.chunkAt ∧
      (c.LocalFits → (drain IntoIterChunk.next (n + 2) it).items
        = (List.range' k (n + 1)).map c.chunkAt) ∧
      ((drain IntoIterChunk.next (n + 2) it).crashed = none ↔ c.LocalFits) := by
    intro n
    induction n with
    | zero =>
      intro k it h hn
      by_cases hl : c.wr.laddr.toNat + ((c.segment k).2 - c.start) < 2 ^ 64
      · obtain ⟨it', hnext, hcount, -⟩ := h.next hc (by omega) hl
        have hdone : it'.next = .done := by
          have h0 : it'.inner.count = 0 := by omega
          simp [IntoIterChunk.next, IntoIter.next, h0]
        have hlast : (c.segment k).2 = c.stop := block_last hc.size_pos hn.symm
        have hfits : c.LocalFits := by
          simpa [LocalFits, hlast, stop] using hl
        simp [drain, hnext, hdone, hfits]
      · have hnot : ¬ c.LocalFits := fun hf => hl (hbelow k (by omega) hf)
        simp [drain, h.crash hc (by omega) hl, hnot]
    | succ n ih =>
      intro k it h hn
      by_cases hl : c.wr.laddr.toNat + ((c.segment k).2 - c.start) < 2 ^ 64
      · obtain ⟨it', hnext, -, hat⟩ := h.next hc (by omega) hl
        obtain ⟨hpre, hitems, hcrash⟩ := ih (k + 1) it' (hat (by omega)) (by omega)
        rw [drain, hnext, List.range'_succ, List.map_cons]
        exact ⟨(List.prefix_cons_inj _).mpr hpre, fun hf => congrArg _ (hitems hf), hcrash⟩
      · have hnot : ¬ c.LocalFits := fun hf => hl (hbelow k (by omega) hf)
        simp [drain, h.crash hc (by omega) hl, hnot]
  have hn := hrun (c.count - k - 1) k it h (by omega)
  rw [IntoIterChunk.collect, h.count, show c.count - k + 1 = c.count - k - 1 + 2 by omega]
  rwa [show c.count - k - 1 + 1 = c.count - k by omega] at hn

end Turn

/-- A fragmenter starts at the first chunk of its cut. -/
lemma Valid.chunkFragmenter_at (hc : c.Valid) {p : UInt16} {size : UInt64}
    (hp : convertIbvMtuToU16 c.qpParam.pmtu = some p) (hP : p.toUInt64.toNat = c.P)
    (hsize : size.toNat = c.q * c.P) :
    ∃ it, chunkFragmenter c.wr c.qpParam (Psn.ofPos c.pos) size c.isRetry = .ok it ∧
      it.inner.len = c.count ∧ c.At 0 it := by
  have hstop := hc.stop_lt
  have hend : (c.wr.raddr + c.wr.length.toUInt64).toNat = c.stop := by
    have hlen : c.stop = c.wr.raddr.toNat + c.wr.length.toNat := rfl
    rw [UInt64.toNat_add, UInt32.toNat_toUInt64, Nat.mod_eq_of_lt (by omega), hlen]
  obtain ⟨-, -, -, haddr, hpos, hcount⟩ := hc.slice.intoIter_at
    (f := Fragmenter.new size p.toUInt64 c.wr.raddr c.wr.length.toUInt64) hsize hP rfl hend
  refine ⟨⟨(Fragmenter.new size p.toUInt64 c.wr.raddr c.wr.length.toUInt64).intoIter,
    Psn.ofPos c.pos, WrChunk.ofWr c.wr c.qpParam, c.wr.laddr, p.toUInt64, c.isRetry⟩,
    by rw [chunkFragmenter, hp], hcount, hsize, hP, hend, haddr, hpos, hcount, ?_, rfl, ?_, hP, rfl⟩
  · rw [Nat.zero_mul]; rfl
  · rw [segment, block_zero hc.origin_le.1, Nat.sub_self]
    rfl

/-- **What a fragmenter yields**: the chunks of the cut; it panics exactly if the local range
overflows. -/
theorem Valid.chunkFragmenter_eq (hc : c.Valid) {p : UInt16} {size : UInt64}
    (hp : convertIbvMtuToU16 c.qpParam.pmtu = some p) (hP : p.toUInt64.toNat = c.P)
    (hsize : size.toNat = c.q * c.P) :
    ∃ it, chunkFragmenter c.wr c.qpParam (Psn.ofPos c.pos) size c.isRetry = .ok it ∧
      it.inner.len = c.count ∧
      (c.LocalFits → it.collect.items = c.chunks) ∧
      (it.collect.crashed = none ↔ c.LocalFits) := by
  obtain ⟨it, hit, hlen, hat⟩ := hc.chunkFragmenter_at hp hP hsize
  refine ⟨it, hit, hlen, ?_⟩
  rw [chunks, List.range_eq_range']
  exact (hat.collect hc (blockCount_pos _ _ _)).2

/-- Even if it panics, it yields no other chunks. -/
lemma Valid.chunkFragmenter_isPrefix (hc : c.Valid) {p : UInt16} {size : UInt64}
    (hp : convertIbvMtuToU16 c.qpParam.pmtu = some p) (hP : p.toUInt64.toNat = c.P)
    (hsize : size.toNat = c.q * c.P) :
    ∃ it, chunkFragmenter c.wr c.qpParam (Psn.ofPos c.pos) size c.isRetry = .ok it ∧
      it.collect.items <+: c.chunks := by
  obtain ⟨it, hit, -, hat⟩ := hc.chunkFragmenter_at hp hP hsize
  refine ⟨it, hit, ?_⟩
  rw [chunks, List.range_eq_range']
  exact (hat.collect hc (blockCount_pos _ _ _)).1

end Cut

end OpenRdma
