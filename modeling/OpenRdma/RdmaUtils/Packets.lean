import OpenRdma.RdmaUtils.Fragmenter

/-!
# The packets of a work request

The packets of a request are the pieces of its remote address range between packet boundaries,
numbered with consecutive PSNs.  They arise in two ways, and this module says that the two agree:

* the hardware cuts every chunk it is given at packet boundaries (`hwPackets`, the address chunker
  and the header generator of the packet generator) — **`chunks_hwPackets`**: over the 64 KiB chunks
  of a request this gives all its packets, in order;
* the packet fragmenter cuts the request directly (`wrPacketFragmenter_eq`).

`numPsn`, on the other hand, computes how many PSNs are set aside for a request.
**`numPsn_packetCount`**: it is the number of packets exactly for requests that start at a packet
boundary or do not reach past the next one; for the others it is one less.
-/

namespace OpenRdma

/-- Fill in what distinguishes the chunks and packets of one request. -/
def WrChunk.place (c : WrChunk) (psn : Psn) (laddr raddr : UInt64) (len : UInt32)
    (isFirst isLast isRetry : Bool) : WrChunk :=
  { c with
    psn := psn
    laddr := laddr
    raddr := raddr
    len := len
    isFirst := isFirst
    isLast := isLast
    isRetry := isRetry }

/-! ## The hardware -/

/-- `workReqNeedPayloadGen`. -/
def WorkReqOpCode.needsPayload : WorkReqOpCode → Bool
  | rdmaWrite | rdmaWriteWithImm | send | sendWithImm | rdmaReadResp => true
  | _ => false

/-- How many blocks of `P` bytes the address chunker makes of a descriptor. -/
def hwCount (P : ℕ) (c : WrChunk) : ℕ :=
  blockCount (c.raddr.toNat / P * P) P (c.raddr.toNat + c.len.toNat)

/-- The packet of block `j`. -/
def hwPacketAt (P : ℕ) (c : WrChunk) (j : ℕ) : WrChunk :=
  let b := block (c.raddr.toNat / P * P) P c.raddr.toNat (c.raddr.toNat + c.len.toNat) j
  c.place (c.psn + UInt32.ofNat j) (c.laddr + UInt64.ofNat (b.1 - c.raddr.toNat)) (UInt64.ofNat b.1)
    (UInt32.ofNat (b.2 - b.1)) (c.isFirst && j == 0) (c.isLast && j + 1 == hwCount P c) c.isRetry

/-- A descriptor cut at the packet boundaries. -/
def hwSplit (P : ℕ) (c : WrChunk) : List WrChunk := (List.range (hwCount P c)).map (hwPacketAt P c)

/-- The packets the hardware sends for one descriptor, with packets of `P` bytes.  Without payload
it is a single packet with the descriptor's own fields. -/
def hwPackets (P : ℕ) (c : WrChunk) : List WrChunk :=
  if c.opcode.needsPayload && c.len != 0 then (List.range (hwCount P c)).map (hwPacketAt P c)
  else [c]

/-- A descriptor that does not reach past the next packet boundary is a packet already. -/
lemma hwPackets_eq_singleton {P : ℕ} {c : WrChunk} (hP : 0 < P) (hpsn : c.psn.InRange)
    (h : c.raddr.toNat % P + c.len.toNat ≤ P) :
    hwCount P c = 1 ∧ hwPacketAt P c 0 = c ∧ hwPackets P c = [c] := by
  have hdm := Nat.div_add_mod c.raddr.toNat P
  have hcomm : P * (c.raddr.toNat / P) = c.raddr.toNat / P * P := Nat.mul_comm _ _
  have hlt := Nat.mod_lt c.raddr.toNat hP
  have hcount : hwCount P c = 1 := by
    have hgo := (lt_blockCount (A := c.raddr.toNat / P * P) (e := c.raddr.toNat + c.len.toNat)
      (k := 0) hP).not.mpr (by omega)
    have := blockCount_pos (c.raddr.toNat / P * P) P (c.raddr.toNat + c.len.toNat)
    rw [hwCount]
    omega
  have hat : hwPacketAt P c 0 = c := by
    have hb : block (c.raddr.toNat / P * P) P c.raddr.toNat (c.raddr.toNat + c.len.toNat) 0
        = (c.raddr.toNat, c.raddr.toNat + c.len.toNat) := by
      simp only [block, Nat.zero_mul, Nat.add_zero, Nat.zero_add, Nat.one_mul, Prod.mk.injEq]
      omega
    have hpsn0 : c.psn + UInt32.ofNat 0 = c.psn := by
      rw [← Psn.ofPos_toNat hpsn, Psn.ofPos_add_ofNat]; rfl
    simp only [hwPacketAt, hb, hpsn0, hcount, Nat.sub_self, Nat.add_sub_cancel_left]
    cases c
    simp [WrChunk.place]
  refine ⟨hcount, hat, ?_⟩
  rw [hwPackets]
  split
  · rw [hcount]
    simp [hat]
  · rfl

/-- A descriptor without data is cut into one block, too. -/
lemma hwPackets_eq {P : ℕ} {c : WrChunk} (hP : 0 < P) (hop : c.opcode.needsPayload = true)
    (hpsn : c.psn.InRange) : hwPackets P c = hwSplit P c := by
  by_cases hlen : c.len = 0
  · have hmod := Nat.mod_lt c.raddr.toNat hP
    obtain ⟨hcount, hat, hpackets⟩ := hwPackets_eq_singleton hP hpsn (by rw [hlen]; exact hmod.le)
    rw [hpackets, hwSplit, hcount]
    simp [hat]
  · rw [hwPackets, if_pos (by simp [hop, hlen]), hwSplit]

/-! ## The two cuts of a request -/

/-- No remote address that the fragmenters compute reaches `2 ^ 64`: neither the end of the range,
nor the address 64 KiB after the start of a chunk. -/
def SendWrRdma.RemoteFits (wr : SendWrRdma) (P : ℕ) : Prop :=
  wr.raddr.toNat + wr.length.toNat < 2 ^ 64 ∧
    ∀ k < blockCount (wr.raddr.toNat / P * P) 0x10000 (wr.raddr.toNat + wr.length.toNat),
      (block (wr.raddr.toNat / P * P) 0x10000 wr.raddr.toNat (wr.raddr.toNat + wr.length.toNat) k).1
        + 0x10000 < 2 ^ 64

variable {wr : SendWrRdma}

/-- It is enough that the range ends 64 KiB earlier. -/
lemma SendWrRdma.remoteFits {P : ℕ}
    (h : wr.raddr.toNat + wr.length.toNat + 0x10000 < 2 ^ 64) : wr.RemoteFits P := by
  refine ⟨by omega, fun k hk => ?_⟩
  have hdiv := Nat.div_mul_le_self wr.raddr.toNat P
  cases k with
  | zero =>
    rw [block_zero hdiv]
    omega
  | succ k =>
    have hgo := (lt_blockCount (by norm_num)).mp hk
    simp only [block]
    omega

/-- The request is one the fragmenters can handle, with packets of `P` bytes. -/
structure SendWrRdma.Sendable (wr : SendWrRdma) (P : ℕ) : Prop where
  mtu : ∃ j, 8 ≤ j ∧ j ≤ 12 ∧ P = 2 ^ j
  remote : wr.RemoteFits P

lemma SendWrRdma.Sendable.P_pos {P : ℕ} (h : wr.Sendable P) : 0 < P := by
  obtain ⟨j, -, -, hj⟩ := h.mtu
  exact hj ▸ Nat.two_pow_pos j

variable {code : UInt8}

lemma SendWrRdma.sendable {p : UInt16} (hp : convertIbvMtuToU16 code = some p)
    (hremote : wr.raddr.toNat + wr.length.toNat + 0x10000 < 2 ^ 64) :
    wr.Sendable p.toUInt64.toNat := ⟨convertIbvMtuToU16_eq_some hp, wr.remoteFits hremote⟩

/-- The local range ends below `2 ^ 64`. -/
def SendWrRdma.LocalFits (wr : SendWrRdma) : Prop := wr.laddr.toNat + wr.length.toNat < 2 ^ 64

def packetCut (wr : SendWrRdma) (qpParam : QpParams) (pos P : ℕ) : Cut :=
  ⟨wr, qpParam, pos, P, 1, true⟩

def chunkCut (wr : SendWrRdma) (qpParam : QpParams) (pos P : ℕ) : Cut :=
  ⟨wr, qpParam, pos, P, 0x10000 / P, false⟩

section Cuts

variable {wr : SendWrRdma} {qpParam : QpParams} {pos P : ℕ}

variable (h : wr.Sendable P)

include h

lemma chunkCut_size : 0x10000 / P * P = 0x10000 := by
  obtain ⟨j, h8, h12, rfl⟩ := h.mtu
  exact Nat.div_mul_cancel (pow_dvd_pow 2 (show j ≤ 16 by omega))

lemma chunkCut_q_pos : 0 < 0x10000 / P := by
  have hsize := chunkCut_size h
  rcases Nat.eq_zero_or_pos (0x10000 / P) with h0 | hpos
  · rw [h0, Nat.zero_mul] at hsize
    exact absurd hsize (by decide)
  · exact hpos

lemma chunkCut_valid : (chunkCut wr qpParam pos P).Valid := by
  have hsize := chunkCut_size h
  refine ⟨h.mtu, chunkCut_q_pos h, h.remote.1, fun k hk => ?_⟩
  have hk' : k < blockCount (wr.raddr.toNat / P * P) (0x10000 / P * P)
    (wr.raddr.toNat + wr.length.toNat) := hk
  show (block (wr.raddr.toNat / P * P) (0x10000 / P * P) wr.raddr.toNat
    (wr.raddr.toNat + wr.length.toNat) k).1 + 0x10000 / P * P < 2 ^ 64
  rw [hsize] at hk' ⊢
  exact h.remote.2 k hk'

/-- The address a packet after the start of one is at most a chunk after the start of one. -/
lemma packetCut_valid : (packetCut wr qpParam pos P).Valid := by
  refine ⟨h.mtu, Nat.one_pos, h.remote.1, fun i hi => ?_⟩
  have hP := h.P_pos
  have hsize := chunkCut_size h
  have hq := chunkCut_q_pos h
  have hdiv := Nat.div_mul_le_self wr.raddr.toNat P
  have hi' : i < blockCount (wr.raddr.toNat / P * P) P (wr.raddr.toNat + wr.length.toNat) := by
    have : i < blockCount (wr.raddr.toNat / P * P) (1 * P) (wr.raddr.toNat + wr.length.toNat) := hi
    rwa [Nat.one_mul] at this
  show (block (wr.raddr.toNat / P * P) (1 * P) wr.raddr.toNat
    (wr.raddr.toNat + wr.length.toNat) i).1 + 1 * P < 2 ^ 64
  rw [Nat.one_mul]
  -- the packet is in chunk `i / q`
  have hdm := Nat.div_add_mod i (0x10000 / P)
  have hlt := Nat.mod_lt i hq
  have hcell : (i + 1) * P ≤ i / (0x10000 / P) * 0x10000 + 0x10000 := by
    calc (i + 1) * P ≤ (i / (0x10000 / P) * (0x10000 / P) + 0x10000 / P) * P := by
          refine Nat.mul_le_mul_right P ?_
          rw [Nat.mul_comm] at hdm
          omega
      _ = i / (0x10000 / P) * 0x10000 + 0x10000 := by rw [Nat.add_mul _ _ P, Nat.mul_assoc, hsize]
  have hle : i / (0x10000 / P) * 0x10000 ≤ i * P := by
    calc i / (0x10000 / P) * 0x10000 = i / (0x10000 / P) * (0x10000 / P) * P := by
          rw [Nat.mul_assoc, hsize]
      _ ≤ i * P := Nat.mul_le_mul_right P (Nat.div_mul_le_self _ _)
  have hchunk : i / (0x10000 / P)
      < blockCount (wr.raddr.toNat / P * P) 0x10000 (wr.raddr.toNat + wr.length.toNat) := by
    cases hk : i / (0x10000 / P) with
    | zero => exact blockCount_pos _ _ _
    | succ k =>
      rw [lt_blockCount (by norm_num)]
      rw [hk] at hle
      cases i with
      | zero => simp at hk
      | succ i =>
        have := (lt_blockCount hP).mp hi'
        omega
  have hremote := h.remote.2 _ hchunk
  have hsucc : (i + 1) * P = i * P + P := by ring
  have hPle : P ≤ 0x10000 := hsize ▸ Nat.le_mul_of_pos_left P hq
  simp only [block] at hremote ⊢
  omega

/-- What the fragmenter for the hardware yields. -/
lemma wrChunkFragmenter_eq {p : UInt16}
    (hp : convertIbvMtuToU16 qpParam.pmtu = some p) (hP : p.toUInt64.toNat = P) :
    ∃ it, wrChunkFragmenter wr qpParam (Psn.ofPos pos) = .ok it ∧
      (wr.LocalFits → it.collect.items = (chunkCut wr qpParam pos P).chunks) ∧
      (it.collect.crashed = none ↔ wr.LocalFits) := by
  have hsize : wrChunkSize.toNat = 0x10000 / P * P := (chunkCut_size h).symm
  have hvalid : (chunkCut wr qpParam pos P).Valid := chunkCut_valid h
  obtain ⟨it, hit, -, hitems⟩ := hvalid.chunkFragmenter_eq hp hP hsize
  exact ⟨it, hit, hitems⟩

/-- Even if it panics, it yields no other chunks. -/
lemma wrChunkFragmenter_isPrefix {p : UInt16}
    (hp : convertIbvMtuToU16 qpParam.pmtu = some p) (hP : p.toUInt64.toNat = P) :
    ∃ it, wrChunkFragmenter wr qpParam (Psn.ofPos pos) = .ok it ∧
      it.collect.items <+: (chunkCut wr qpParam pos P).chunks := by
  have hvalid : (chunkCut wr qpParam pos P).Valid := chunkCut_valid h
  exact hvalid.chunkFragmenter_isPrefix hp hP (chunkCut_size h).symm

/-- What the fragmenter for retransmissions yields. -/
lemma wrPacketFragmenter_eq {p : UInt16}
    (hp : convertIbvMtuToU16 qpParam.pmtu = some p) (hP : p.toUInt64.toNat = P) :
    ∃ it, wrPacketFragmenter wr qpParam (Psn.ofPos pos) = .ok it ∧
      it.inner.len = (packetCut wr qpParam pos P).count ∧
      (wr.LocalFits → it.collect.items = (packetCut wr qpParam pos P).chunks) ∧
      (it.collect.crashed = none ↔ wr.LocalFits) := by
  rw [wrPacketFragmenter, hp]
  exact (packetCut_valid h).chunkFragmenter_eq hp hP (by rw [hP]; exact (Nat.one_mul P).symm)

end Cuts

/-! ## The two ways agree -/

/-- The position with the given two flags. -/
def ChunkPos.ofFlags : Bool → Bool → ChunkPos
  | true, true => only
  | true, false => first
  | false, true => last
  | false, false => middle

lemma posAt_eq_ofFlags {n k : ℕ} (hk : k < n) :
    posAt n k = .ofFlags (decide (k = 0)) (decide (k + 1 = n)) := by
  unfold posAt
  by_cases h1 : n = 1
  · have h0 : k = 0 := by omega
    simp [h1, h0, ChunkPos.ofFlags]
  · by_cases h0 : k = 0
    · simp [h0, h1, Ne.symm h1, ChunkPos.ofFlags]
    · by_cases hl : k + 1 = n
      · simp [h0, h1, hl, ChunkPos.ofFlags]
      · simp [h0, h1, hl, ChunkPos.ofFlags]

lemma WrChunk.setChunkMeta_ofFlags {c : WrChunk} (psn : Psn) (laddr raddr : UInt64) (len : UInt32)
    (isFirst isLast : Bool) (h : c.isFirst = false ∧ c.isLast = false) :
    c.setChunkMeta psn laddr raddr len (.ofFlags isFirst isLast)
      = c.place psn laddr raddr len isFirst isLast c.isRetry := by
  obtain ⟨h1, h2⟩ := h
  cases isFirst <;> cases isLast <;> simp [setChunkMeta, ChunkPos.ofFlags, place, h1, h2]

namespace Cut

/-- A chunk with its position as two flags. -/
lemma chunkAt_eq (c : Cut) {k : ℕ} (hk : k < c.count) :
    c.chunkAt k = (WrChunk.ofWr c.wr c.qpParam).place (Psn.ofPos (c.pos + k * c.q))
      (c.wr.laddr + UInt64.ofNat ((c.segment k).1 - c.start)) (UInt64.ofNat (c.segment k).1)
      (UInt32.ofNat ((c.segment k).2 - (c.segment k).1)) (decide (k = 0))
      (decide (k + 1 = c.count)) c.isRetry := by
  have hflags : (WrChunk.ofWr c.wr c.qpParam).isFirst = false ∧
      (WrChunk.ofWr c.wr c.qpParam).isLast = false := ⟨rfl, rfl⟩
  rw [chunkAt, posAt_eq_ofFlags hk, WrChunk.setChunkMeta_ofFlags _ _ _ _ _ _ hflags]
  cases c.isRetry <;> rfl

end Cut

section Agree

variable {wr : SendWrRdma} {qpParam : QpParams} {pos P : ℕ}

/-- The number of packets of a request. -/
def packetCount (wr : SendWrRdma) (P : ℕ) : ℕ :=
  blockCount (wr.raddr.toNat / P * P) P (wr.raddr.toNat + wr.length.toNat)

lemma packetCut_count : (packetCut wr qpParam pos P).count = packetCount wr P := by
  rw [Cut.count, packetCut, packetCount, Nat.one_mul]
  rfl

/-- The address range of packet `i`. -/
def packetRange (wr : SendWrRdma) (P i : ℕ) : ℕ × ℕ :=
  block (wr.raddr.toNat / P * P) P wr.raddr.toNat (wr.raddr.toNat + wr.length.toNat) i

/-- Packet `i` of a request. -/
def packetAt (wr : SendWrRdma) (qpParam : QpParams) (pos P : ℕ) (isRetry : Bool)
    (i : ℕ) : WrChunk :=
  (WrChunk.ofWr wr qpParam).place (Psn.ofPos (pos + i))
    (wr.laddr + UInt64.ofNat ((packetRange wr P i).1 - wr.raddr.toNat))
    (UInt64.ofNat (packetRange wr P i).1)
    (UInt32.ofNat ((packetRange wr P i).2 - (packetRange wr P i).1)) (decide (i = 0))
    (decide (i + 1 = packetCount wr P)) isRetry

/-- The packet fragmenter yields the packets, marked as retransmissions. -/
lemma packetCut_chunks : (packetCut wr qpParam pos P).chunks
    = (List.range (packetCount wr P)).map (packetAt wr qpParam pos P true) := by
  have hseg : ∀ i, (packetCut wr qpParam pos P).segment i = packetRange wr P i := fun i => by
    rw [Cut.segment, packetCut, packetRange, Nat.one_mul]
    rfl
  rw [Cut.chunks, packetCut_count]
  refine List.map_congr_left (fun i hi => ?_)
  rw [Cut.chunkAt_eq _ (by rw [packetCut_count]; exact List.mem_range.mp hi), packetAt, hseg,
    packetCut_count, show (packetCut wr qpParam pos P).q = 1 from rfl, Nat.mul_one]
  rfl

/-- A packet does not reach past a packet boundary. -/
lemma packetRange_le {i : ℕ} (h : wr.Sendable P) (hi : i < packetCount wr P) :
    wr.raddr.toNat ≤ (packetRange wr P i).1 ∧ (packetRange wr P i).1 ≤ (packetRange wr P i).2 ∧
      (packetRange wr P i).2 ≤ wr.raddr.toNat + wr.length.toNat ∧
      (packetRange wr P i).1 % P + ((packetRange wr P i).2 - (packetRange wr P i).1) ≤ P := by
  have hP : 0 < P := h.P_pos
  have hdm := Nat.div_add_mod wr.raddr.toNat P
  have hcomm : P * (wr.raddr.toNat / P) = wr.raddr.toNat / P * P := Nat.mul_comm _ _
  have hlt := Nat.mod_lt wr.raddr.toNat hP
  have hle : (packetRange wr P i).1 ≤ (packetRange wr P i).2 :=
    block_le (by omega) (by omega) (by omega) hP hi
  refine ⟨le_max_left _ _, hle, min_le_left _ _, ?_⟩
  have hstop : (packetRange wr P i).2 ≤ wr.raddr.toNat / P * P + (i + 1) * P := min_le_right _ _
  have hsucc : (i + 1) * P = i * P + P := by ring
  cases i with
  | zero =>
    have hstart : (packetRange wr P 0).1 = wr.raddr.toNat := block_zero (by omega)
    rw [hstart] at hle ⊢
    omega
  | succ i =>
    have hstart : (packetRange wr P (i + 1)).1 = wr.raddr.toNat / P * P + (i + 1) * P :=
      block_succ (by omega)
    have hmod : (packetRange wr P (i + 1)).1 % P = 0 := by
      rw [hstart, ← Nat.add_mul, Nat.mul_mod_left]
    omega

/-- Given to the hardware as a descriptor, a packet is sent as it is. -/
lemma hwPackets_packetAt {i : ℕ} {isRetry : Bool} (h : wr.Sendable P) (hi : i < packetCount wr P) :
    hwPackets P (packetAt wr qpParam pos P isRetry i) = [packetAt wr qpParam pos P isRetry i] := by
  have hP : 0 < P := h.P_pos
  obtain ⟨h1, h2, h3, h4⟩ := packetRange_le h hi
  have hstop := h.remote.1
  have hlen := wr.length.toNat_lt
  have hraddr : (packetAt wr qpParam pos P isRetry i).raddr.toNat = (packetRange wr P i).1 := by
    show (UInt64.ofNat (packetRange wr P i).1).toNat = _
    rw [UInt64.toNat_ofNat', Nat.mod_eq_of_lt (by omega)]
  have hplen : (packetAt wr qpParam pos P isRetry i).len.toNat
      = (packetRange wr P i).2 - (packetRange wr P i).1 := by
    show (UInt32.ofNat ((packetRange wr P i).2 - (packetRange wr P i).1)).toNat = _
    rw [UInt32.toNat_ofNat', Nat.mod_eq_of_lt (by omega)]
  exact (hwPackets_eq_singleton hP (Psn.ofPos_inRange _) (by rw [hraddr, hplen]; exact h4)).2.2

/-- Fine piece `j` of chunk `k` is packet `k * q + j`. -/
lemma packet_lt {k j : ℕ} (h : wr.Sendable P) (hk : k < (chunkCut wr qpParam pos P).count)
    (hj : j < fineCount (chunkCut wr qpParam pos P).origin P (0x10000 / P)
      (chunkCut wr qpParam pos P).stop k) :
    k * (0x10000 / P) + j < packetCount wr P ∧
    (k * (0x10000 / P) + j + 1 = packetCount wr P ↔ k + 1 = (chunkCut wr qpParam pos P).count ∧
      j + 1 = fineCount (chunkCut wr qpParam pos P).origin P (0x10000 / P)
        (chunkCut wr qpParam pos P).stop k) := by
  have hv : (chunkCut wr qpParam pos P).Valid := chunkCut_valid h
  obtain ⟨m, hm⟩ : ∃ m, (chunkCut wr qpParam pos P).count = m + 1 :=
    ⟨_, (Nat.succ_pred_eq_of_pos (blockCount_pos _ _ _)).symm⟩
  have htotal :
    packetCount wr P = m * (0x10000 / P) + fineCount (chunkCut wr qpParam pos P).origin P
      (0x10000 / P) (chunkCut wr qpParam pos P).stop m := fineCount_last hv.P_pos hv.q_pos hm.symm
  have hpos : 0 < fineCount (chunkCut wr qpParam pos P).origin P (0x10000 / P)
      (chunkCut wr qpParam pos P).stop m := blockCount_pos _ _ _
  rcases Nat.lt_or_ge k m with hkm | hkm
  · have hfull : fineCount (chunkCut wr qpParam pos P).origin P (0x10000 / P)
        (chunkCut wr qpParam pos P).stop k = 0x10000 / P :=
      fineCount_full hv.P_pos hv.q_pos (show k + 1 < (chunkCut wr qpParam pos P).count by omega)
    have hrow : (k + 1) * (0x10000 / P) ≤ m * (0x10000 / P) := Nat.mul_le_mul_right _ hkm
    have hsucc : (k + 1) * (0x10000 / P) = k * (0x10000 / P) + 0x10000 / P := by ring
    exact ⟨by omega, by omega, by omega⟩
  · obtain rfl : k = m := by omega
    exact ⟨by omega, by omega, by omega⟩

/-- A chunk starts at a packet boundary, unless it is the first one. -/
lemma Cut.Valid.segment_origin {c : Cut} (hc : c.Valid) (k : ℕ) :
    (c.segment k).1 / c.P * c.P = c.origin + k * (c.q * c.P) := by
  cases k with
  | zero =>
    rw [segment, block_zero hc.origin_le.1, Nat.zero_mul, Nat.add_zero]
    rfl
  | succ k =>
    have h1 := hc.origin_le
    have h2 := hc.le_size
    rw [segment, block_succ (by omega), origin, show c.start / c.P * c.P + (k + 1) * (c.q * c.P)
      = (c.start / c.P + (k + 1) * c.q) * c.P by ring, Nat.mul_div_cancel _ hc.P_pos]

/-- Cutting chunk `k` at the packet boundaries. -/
lemma hwSplit_chunkAt {k : ℕ} (h : wr.Sendable P) (hk : k < (chunkCut wr qpParam pos P).count) :
    hwSplit P ((chunkCut wr qpParam pos P).chunkAt k)
      = (List.range (fineCount (chunkCut wr qpParam pos P).origin P (0x10000 / P)
          (chunkCut wr qpParam pos P).stop k)).map
        fun j => packetAt wr qpParam pos P false (k * (0x10000 / P) + j) := by
  have hv : (chunkCut wr qpParam pos P).Valid := chunkCut_valid h
  have hP : 0 < P := hv.P_pos
  have hq : 0 < 0x10000 / P := hv.q_pos
  set c := chunkCut wr qpParam pos P with hc
  obtain ⟨hlo, hle, hhi⟩ := hv.segment_bounds hk
  have hlt64 := h.remote.1
  have hlen := wr.length.toNat_lt
  have hstart : c.start = wr.raddr.toNat := rfl
  have hstop : c.stop = wr.raddr.toNat + wr.length.toNat := rfl
  have hraddr : (c.chunkAt k).raddr.toNat = (c.segment k).1 := by
    rw [c.chunkAt_eq hk]
    show (UInt64.ofNat (c.segment k).1).toNat = _
    rw [UInt64.toNat_ofNat', Nat.mod_eq_of_lt (by omega)]
  have hclen : (c.chunkAt k).raddr.toNat + (c.chunkAt k).len.toNat = (c.segment k).2 := by
    rw [hraddr, c.chunkAt_eq hk]
    show (c.segment k).1 + (UInt32.ofNat ((c.segment k).2 - (c.segment k).1)).toNat = _
    rw [UInt32.toNat_ofNat', Nat.mod_eq_of_lt (by omega)]
    omega
  have horigin : (c.segment k).1 / P * P = c.origin + k * (0x10000 / P * P) := hv.segment_origin k
  have hcount : hwCount P (c.chunkAt k) = fineCount c.origin P (0x10000 / P) c.stop k := by
    rw [hwCount, hclen, hraddr, horigin]
    rfl
  have hpsn : (c.chunkAt k).psn = Psn.ofPos (pos + k * (0x10000 / P)) := by
    rw [c.chunkAt_eq hk]; rfl
  rw [hwSplit, hcount]
  refine List.map_congr_left (fun j hj => ?_)
  have hj := List.mem_range.mp hj
  have hjq : j < 0x10000 / P := lt_of_lt_of_le hj (fineCount_le hP hq)
  obtain ⟨hlt, hlast⟩ := packet_lt h hk hj
  -- the piece of the address range
  have hblock : block ((c.chunkAt k).raddr.toNat / P * P) P (c.chunkAt k).raddr.toNat
      ((c.chunkAt k).raddr.toNat + (c.chunkAt k).len.toNat) j
      = packetRange wr P (k * (0x10000 / P) + j) := by
    rw [hclen, hraddr, horigin]
    exact block_refine hjq
  have hseg : (c.segment k).1 ≤ (packetRange wr P (k * (0x10000 / P) + j)).1 := by
    rw [← hblock, hraddr]
    exact le_max_left _ _
  have hladdr : (c.chunkAt k).laddr
      + UInt64.ofNat ((packetRange wr P (k * (0x10000 / P) + j)).1 - (c.segment k).1)
      = wr.laddr
        + UInt64.ofNat ((packetRange wr P (k * (0x10000 / P) + j)).1 - wr.raddr.toNat) := by
    rw [c.chunkAt_eq hk]
    show wr.laddr + UInt64.ofNat ((c.segment k).1 - c.start) + UInt64.ofNat _ = _
    rw [UInt64.add_assoc, ← UInt64.ofNat_add, hstart]
    congr 2
    omega
  -- the first and the last packet
  have hfirst : ((c.chunkAt k).isFirst && j == 0) = decide (k * (0x10000 / P) + j = 0) := by
    rw [c.chunkAt_eq hk, Bool.eq_iff_iff]
    simp only [WrChunk.place, Bool.and_eq_true, decide_eq_true_eq, beq_iff_eq, Nat.add_eq_zero_iff,
      Nat.mul_eq_zero]
    omega
  have hlastb : ((c.chunkAt k).isLast && j + 1 == fineCount c.origin P (0x10000 / P) c.stop k)
      = decide (k * (0x10000 / P) + j + 1 = packetCount wr P) := by
    rw [c.chunkAt_eq hk, Bool.eq_iff_iff]
    simp only [WrChunk.place, Bool.and_eq_true, decide_eq_true_eq, beq_iff_eq]
    exact hlast.symm
  rw [hwPacketAt, hblock, hraddr, hladdr, hpsn, Psn.ofPos_add_ofNat, hcount, hfirst, hlastb,
    c.chunkAt_eq hk, packetAt, ← Nat.add_assoc]
  rfl

/-- **The chunks of a request, cut at the packet boundaries, are its packets.** -/
theorem chunks_hwSplit (h : wr.Sendable P) :
    (chunkCut wr qpParam pos P).chunks.flatMap (hwSplit P)
      = (List.range (packetCount wr P)).map (packetAt wr qpParam pos P false) := by
  have hv : (chunkCut wr qpParam pos P).Valid := chunkCut_valid h
  have hP : 0 < P := hv.P_pos
  have hq : 0 < 0x10000 / P := hv.q_pos
  rw [packetCount, range_refine _ _ _ hP hq, Cut.chunks, List.flatMap_map]
  exact List.flatMap_congr fun k hk => hwSplit_chunkAt h (List.mem_range.mp hk)

/-- **The hardware makes the packets of a request out of its chunks.** -/
theorem chunks_hwPackets (h : wr.Sendable P) (hop : wr.opcode.needsPayload = true) :
    (chunkCut wr qpParam pos P).chunks.flatMap (hwPackets P)
      = (List.range (packetCount wr P)).map (packetAt wr qpParam pos P false) := by
  rw [← chunks_hwSplit h, Cut.chunks, List.flatMap_map, List.flatMap_map]
  refine List.flatMap_congr fun k hk => ?_
  have hchunk := (chunkCut wr qpParam pos P).chunkAt_eq (List.mem_range.mp hk)
  refine hwPackets_eq h.P_pos ?_ ?_
  · rw [hchunk]; exact hop
  · rw [hchunk]; exact Psn.ofPos_inRange _

end Agree

/-! ## The PSNs set aside -/

lemma max_toNat (a b : UInt64) : (max a b).toNat = max a.toNat b.toNat := by
  rw [show max a b = if a ≤ b then b else a from rfl]
  split
  · next h => exact (max_eq_right (UInt64.le_iff_toNat_le.mp h)).symm
  · next h =>
      rw [UInt64.le_iff_toNat_le] at h
      exact (max_eq_left (by omega)).symm

/-- `num_psn` in plain arithmetic: the part of the request after the next packet boundary is
counted, unless the request does not reach it. -/
lemma numPsn_eq {p : UInt16} {addr : UInt64} {length : UInt32}
    (hp : convertIbvMtuToU16 code = some p) (hremote : addr.toNat + 0x10000 < 2 ^ 64) :
    let P := p.toUInt64.toNat
    let gap := (addr.toNat + P - 1) / P * P - addr.toNat
    let rest := if gap ≤ length.toNat then length.toNat - gap else length.toNat
    ∃ n : UInt32, numPsn code addr length = some n ∧ n.toNat = max ((rest + P - 1) / P) 1 := by
  intro P gap rest
  obtain ⟨j, h8, h12, hj⟩ := convertIbvMtuToU16_eq_some hp
  have hPj : P = 2 ^ j := hj
  have hPlow : 2 ^ 8 ≤ P := hPj ▸ Nat.pow_le_pow_right (by omega) h8
  have hPhigh : P ≤ 2 ^ 12 := hPj ▸ Nat.pow_le_pow_right (by omega) h12
  have hP16 : p.toNat = P := by simp [P]
  have hmask : (p - 1).toUInt64.toNat = P - 1 := by
    rw [UInt16.toNat_toUInt64, UInt16.toNat_sub_of_le _ _ (by
      rw [UInt16.le_iff_toNat_le, hP16]; show 1 ≤ P; omega), hP16]
    rfl
  have hsat : (saturatingAdd addr (p - 1).toUInt64).toNat = addr.toNat + P - 1 := by
    rw [saturatingAdd, if_pos (by rw [hmask]; omega), UInt64.toNat_add, hmask,
      Nat.mod_eq_of_lt (by omega)]
    omega
  have halign : (saturatingAdd addr (p - 1).toUInt64 &&& ~~~(p - 1).toUInt64).toNat
      = (addr.toNat + P - 1) / P * P := by
    rw [and_not_mask (j := j) (by rw [hmask]; omega), hsat, ← hj]
  have hge : addr.toNat ≤ (addr.toNat + P - 1) / P * P := by
    have h1 := Nat.div_add_mod (addr.toNat + P - 1) P
    have h2 := Nat.mod_lt (addr.toNat + P - 1) (show 0 < P by omega)
    rw [Nat.mul_comm] at h1
    omega
  have hgap : (saturatingSub (saturatingAdd addr (p - 1).toUInt64 &&& ~~~(p - 1).toUInt64)
      addr).toNat = gap := by
    have hle : addr ≤ saturatingAdd addr (p - 1).toUInt64 &&& ~~~(p - 1).toUInt64 := by
      rw [UInt64.le_iff_toNat_le, halign]; exact hge
    rw [saturatingSub, if_pos hle, UInt64.toNat_sub_of_le _ _ hle, halign]
  have hrest : ((checkedSub length.toUInt64 (saturatingSub
      (saturatingAdd addr (p - 1).toUInt64 &&& ~~~(p - 1).toUInt64) addr)).getD
      length.toUInt64).toNat = rest := by
    simp only [checkedSub, rest, UInt64.le_iff_toNat_le, hgap, UInt32.toNat_toUInt64]
    split
    · next hle =>
        rw [Option.getD_some, UInt64.toNat_sub_of_le _ _ (by
          rw [UInt64.le_iff_toNat_le, hgap, UInt32.toNat_toUInt64]; exact hle), hgap,
          UInt32.toNat_toUInt64]
    · rw [Option.getD_none, UInt32.toNat_toUInt64]
  have hlen := length.toNat_lt
  have hrestlt : rest ≤ length.toNat := by
    simp only [rest]
    split <;> omega
  have hcount : (max (divCeil ((checkedSub length.toUInt64 (saturatingSub
      (saturatingAdd addr (p - 1).toUInt64 &&& ~~~(p - 1).toUInt64) addr)).getD length.toUInt64)
      p.toUInt64) 1).toNat = max ((rest + P - 1) / P) 1 := by
    rw [max_toNat, divCeil_toNat _ (show 0 < P by omega), hrest]
    rfl
  have hbound : max ((rest + P - 1) / P) 1 < 2 ^ 32 := by
    have : (rest + P - 1) / P < 2 ^ 32 := (Nat.div_lt_iff_lt_mul (by omega)).mpr (by omega)
    omega
  refine ⟨_, by
    simp only [numPsn, hp]
    rw [if_pos (by rw [hcount]; exact hbound)], ?_⟩
  rw [UInt64.toNat_toUInt32, hcount, Nat.mod_eq_of_lt hbound]

/-- Every request is given at least one PSN. -/
lemma numPsn_pos {addr : UInt64} {length n : UInt32}
    (h : numPsn code addr length = some n) : 0 < n.toNat := by
  unfold numPsn at h
  cases hp : convertIbvMtuToU16 code with
  | none => simp [hp] at h
  | some p =>
    simp only [hp] at h
    split at h
    · next hlt =>
        rw [← Option.some.inj h, UInt64.toNat_toUInt32, Nat.mod_eq_of_lt hlt, max_toNat]
        exact lt_of_lt_of_le Nat.one_pos (le_max_right _ _)
    · exact absurd h (by simp)

/-- The request starts at a packet boundary, or ends at or before the next one. -/
def SendWrRdma.Fits (wr : SendWrRdma) (P : ℕ) : Prop :=
  wr.raddr.toNat % P = 0 ∨ wr.raddr.toNat % P + wr.length.toNat ≤ P

instance (wr : SendWrRdma) (P : ℕ) : Decidable (wr.Fits P) := inferInstanceAs (Decidable (_ ∨ _))

/-- **The PSNs set aside against the packets**: as many, or one too few. -/
theorem numPsn_packetCount {p : UInt16}
    (hp : convertIbvMtuToU16 code = some p) (h : wr.Sendable p.toUInt64.toNat) :
    ∃ n, numPsn code wr.raddr wr.length = some n ∧
      packetCount wr p.toUInt64.toNat
        = if wr.Fits p.toUInt64.toNat then n.toNat else n.toNat + 1 := by
  have hremote := h.remote.2 0 (blockCount_pos _ _ _)
  have hstart : wr.raddr.toNat + 0x10000 < 2 ^ 64 := by
    rwa [block_zero (Nat.div_mul_le_self _ _)] at hremote
  obtain ⟨n, hn, hcount⟩ : ∃ n, numPsn code wr.raddr wr.length = some n ∧ _ := numPsn_eq hp hstart
  refine ⟨n, hn, ?_⟩
  obtain ⟨j, h8, -, hj⟩ := h.mtu
  set P := p.toUInt64.toNat with hPdef
  have hP : 0 < P := hj ▸ Nat.two_pow_pos j
  have hdm := Nat.div_add_mod wr.raddr.toNat P
  have hlt := Nat.mod_lt wr.raddr.toNat hP
  have hcomm : P * (wr.raddr.toNat / P) = wr.raddr.toNat / P * P := Nat.mul_comm _ _
  have hspan : wr.raddr.toNat + wr.length.toNat - wr.raddr.toNat / P * P
      = wr.raddr.toNat % P + wr.length.toNat := by omega
  rw [packetCount, blockCount, hspan, hcount]
  rcases Nat.eq_zero_or_pos (wr.raddr.toNat % P) with h0 | hpos
  · -- aligned: there is no gap
    have hgap : (wr.raddr.toNat + P - 1) / P * P - wr.raddr.toNat = 0 := by
      have : (wr.raddr.toNat + P - 1) / P = wr.raddr.toNat / P :=
        Nat.div_eq_of_lt_le (by omega) (by rw [Nat.add_mul]; omega)
      rw [this]; omega
    have hfits : wr.Fits P := .inl h0
    rw [if_pos hfits, hgap, if_pos (Nat.zero_le _), h0, Nat.zero_add, Nat.sub_zero]
    exact max_comm _ _
  · -- unaligned: the gap is the rest of the packet the request starts in
    have hgap : (wr.raddr.toNat + P - 1) / P * P - wr.raddr.toNat = P - wr.raddr.toNat % P := by
      have : (wr.raddr.toNat + P - 1) / P = wr.raddr.toNat / P + 1 :=
        Nat.div_eq_of_lt_le (by rw [Nat.add_mul]; omega) (by rw [Nat.add_mul, Nat.add_mul]; omega)
      rw [this, Nat.add_mul]; omega
    rw [hgap]
    rcases Nat.lt_or_ge P (wr.raddr.toNat % P + wr.length.toNat) with hlong | hshort
    · have hnot : ¬ wr.Fits P := by rintro (h | h) <;> omega
      rw [if_neg hnot, if_pos (by omega), show wr.raddr.toNat % P + wr.length.toNat + P - 1
        = wr.length.toNat - (P - wr.raddr.toNat % P) + P - 1 + P by omega, Nat.add_div_right _ hP]
      have : 1 ≤ (wr.length.toNat - (P - wr.raddr.toNat % P) + P - 1) / P :=
        (Nat.le_div_iff_mul_le hP).mpr (by omega)
      omega
    · have hfits : wr.Fits P := .inr hshort
      rw [if_pos hfits]
      have h1 : (wr.raddr.toNat % P + wr.length.toNat + P - 1) / P ≤ 1 :=
        Nat.lt_succ_iff.mp ((Nat.div_lt_iff_lt_mul hP).mpr (by omega))
      have h2 : ((if P - wr.raddr.toNat % P ≤ wr.length.toNat
          then wr.length.toNat - (P - wr.raddr.toNat % P) else wr.length.toNat) + P - 1) / P ≤
            1 := by
        refine Nat.lt_succ_iff.mp ((Nat.div_lt_iff_lt_mul hP).mpr ?_)
        split <;> omega
      omega

end OpenRdma
