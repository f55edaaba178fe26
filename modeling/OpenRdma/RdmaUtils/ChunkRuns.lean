import OpenRdma.RdmaUtils.Packets

/-!
# Chunks as runs of packets

The first transmission of a request is described to the hardware in chunks, a retransmission in
packets.  Which PSN a byte is sent with must not depend on which of the two is used.

* **`chunks_cover_packets`** — the chunks of a request cover consecutive runs of its packets, so
  that both ways number every byte alike.
-/

namespace OpenRdma

namespace WrChunk

/-- The bytes of a descriptor: where each goes to, and where it is taken from. -/
def moved (c : WrChunk) : List (UInt64 × UInt64) :=
  (List.range c.len.toNat).map fun i => (c.raddr + UInt64.ofNat i, c.laddr + UInt64.ofNat i)

/-- The bytes with the PSN they are sent with. -/
def numberedMoved (c : WrChunk) : List ((UInt64 × UInt64) × Psn) := c.moved.map (·, c.psn)

/-- The descriptor starts as the first of the packets does, and moves what they move. -/
def Covers (c : WrChunk) (packets : List WrChunk) : Prop :=
  (∃ p, packets.head? = some p ∧ c.raddr = p.raddr ∧ c.laddr = p.laddr ∧ c.psn = p.psn) ∧
    c.moved = packets.flatMap moved

end WrChunk

/-! ## Cutting a descriptor -/

section Split

variable {P : ℕ} {c : WrChunk}

/-- The bytes of packet `j` are those of the descriptor in block `j`. -/
lemma moved_hwPacketAt (hP : 0 < P) (j : ℕ) :
    (hwPacketAt P c j).moved
      = (List.range' (block (c.raddr.toNat / P * P) P c.raddr.toNat
            (c.raddr.toNat + c.len.toNat) j).1
          ((block (c.raddr.toNat / P * P) P c.raddr.toNat (c.raddr.toNat + c.len.toNat) j).2
            - (block (c.raddr.toNat / P * P) P c.raddr.toNat
              (c.raddr.toNat + c.len.toNat) j).1)).map
        fun a => (UInt64.ofNat a, c.laddr + UInt64.ofNat (a - c.raddr.toNat)) := by
  have hdiv := Nat.div_mul_le_self c.raddr.toNat P
  have hdm := Nat.div_add_mod c.raddr.toNat P
  have hlt := Nat.mod_lt c.raddr.toNat hP
  rw [Nat.mul_comm] at hdm
  generalize hb : block (c.raddr.toNat / P * P) P c.raddr.toNat (c.raddr.toNat + c.len.toNat) j = b
  have hlow : c.raddr.toNat ≤ b.1 := hb ▸ le_max_left _ _
  have hhigh : b.2 ≤ c.raddr.toNat + c.len.toNat := hb ▸ min_le_left _ _
  have hlen : (hwPacketAt P c j).len.toNat = b.2 - b.1 := by
    have := c.len.toNat_lt
    simp only [hwPacketAt, WrChunk.place, hb]
    rw [UInt32.toNat_ofNat', Nat.mod_eq_of_lt (by omega)]
  rw [WrChunk.moved, hlen, List.range'_eq_map_range, List.map_map]
  refine List.map_congr_left fun i _ => ?_
  simp only [hwPacketAt, WrChunk.place, hb, Function.comp_apply, Prod.mk.injEq]
  refine ⟨(UInt64.ofNat_add _ _).symm, ?_⟩
  rw [UInt64.add_assoc, ← UInt64.ofNat_add]
  congr 2
  omega

/-- **Cutting a descriptor keeps its bytes.** -/
theorem moved_hwSplit (hP : 0 < P) (c : WrChunk) :
    (hwSplit P c).flatMap WrChunk.moved = c.moved := by
  have hdiv := Nat.div_mul_le_self c.raddr.toNat P
  have hdm := Nat.div_add_mod c.raddr.toNat P
  have hlt := Nat.mod_lt c.raddr.toNat hP
  rw [Nat.mul_comm] at hdm
  have hblocks := range'_blocks (e := c.raddr.toNat + c.len.toNat) hdiv
    (show c.raddr.toNat ≤ c.raddr.toNat / P * P + P by omega) (Nat.le_add_right _ _) hP
  calc (hwSplit P c).flatMap WrChunk.moved
      = (List.range (hwCount P c)).flatMap fun j => (hwPacketAt P c j).moved := by
        rw [hwSplit, List.flatMap_map]
    _ = (List.range' c.raddr.toNat c.len.toNat).map
          fun a => (UInt64.ofNat a, c.laddr + UInt64.ofNat (a - c.raddr.toNat)) := by
        rw [List.flatMap_congr fun j _ => moved_hwPacketAt hP j,
          ← List.map_flatMap, hwCount, hblocks, Nat.add_sub_cancel_left]
    _ = c.moved := by
        rw [WrChunk.moved, List.range'_eq_map_range, List.map_map]
        refine List.map_congr_left fun i _ => ?_
        simp [UInt64.ofNat_add]

/-- A descriptor covers what it is cut into. -/
lemma covers_hwSplit (hP : 0 < P) (hpsn : c.psn.InRange) : c.Covers (hwSplit P c) := by
  refine ⟨⟨hwPacketAt P c 0, ?_, ?_, ?_, ?_⟩, (moved_hwSplit hP c).symm⟩
  · obtain ⟨n, hn⟩ : ∃ n, hwCount P c = n + 1 :=
      ⟨_, (Nat.succ_pred_eq_of_pos (blockCount_pos _ _ _)).symm⟩
    rw [hwSplit, hn, List.range_succ_eq_map]
    rfl
  all_goals simp only [hwPacketAt, WrChunk.place, block_zero (Nat.div_mul_le_self _ _),
    Nat.sub_self]
  · exact UInt64.ofNat_toNat.symm
  · exact (UInt64.add_zero _).symm
  · rw [← Psn.ofPos_toNat hpsn, Psn.ofPos_add_ofNat]
    rfl

end Split

/-! ## The two ways -/

section Agree

variable {wr : SendWrRdma} {qpParam : QpParams} {pos P : ℕ}

/-- The packets of a retransmission are the chunks of the first transmission, cut. -/
lemma packetCut_eq_split (h : wr.Sendable P) : (packetCut wr qpParam pos P).chunks
    = ((chunkCut wr qpParam pos P).chunks.map fun c =>
      (hwSplit P c).map WrChunk.setIsRetry).flatten := by
  rw [← List.flatMap_def, ← List.map_flatMap, chunks_hwSplit h, packetCut_chunks, List.map_map]
  rfl

/-- The packets start one after the other. -/
lemma packets_sorted (h : wr.Sendable P) (qpParam : QpParams) (pos : ℕ) :
    (packetCut wr qpParam pos P).chunks.Pairwise fun p q => p.raddr < q.raddr := by
  have hP := h.P_pos
  have hdm := Nat.div_add_mod wr.raddr.toNat P
  have hlt := Nat.mod_lt wr.raddr.toNat hP
  rw [Nat.mul_comm] at hdm
  rw [packetCut_chunks, List.pairwise_map]
  refine List.pairwise_lt_range.imp_of_mem fun {i j} hi hj hij => ?_
  have hi' := packetRange_le h (List.mem_range.mp hi)
  have hj' := packetRange_le h (List.mem_range.mp hj)
  have hstop := h.remote.1
  show UInt64.ofNat (packetRange wr P i).1 < UInt64.ofNat (packetRange wr P j).1
  rw [UInt64.lt_iff_toNat_lt, UInt64.toNat_ofNat', UInt64.toNat_ofNat', Nat.mod_eq_of_lt (by omega),
    Nat.mod_eq_of_lt (by omega)]
  obtain ⟨j, rfl⟩ : ∃ j', j = j' + 1 := ⟨j - 1, by omega⟩
  have hstart : (packetRange wr P (j + 1)).1 = wr.raddr.toNat / P * P + (j + 1) * P :=
    block_succ (by omega)
  have hrow : i * P + P ≤ (j + 1) * P := by
    rw [← Nat.succ_mul]
    exact Nat.mul_le_mul_right P hij
  rw [hstart]
  show max wr.raddr.toNat (wr.raddr.toNat / P * P + i * P) < _
  omega

/-- **Chunks and packets agree.**  For every request whose addresses do not overflow, both
fragmenters run to their end.  The packets start at increasing remote addresses; each chunk starts
at the remote address of exactly one packet.  The packets are consecutive runs, one per chunk: the
chunk has the PSN, the local and the remote address of the first packet of its run, and moves the
bytes of the run.  So whoever cuts the chunks at packet boundaries sends every byte with the PSN
that a retransmission has for it. -/
theorem chunks_cover_packets (wr : SendWrRdma) (qpParam : QpParams) (psn : Psn) {p : UInt16}
    (hp : convertIbvMtuToU16 qpParam.pmtu = some p) (hpsn : psn.InRange)
    (hremote : wr.RemoteFits p.toUInt64.toNat) (hlocal : wr.LocalFits) :
    ∃ chunkIter packetIter, wrChunkFragmenter wr qpParam psn = .ok chunkIter ∧
      wrPacketFragmenter wr qpParam psn = .ok packetIter ∧
      chunkIter.collect.crashed = none ∧ packetIter.collect.crashed = none ∧
      (packetIter.collect.items.Pairwise fun p q => p.raddr < q.raddr) ∧
      (∀ c ∈ chunkIter.collect.items,
        ∃! p, p ∈ packetIter.collect.items ∧ p.raddr = c.raddr) ∧
      (∃ runs, packetIter.collect.items = runs.flatten ∧
        List.Forall₂ WrChunk.Covers chunkIter.collect.items runs) ∧
      (chunkIter.collect.items.flatMap (hwSplit p.toUInt64.toNat)).flatMap WrChunk.numberedMoved
        = packetIter.collect.items.flatMap WrChunk.numberedMoved := by
  have hs : wr.Sendable p.toUInt64.toNat := ⟨convertIbvMtuToU16_eq_some hp, hremote⟩
  obtain ⟨ci, hci, hchunks, hcdone⟩ :
      ∃ it, wrChunkFragmenter wr qpParam (Psn.ofPos psn.val.toNat) = .ok it ∧ _ :=
    wrChunkFragmenter_eq hs hp rfl
  obtain ⟨pi, hpi, -, hpackets, hpdone⟩ :
      ∃ it, wrPacketFragmenter wr qpParam (Psn.ofPos psn.val.toNat) = .ok it ∧ _ :=
    wrPacketFragmenter_eq hs hp rfl
  rw [Psn.ofPos_toNat hpsn] at hci hpi
  refine ⟨ci, pi, hci, hpi, hcdone.mpr hlocal, hpdone.mpr hlocal, ?_⟩
  rw [hchunks hlocal, hpackets hlocal]
  have hsorted := packets_sorted hs qpParam psn.val.toNat
  -- each chunk covers its run
  have hcovers : ∀ c ∈ (chunkCut wr qpParam psn.val.toNat p.toUInt64.toNat).chunks,
      c.Covers ((hwSplit p.toUInt64.toNat c).map WrChunk.setIsRetry) := by
    intro c hc
    obtain ⟨k, hk, rfl⟩ := List.mem_map.mp hc
    obtain ⟨⟨q, hq, hraddr, hladdr, hqpsn⟩, hbytes⟩ := covers_hwSplit hs.P_pos
      (c := (chunkCut wr qpParam psn.val.toNat p.toUInt64.toNat).chunkAt k) (by
        rw [Cut.chunkAt_eq _ (List.mem_range.mp hk)]
        exact Psn.ofPos_inRange _)
    refine ⟨⟨q.setIsRetry, by rw [List.head?_map, hq]; rfl, hraddr, hladdr, hqpsn⟩, ?_⟩
    rw [hbytes, List.flatMap_map]
    rfl
  refine ⟨hsorted, fun c hc => ?_, ⟨_, packetCut_eq_split hs, ?_⟩, ?_⟩
  · obtain ⟨⟨q, hq, hraddr, -, -⟩, -⟩ := hcovers c hc
    have hmem : q ∈ (packetCut wr qpParam psn.val.toNat p.toUInt64.toNat).chunks := by
      rw [packetCut_eq_split hs]
      exact List.mem_flatten.mpr ⟨_, List.mem_map_of_mem hc, List.mem_of_head? hq⟩
    refine ⟨q, ⟨hmem, hraddr.symm⟩, fun q' ⟨hmem', hraddr'⟩ => ?_⟩
    have hnodup : ((packetCut wr qpParam psn.val.toNat p.toUInt64.toNat).chunks.map
        WrChunk.raddr).Nodup := List.pairwise_map.mpr (hsorted.imp UInt64.ne_of_lt)
    exact List.inj_on_of_nodup_map hnodup hmem' hmem (hraddr'.trans hraddr)
  · rw [List.forall₂_map_right_iff, List.forall₂_same]
    exact hcovers
  · rw [packetCut_eq_split hs, ← List.flatMap_def, ← List.map_flatMap, List.flatMap_map]
    rfl

/-- A write from address 1 on, of 64 KiB and one byte: the first chunk starts unaligned, and there
is a second one. -/
theorem chunks_cover_packets_unaligned :
    let wr : SendWrRdma := ⟨⟨7, ibvSendSignaled, 0, 0x10001, 0, 0, .rdmaWrite⟩, 1, 0⟩
    let qpParam : QpParams := { (default : QpParams) with pmtu := 5 }
    ∃ chunkIter packetIter, wrChunkFragmenter wr qpParam (Psn.ofPos 0xFFFFFF) = .ok chunkIter ∧
      wrPacketFragmenter wr qpParam (Psn.ofPos 0xFFFFFF) = .ok packetIter ∧
      chunkIter.collect.items.length = 2 ∧
      ∃ runs, packetIter.collect.items = runs.flatten ∧
        List.Forall₂ WrChunk.Covers chunkIter.collect.items runs := by
  intro wr qpParam
  obtain ⟨ci, pi, hci, hpi, -, -, -, -, hruns, -⟩ := chunks_cover_packets wr qpParam
    (Psn.ofPos 0xFFFFFF) (p := 4096) rfl (Psn.ofPos_inRange _)
    (wr.remoteFits (by decide)) (show _ < _ by decide)
  have hcount : ∀ it, wrChunkFragmenter wr qpParam (Psn.ofPos 0xFFFFFF) = .ok it →
      it.collect.items.length = 2 := by
    intro it hit
    cases hit
    decide +kernel
  exact ⟨ci, pi, hci, hpi, hcount ci hci, hruns⟩

end Agree

end OpenRdma
