import OpenRdma.Rx.RqWindow
import OpenRdma.Tx.Descriptors

/-!
# A message of the transmit path, as the receive path computes it

The packetizer counts along the message; the receive bitmap manager computes the place, the size and
the last mark of a packet from its index alone.  For a legacy message of at most `2 ^ 24` bytes that
lies in the region of the queue pair, the two agree on every packet.
-/

namespace OpenRdma

/-- A parsed packet has the fields of a descriptor.  The remote range is on the first packet
only. -/
structure Carries (d : PacketDescriptor) (p : RxParsedPacket) : Prop where
  qpn : p.qpn = d.destQpn
  psn : p.psn = d.psn
  first : p.first = d.isFirst
  last : p.last = d.isLast
  payloadBytes : p.payloadBytes = d.payloadLength
  reth : p.first = true →
    p.remoteAddr = d.remoteAddr ∧ p.rkey = d.remoteKey ∧ p.messageBytes = d.messageLength

/-- A parsed packet is packet `k` of a message. -/
structure IsPacket (ctx : MessageContext) (k : ℕ) (p : RxParsedPacket) : Prop where
  lt : k < ctx.packets
  qpn : p.qpn = ctx.destQpn
  psn : p.psn = ctx.startPsn + BitVec.ofNat 24 k
  first : p.first = decide (k = 0)
  last : p.last = decide (k + 1 = ctx.packets)
  payloadBytes : p.payloadBytes.toNat = ctx.bytes k
  reth : k = 0 → p.remoteAddr = ctx.remoteAddr ∧ p.rkey = ctx.remoteKey ∧ p.messageBytes = ctx.len

lemma Describes.isPacket {ctx : MessageContext} {k : ℕ} {d : PacketDescriptor} {p : RxParsedPacket}
    (hd : Describes ctx k d) (hp : Carries d p) : IsPacket ctx k p where
  lt := hd.lt
  qpn := hp.qpn.trans hd.destQpn
  psn := hp.psn.trans hd.psn
  first := hp.first.trans hd.isFirst
  last := hp.last.trans hd.isLast
  payloadBytes := by rw [hp.payloadBytes]; exact hd.payloadLength
  reth := by
    rintro rfl
    obtain ⟨haddr, hkey, hlen⟩ := hp.reth (by rw [hp.first, hd.isFirst]; rfl)
    refine ⟨?_, hkey.trans hd.remoteKey, hlen.trans hd.messageLength⟩
    rw [haddr, hd.remoteAddr]
    simp [MessageContext.offset]

/-- The queue pair is the destination of a legacy message, its region holds the remote range, and
the physical range ends within the address space. -/
structure Receives (cfg : RxQpConfig) (ctx : MessageContext) : Prop where
  accepted : ctx.Accepted
  legacy : ctx.wireProfile = .legacyPrivate
  length : ctx.len.toNat ≤ 2 ^ 24
  qpn : cfg.qpn = ctx.destQpn
  pmtu : cfg.pmtu = ctx.pmtu
  rkey : cfg.rkey = ctx.remoteKey
  remoteWrite : cfg.remoteWrite = true
  above : cfg.virtualBase.toNat ≤ ctx.remoteAddr.toNat
  inside : ctx.remoteAddr.toNat + ctx.len.toNat ≤ cfg.virtualBase.toNat + cfg.regionBytes.toNat
  memory : cfg.physicalBase.toNat + (ctx.remoteAddr.toNat - cfg.virtualBase.toNat) + ctx.len.toNat ≤
    2 ^ 64

namespace Receives

variable {cfg : RxQpConfig} {ctx : MessageContext}

lemma firstLimit (hr : Receives cfg ctx) : (firstPayloadLimit cfg.pmtu).toNat = ctx.firstLimit := by
  simp [MessageContext.firstLimit, packetPayloadLimitForProfile, hr.legacy, hr.pmtu]

lemma contLimit (hr : Receives cfg ctx) : (contPayloadLimit cfg.pmtu).toNat = ctx.contLimit := by
  simp [MessageContext.contLimit, packetPayloadLimitForProfile, hr.legacy, hr.pmtu]

lemma packets_lt (hr : Receives cfg ctx) : ctx.packets < 2 ^ 17 := by
  obtain ⟨hF, -, hC, -⟩ := MessageContext.limits hr.accepted.pmtu
  have hlen := hr.length
  rw [← not_le]
  intro hge
  have h : ctx.firstLimit + 131070 * ctx.contLimit < ctx.len.toNat :=
    (MessageContext.lt_packets hr.accepted (k := 131071)).1 (by omega)
  omega

/-- The receive path counts the packets of the message right. -/
lemma packetCount (hr : Receives cfg ctx) :
    (packetCountForMessage ctx.len cfg.pmtu).toNat = ctx.packets := by
  obtain ⟨hF, -, hC, -⟩ := MessageContext.limits hr.accepted.pmtu
  have hpos := hr.accepted.pos
  have hlt := hr.packets_lt
  unfold packetCountForMessage
  dsimp only
  rw [if_neg (by
    intro h
    rw [h] at hpos
    simp at hpos)]
  rw [MessageContext.packets, ← hr.firstLimit, ← hr.contLimit] at hlt ⊢
  rw [← hr.contLimit] at hC
  exact pieces_toNat (by omega) (by decide) hlt

end Receives

/-- The message as the manager keeps it. -/
def contextOf (ctx : MessageContext) : RxMessageContext where
  start := ctx.startPsn
  last := ctx.startPsn + BitVec.ofNat 24 ctx.packets - 1
  addr := ctx.remoteAddr
  rkey := ctx.remoteKey
  bytes := ctx.len

section

variable {cfg : RxQpConfig} {ctx : MessageContext} {k : ℕ} {p : RxParsedPacket}

lemma psn_sub_start (hp : IsPacket ctx k p) :
    p.psn - (contextOf ctx).start = BitVec.ofNat 24 k := by
  rw [hp.psn]
  simp [contextOf]

variable (hr : Receives cfg ctx)

include hr

/-- **The region holds the message**, so it may be written. -/
lemma access_contextOf : (contextOf ctx).access cfg = true := by
  exact RxMessageContext.access_iff.2 ⟨hr.pmtu ▸ hr.accepted.pmtu, hr.remoteWrite, hr.rkey,
    hr.accepted.pos, hr.above, hr.inside, hr.accepted.range, hr.memory⟩

lemma offset_lt (hk : k < ctx.packets) : ctx.offset k < ctx.len.toNat :=
  (MessageContext.lt_packets hr.accepted).1 hk

lemma messageOffset_toNat (hk : k < ctx.packets) :
    (RxMessageContext.messageOffset cfg (BitVec.ofNat 24 k)).toNat = ctx.offset k := by
  have hlt := hr.packets_lt
  have hoff := offset_lt hr hk
  have hlen := hr.length
  unfold RxMessageContext.messageOffset
  cases k with
  | zero => simp [MessageContext.offset]
  | succ j =>
    have hne : BitVec.ofNat 24 (j + 1) ≠ 0 := by
      intro h
      have := congrArg BitVec.toNat h
      simp at this
      omega
    rw [if_neg hne]
    simp only [MessageContext.offset, segStart] at hoff ⊢
    have hindex : ((BitVec.ofNat 24 (j + 1)).setWidth 38 - 1 : BitVec 38).toNat = j := by
      simp only [BitVec.toNat_sub, BitVec.toNat_setWidth, BitVec.ofNat_eq_ofNat, BitVec.toNat_ofNat]
      omega
    have hfirst := hr.firstLimit
    have hcont := hr.contLimit
    have h13 := (firstPayloadLimit cfg.pmtu).isLt
    have h13' := (contPayloadLimit cfg.pmtu).isLt
    rw [BitVec.toNat_add, BitVec.toNat_mul, hindex, BitVec.toNat_setWidth, BitVec.toNat_setWidth,
      hfirst, hcont, Nat.mod_eq_of_lt (by omega : ctx.firstLimit < 2 ^ 38),
      Nat.mod_eq_of_lt (by omega : ctx.contLimit < 2 ^ 38),
      Nat.mod_eq_of_lt (by omega : j * ctx.contLimit < 2 ^ 38), Nat.mod_eq_of_lt (by omega)]

lemma packetLimit_toNat (hk : k < ctx.packets) :
    (RxMessageContext.packetLimit cfg (BitVec.ofNat 24 k)).toNat =
      segLimit ctx.firstLimit ctx.contLimit k := by
  have hlt := hr.packets_lt
  have hzero : BitVec.ofNat 24 k = 0 ↔ k = 0 := by
    constructor
    · intro h
      have := congrArg BitVec.toNat h
      simp at this
      omega
    · rintro rfl
      rfl
  have h13 := (firstPayloadLimit cfg.pmtu).isLt
  have h13' := (contPayloadLimit cfg.pmtu).isLt
  simp only [RxMessageContext.packetLimit, segLimit, hzero]
  split <;> simp only [BitVec.toNat_setWidth]
  · rw [Nat.mod_eq_of_lt (by omega), hr.firstLimit]
  · rw [Nat.mod_eq_of_lt (by omega), hr.contLimit]

lemma expectedBytes_toNat (hk : k < ctx.packets) :
    ((contextOf ctx).expectedBytes cfg (BitVec.ofNat 24 k)).toNat = ctx.bytes k := by
  have hoff := offset_lt hr hk
  have hlen := hr.length
  have hmsg : ((contextOf ctx).bytes.setWidth 38 : BitVec 38).toNat = ctx.len.toNat := by
    simp only [contextOf, BitVec.toNat_setWidth]
    omega
  have hlimit := packetLimit_toNat hr hk
  have hoffset := messageOffset_toNat hr hk
  have hless : RxMessageContext.messageOffset cfg (BitVec.ofNat 24 k) <
      (contextOf ctx).bytes.setWidth 38 := by
    rw [BitVec.lt_def, hmsg, hoffset]
    exact hoff
  have hleft : ((contextOf ctx).bytes.setWidth 38 -
      RxMessageContext.messageOffset cfg (BitVec.ofNat 24 k)).toNat =
        ctx.len.toNat - ctx.offset k := by
    rw [BitVec.toNat_sub, hmsg, hoffset]
    omega
  simp only [RxMessageContext.expectedBytes, if_pos hless]
  unfold MessageContext.bytes segBytes
  split <;> rename_i h <;> rw [BitVec.lt_def, hleft, hlimit] at h
  · rw [hleft]
    exact (min_eq_left h.le).symm
  · rw [hlimit]
    exact (min_eq_right (not_lt.1 h)).symm

lemma bytes_end (hk : k < ctx.packets) :
    ctx.offset k + ctx.bytes k = ctx.len.toNat ↔ k + 1 = ctx.packets := by
  obtain ⟨-, -, hC, -⟩ := MessageContext.limits hr.accepted.pmtu
  exact segment_last (by omega) (offset_lt hr hk)

lemma bytes_le (hk : k < ctx.packets) : ctx.offset k + ctx.bytes k ≤ ctx.len.toNat := by
  have hoff := offset_lt hr hk
  have : ctx.bytes k ≤ ctx.len.toNat - ctx.offset k := min_le_left _ _
  omega

lemma expectedLast_eq (hk : k < ctx.packets) :
    (contextOf ctx).expectedLast cfg (BitVec.ofNat 24 k) = decide (k + 1 = ctx.packets) := by
  have hle := bytes_le hr hk
  have hlen := hr.length
  rw [Bool.eq_iff_iff, decide_eq_true_eq, ← bytes_end hr hk, RxMessageContext.expectedLast,
    beq_iff_eq, ← BitVec.toNat_inj, BitVec.toNat_add, messageOffset_toNat hr hk,
    expectedBytes_toNat hr hk]
  simp only [contextOf, BitVec.toNat_setWidth]
  rw [Nat.mod_eq_of_lt (by omega), Nat.mod_eq_of_lt (by omega)]

/-- **A packet of the message is the one expected at its place.** -/
theorem segment_contextOf (hp : IsPacket ctx k p) : (contextOf ctx).segment cfg p = true := by
  obtain ⟨hF, -, hC, -⟩ := MessageContext.limits hr.accepted.pmtu
  have hlt := hr.packets_lt
  have hk := hp.lt
  have hexpected := expectedBytes_toNat hr hk
  have hpos : 0 < ctx.bytes k := segBytes_pos (by omega) (by omega) (offset_lt hr hk)
  have hzero : BitVec.ofNat 24 k = 0 ↔ k = 0 := by
    rw [← BitVec.toNat_inj]
    simp
    omega
  simp only [RxMessageContext.segment, psn_sub_start hp, Bool.and_eq_true, beq_iff_eq, bne_iff_ne,
    Bool.or_eq_true, Bool.not_eq_true', hzero, expectedLast_eq hr hk]
  refine ⟨⟨⟨⟨hp.first, hp.last⟩, ?_⟩, ?_⟩, ?_⟩
  · rcases Nat.eq_zero_or_pos k with h0 | h0
    · obtain ⟨h1, h2, h3⟩ := hp.reth h0
      exact .inr ⟨⟨h1, h2⟩, h3⟩
    · exact .inl (by rw [hp.first, decide_eq_false (by omega)])
  · intro h
    rw [h] at hexpected
    simp at hexpected
    omega
  · apply BitVec.eq_of_toNat_eq
    rw [hexpected, BitVec.toNat_setWidth, hp.payloadBytes, Nat.mod_eq_of_lt]
    have := p.payloadBytes.isLt
    rw [hp.payloadBytes] at this
    omega

/-- **The address of a packet**: its place in the message, in the region. -/
theorem physical_contextOf (hp : IsPacket ctx k p) :
    ((contextOf ctx).physical cfg p).toNat =
      cfg.physicalBase.toNat + (ctx.remoteAddr.toNat - cfg.virtualBase.toNat) + ctx.offset k := by
  have hoff := offset_lt hr hp.lt
  have hlen := hr.length
  have h1 := hr.above
  have h2 := hr.inside
  have h3 := hr.memory
  have hoffset := messageOffset_toNat hr hp.lt
  simp only [RxMessageContext.physical, psn_sub_start hp]
  simp only [RxMessageContext.physicalMessageStart, RxMessageContext.mrOffset, contextOf,
    BitVec.toNat_setWidth, BitVec.toNat_add, BitVec.toNat_sub, hoffset]
  omega

end

end OpenRdma
