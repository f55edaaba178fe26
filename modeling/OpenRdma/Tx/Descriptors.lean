import OpenRdma.Core.Segments
import OpenRdma.Tx.PacketAssembly

/-!
# What the packetizer says of a message

The engine counts down what is left of the packet and of the message.  A descriptor is that of a
piece of its message: packet `k` starts where the first `k` limits end, carries as much as its limit
and the message allow, and is marked first and last accordingly.
-/

namespace OpenRdma

namespace MessageContext

def firstLimit (ctx : MessageContext) : ℕ :=
  (packetPayloadLimitForProfile ctx.wireProfile ctx.pmtu true).toNat

def contLimit (ctx : MessageContext) : ℕ :=
  (packetPayloadLimitForProfile ctx.wireProfile ctx.pmtu false).toNat

/-- Where packet `k` starts. -/
def offset (ctx : MessageContext) (k : ℕ) : ℕ := segStart ctx.firstLimit ctx.contLimit k

/-- The number of bytes of packet `k`. -/
def bytes (ctx : MessageContext) (k : ℕ) : ℕ :=
  segBytes ctx.firstLimit ctx.contLimit ctx.len.toNat k

/-- The number of packets. -/
def packets (ctx : MessageContext) : ℕ := segCount ctx.firstLimit ctx.contLimit ctx.len.toNat

/-- A message that the engine takes. -/
structure Accepted (ctx : MessageContext) : Prop where
  pos : 0 < ctx.len.toNat
  pmtu : ctx.pmtu ≤ 4
  range : ctx.remoteAddr.toNat + ctx.len.toNat ≤ 2 ^ 64

end MessageContext

/-- The descriptor of packet `k` of a message. -/
structure Describes (ctx : MessageContext) (k : ℕ) (d : PacketDescriptor) : Prop where
  lt : k < ctx.packets
  destQpn : d.destQpn = ctx.destQpn
  psn : d.psn = ctx.startPsn + BitVec.ofNat 24 k
  remoteAddr : d.remoteAddr = ctx.remoteAddr + BitVec.ofNat 64 (ctx.offset k)
  remoteKey : d.remoteKey = ctx.remoteKey
  messageOffset : d.messageOffset.toNat = ctx.offset k
  payloadLength : d.payloadLength.toNat = ctx.bytes k
  messageLength : d.messageLength = ctx.len
  isFirst : d.isFirst = decide (k = 0)
  isLast : d.isLast = decide (k + 1 = ctx.packets)

/-! ## Limits as numbers -/

lemma profileLimits (profile : TxWireProfile) {pmtu : TxPmtuCode} (hp : pmtu ≤ 4) (isFirst : Bool) :
    228 ≤ (packetPayloadLimitForProfile profile pmtu isFirst).toNat ∧
    (packetPayloadLimitForProfile profile pmtu isFirst).toNat ≤ 4096 ∧
    (isFirst = false → 244 ≤ (packetPayloadLimitForProfile profile pmtu isFirst).toNat) := by
  revert pmtu
  cases profile <;> cases isFirst <;> decide

/-- **A count of pieces**, computed in 26 bits and cut to its width, is right if it fits. -/
lemma pieces_toNat {w : ℕ} {len : TxLength} {f c : BitVec 13} (hc : 0 < c.toNat) (hw : 1 < 2 ^ w)
    (hlt : segCount f.toNat c.toNat len.toNat < 2 ^ w) :
    (if len ≤ f.setWidth 25 then (1 : BitVec w)
      else 1 + (((len - f.setWidth 25).setWidth 26 + c.setWidth 26 - 1) /
        (c.setWidth 26 : BitVec 26)).setWidth w).toNat = segCount f.toNat c.toNat len.toNat := by
  have hlen := len.isLt
  have hf := f.isLt
  have hc' := c.isLt
  have hone : (1 : BitVec w).toNat = 1 := by
    rw [BitVec.ofNat_eq_ofNat, BitVec.toNat_ofNat, Nat.mod_eq_of_lt hw]
  have hfit : len ≤ f.setWidth 25 ↔ len.toNat ≤ f.toNat := by
    rw [BitVec.le_def, BitVec.toNat_setWidth, Nat.mod_eq_of_lt (by omega)]
  unfold segCount at hlt ⊢
  by_cases hle : len.toNat ≤ f.toNat
  · rw [if_pos (hfit.2 hle), if_pos hle, hone]
  · have hnum : ((len - f.setWidth 25).setWidth 26 + c.setWidth 26 - 1 : BitVec 26).toNat =
        len.toNat - f.toNat + c.toNat - 1 := by
      simp only [BitVec.toNat_sub, BitVec.toNat_add, BitVec.toNat_setWidth, BitVec.ofNat_eq_ofNat,
        BitVec.toNat_ofNat]
      omega
    have hden : (c.setWidth 26 : BitVec 26).toNat = c.toNat := by
      rw [BitVec.toNat_setWidth]
      omega
    rw [if_neg hle] at hlt
    rw [if_neg fun h => hle (hfit.1 h), if_neg hle, BitVec.toNat_add, BitVec.toNat_setWidth,
      BitVec.toNat_udiv, hnum, hden, hone, Nat.add_mod_mod, Nat.mod_eq_of_lt hlt]

namespace MessageContext

variable {ctx : MessageContext}

lemma limits (hp : ctx.pmtu ≤ 4) : 228 ≤ ctx.firstLimit ∧ ctx.firstLimit ≤ 4096 ∧
    244 ≤ ctx.contLimit ∧ ctx.contLimit ≤ 4096 := by
  obtain ⟨h1, h2, -⟩ := profileLimits ctx.wireProfile hp true
  obtain ⟨-, h4, h5⟩ := profileLimits ctx.wireProfile hp false
  exact ⟨h1, h2, h5 rfl, h4⟩

lemma lt_packets (ha : ctx.Accepted) {k : ℕ} : k < ctx.packets ↔ ctx.offset k < ctx.len.toNat := by
  obtain ⟨-, -, h, -⟩ := limits ha.pmtu
  exact lt_segCount ha.pos (by omega)

lemma packets_lt (ha : ctx.Accepted) : ctx.packets < 2 ^ 18 := by
  obtain ⟨hF, -, hC, -⟩ := limits ha.pmtu
  have hlen := ctx.len.isLt
  rw [← not_le]
  intro hge
  have h : ctx.firstLimit + 262142 * ctx.contLimit < ctx.len.toNat :=
    (lt_packets ha (k := 262143)).1 (by omega)
  have : 244 * 262142 ≤ 262142 * ctx.contLimit := by omega
  omega

end MessageContext

lemma packetCountForContext_toNat {ctx : MessageContext} (ha : ctx.Accepted) :
    (packetCountForContext ctx).toNat = ctx.packets := by
  obtain ⟨hF, -, hC, -⟩ := MessageContext.limits ha.pmtu
  have hpos := ha.pos
  have hlt := MessageContext.packets_lt ha
  simp only [MessageContext.firstLimit, MessageContext.contLimit] at hF hC
  unfold packetCountForContext packetCountForProfile
  dsimp only
  rw [if_neg (by
    rintro (h | h | h)
    · rw [h] at hpos
      simp at hpos
    · rw [h] at hF
      simp at hF
    · rw [h] at hC
      simp at hC)]
  exact pieces_toNat (by omega) (by decide) hlt

/-! ## The counters -/

namespace PacketAssemblyEngine

variable {e e' : PacketAssemblyEngine}

lemma accepts_accepted {ctx : MessageContext} (h : accepts ctx = true) : ctx.Accepted := by
  simp only [accepts, Bool.and_eq_true, bne_iff_ne, ne_eq, Bool.not_eq_true',
    decide_eq_true_eq] at h
  obtain ⟨⟨⟨⟨⟨hlen, hend⟩, hpmtu⟩, -⟩, -⟩, -⟩ := h
  have hpos : 0 < ctx.len.toNat := by
    rw [Nat.pos_iff_ne_zero]
    intro hz
    exact hlen (BitVec.eq_of_toNat_eq hz)
  refine ⟨hpos, hpmtu, ?_⟩
  have h25 := ctx.len.isLt
  have h64 := ctx.remoteAddr.isLt
  simp only [BitVec.msb_eq_decide, decide_eq_false_iff_not, BitVec.toNat_sub, BitVec.toNat_add,
    BitVec.toNat_setWidth, BitVec.ofNat_eq_ofNat, BitVec.toNat_ofNat] at hend
  omega

/-- The counters of a packet of which `done` bytes have been emitted. -/
structure Counts (e : PacketAssemblyEngine) (done : ℕ) : Prop where
  accepted : e.ctxLatch.Accepted
  index : e.packetIndex.toNat < e.ctxLatch.packets
  count : e.packetCount.toNat = e.ctxLatch.packets
  offset : e.messageOffset.toNat = e.ctxLatch.offset e.packetIndex.toNat + done
  remaining : e.messageOffset.toNat + e.messageRemaining.toNat = e.ctxLatch.len.toNat
  packet : e.packetRemaining.toNat + done = e.ctxLatch.bytes e.packetIndex.toNat
  length : e.packetPayloadLength.toNat = e.ctxLatch.bytes e.packetIndex.toNat

/-- **Before a descriptor is emitted the counters describe the packet.** -/
theorem Counts.describes (hc : e.Counts 0) :
    Describes e.ctxLatch e.packetIndex.toNat e.descriptor := by
  have hlt := MessageContext.packets_lt hc.accepted
  have hoffset : e.messageOffset.toNat = e.ctxLatch.offset e.packetIndex.toNat := hc.offset
  refine ⟨hc.index, rfl, ?_, ?_, rfl, hoffset, hc.length, rfl, ?_, ?_⟩
  · show e.ctxLatch.startPsn + e.packetIndex.setWidth 24 = _
    congr 1
    apply BitVec.eq_of_toNat_eq
    simp
  · show (e.ctxLatch.remoteAddr.setWidth 65 + e.messageOffset.setWidth 65).setWidth 64 = _
    rw [← hoffset]
    apply BitVec.eq_of_toNat_eq
    have := e.messageOffset.isLt
    simp only [BitVec.toNat_setWidth, BitVec.toNat_add, BitVec.toNat_ofNat]
    omega
  · show decide (e.packetIndex = 0) = decide (e.packetIndex.toNat = 0)
    refine decide_eq_decide.2 ⟨fun h => by rw [h]; rfl, fun h => BitVec.eq_of_toNat_eq h⟩
  · show decide (e.packetIndex + 1 = e.packetCount) = decide (e.packetIndex.toNat + 1 = _)
    have hsucc : (e.packetIndex + 1).toNat = e.packetIndex.toNat + 1 := by
      have := hc.index
      simp only [BitVec.toNat_add, BitVec.ofNat_eq_ofNat, BitVec.toNat_ofNat]
      omega
    refine decide_eq_decide.2 ⟨fun h => ?_, fun h => BitVec.eq_of_toNat_eq ?_⟩
    · rw [← hsucc, h, hc.count]
    · rw [hsucc, h, hc.count]

lemma requested_toNat (e : PacketAssemblyEngine) :
    e.requested.toNat = min e.packetRemaining.toNat 128 := by
  unfold requested
  split <;> rename_i h <;>
    simp only [BitVec.lt_def, BitVec.toNat_setWidth, BitVec.ofNat_eq_ofNat,
      BitVec.toNat_ofNat] at h ⊢ <;>
    omega

/-- The engine is at a descriptor with a packet's counters, or in its payload. -/
structure TxInv (e : PacketAssemblyEngine) : Prop where
  descriptor : e.state = .descriptor → e.Counts 0
  payload : e.state = .payload → ∃ done, e.Counts done

/-- A message starts with its first packet. -/
lemma startMessage_inv (h : e.startMessage = some e') : e'.TxInv := by
  obtain ⟨-, h⟩ := guard_bind_eq_some.1 h
  obtain ⟨⟨ctx, q⟩, -, h⟩ := bind_eq_some.1 h
  obtain ⟨hacc, h⟩ := guard_bind_eq_some.1 h
  cases h
  have ha := accepts_accepted hacc
  obtain ⟨hF, hF', -, -⟩ := MessageContext.limits ha.pmtu
  have hbytes :
    ((if ctx.len < (packetPayloadLimitForProfile ctx.wireProfile ctx.pmtu true).setWidth 25
      then ctx.len else (packetPayloadLimitForProfile ctx.wireProfile ctx.pmtu true).setWidth
        25).setWidth
      13).toNat = ctx.bytes 0 := by
    simp only [MessageContext.bytes, segBytes, segLimit, segStart_zero, MessageContext.firstLimit,
      if_true] at hF hF' ⊢
    split <;> rename_i hlt <;>
      simp only [BitVec.lt_def, BitVec.toNat_setWidth] at hlt ⊢ <;> omega
  refine ⟨fun _ => ⟨ha, ?_, packetCountForContext_toNat ha, rfl, ?_, hbytes, hbytes⟩, by rintro ⟨⟩⟩
  · exact (MessageContext.lt_packets ha).2 ha.pos
  · simp

/-- The length of a packet that is not the first, from what is left of the message. -/
lemma nextLength_toNat {ctx : MessageContext} (ha : ctx.Accepted) (k : ℕ) (left : TxLength)
    (hleft : left.toNat = ctx.len.toNat - ctx.offset (k + 1)) :
    ((if left < (packetPayloadLimitForProfile ctx.wireProfile ctx.pmtu false).setWidth 25 then left
      else (packetPayloadLimitForProfile ctx.wireProfile ctx.pmtu false).setWidth 25).setWidth
        13).toNat =
      ctx.bytes (k + 1) := by
  obtain ⟨-, -, hC, hC'⟩ := MessageContext.limits ha.pmtu
  simp only [MessageContext.bytes, segBytes, segLimit, MessageContext.contLimit,
    MessageContext.offset, Nat.succ_ne_zero, if_false] at hC hC' hleft ⊢
  split <;> rename_i hlt <;>
    simp only [BitVec.lt_def, BitVec.toNat_setWidth] at hlt ⊢ <;> omega

/-- Bytes are taken off the packet, and after its last byte the next packet starts where it ends. -/
lemma emitPayload_inv (hi : e.TxInv) (h : e.emitPayload = some e') : e'.TxInv := by
  obtain ⟨hstate, h⟩ := guard_bind_eq_some.1 h
  obtain ⟨-, h⟩ := guard_bind_eq_some.1 h
  obtain ⟨q, -, h⟩ := bind_eq_some.1 h
  obtain ⟨done, hc⟩ := hi.payload hstate
  have hreq := e.requested_toNat
  have hr := e.requested.isLt
  have hr13 : (e.requested.setWidth 13).toNat = e.requested.toNat := by
    rw [BitVec.toNat_setWidth]
    omega
  have hr25 : (e.requested.setWidth 25).toNat = e.requested.toNat := by
    rw [BitVec.toNat_setWidth]
    omega
  have hle : e.ctxLatch.bytes e.packetIndex.toNat ≤
      e.ctxLatch.len.toNat - e.ctxLatch.offset e.packetIndex.toNat := min_le_left _ _
  have hlen := e.ctxLatch.len.isLt
  obtain ⟨ha, hindex, hcount, hoffset, hremaining, hpacket, hlength⟩ := hc
  have hoff := (MessageContext.lt_packets ha).1 hindex
  have hfits : e.requested.toNat ≤ e.messageRemaining.toNat := by omega
  have hleft : (e.messageRemaining - e.requested.setWidth 25).toNat =
      e.messageRemaining.toNat - e.requested.toNat := by
    rw [BitVec.toNat_sub, hr25]
    omega
  have hmoved : (e.messageOffset + e.requested.setWidth 25).toNat =
      e.messageOffset.toNat + e.requested.toNat := by
    rw [BitVec.toNat_add, hr25]
    omega
  dsimp only at h
  split at h
  · rename_i hend
    have hdone : e.packetRemaining.toNat = e.requested.toNat := by
      rw [of_decide_eq_true hend, hr13]
    split at h
    · cases h
      exact ⟨nofun, nofun⟩
    · rename_i hmore
      cases h
      have hmore' : 0 < e.messageRemaining.toNat - e.requested.toNat := by
        rw [← hleft, Nat.pos_iff_ne_zero]
        exact fun hz => hmore (BitVec.eq_of_toNat_eq hz)
      have hnext := segBytes_end (F := e.ctxLatch.firstLimit) (C := e.ctxLatch.contLimit)
        hoff.le
      have hstart : e.messageOffset.toNat + e.requested.toNat =
          e.ctxLatch.offset (e.packetIndex.toNat + 1) := by
        simp only [MessageContext.offset, MessageContext.bytes] at hoffset hpacket hle ⊢
        omega
      have hsucc : (e.packetIndex + 1).toNat = e.packetIndex.toNat + 1 := by
        have := MessageContext.packets_lt ha
        simp only [BitVec.toNat_add, BitVec.ofNat_eq_ofNat, BitVec.toNat_ofNat]
        omega
      have hbytes := nextLength_toNat ha e.packetIndex.toNat
        (e.messageRemaining - e.requested.setWidth 25) (by rw [hleft]; omega)
      refine ⟨fun _ => ⟨ha, ?_, hcount, ?_, ?_, ?_, ?_⟩, nofun⟩ <;> dsimp only
      · rw [hsucc, MessageContext.lt_packets ha, ← hstart]
        omega
      · rw [hsucc, ← hstart]
        exact hmoved
      · rw [hmoved, hleft]
        omega
      · rw [hsucc]
        exact hbytes
      · rw [hsucc]
        exact hbytes
  · rename_i hend
    cases h
    have hmore : e.packetRemaining.toNat ≠ e.requested.toNat := by
      intro heq
      refine hend (decide_eq_true (BitVec.eq_of_toNat_eq ?_))
      rw [heq, hr13]
    refine ⟨fun hs => ?_, fun _ =>
      ⟨done + e.requested.toNat, ha, hindex, hcount, ?_, ?_, ?_, hlength⟩⟩ <;> dsimp only at *
    · rw [show e.state = .payload from hstate] at hs
      cases hs
    · rw [hmoved, hoffset]
      omega
    · rw [hmoved, hleft]
      omega
    · rw [BitVec.toNat_sub, hr13]
      omega

/-- The counters do not depend on the queues. -/
lemma Counts.queues {done : ℕ} (hc : e.Counts done) (s : PacketizerState)
    (c : Fifo MessageContext 8) (d : Fifo PacketDescriptor 2) (p : Fifo PacketPayloadBeat 2) :
    Counts { e with state := s, contextQ := c, descriptorQ := d, payloadQ := p } done :=
  ⟨hc.accepted, hc.index, hc.count, hc.offset, hc.remaining, hc.packet, hc.length⟩

lemma TxInv.queues (hi : e.TxInv) (c : Fifo MessageContext 8) (d : Fifo PacketDescriptor 2)
    (p : Fifo PacketPayloadBeat 2) :
    TxInv { e with contextQ := c, descriptorQ := d, payloadQ := p } where
  descriptor := fun hs => (hi.descriptor hs).queues e.state c d p
  payload := by
    intro hs
    obtain ⟨done, hc⟩ := hi.payload hs
    exact ⟨done, hc.queues e.state c d p⟩

lemma emitDescriptor_eq_some (h : e.emitDescriptor = some e') :
    e.state = .descriptor ∧ ∃ q, e.descriptorQ.enq e.descriptor = some q ∧
      e' = { e with descriptorQ := q, state := .payload } := by
  obtain ⟨hstate, h⟩ := guard_bind_eq_some.1 h
  obtain ⟨-, h⟩ := guard_bind_eq_some.1 h
  obtain ⟨q, hq, h⟩ := bind_eq_some.1 h
  exact ⟨hstate, q, hq, (Option.some.inj h).symm⟩

end PacketAssemblyEngine

end OpenRdma
