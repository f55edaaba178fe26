import OpenRdma.Tx.Descriptors

/-!
# The packets of a message

The packetizer emits the descriptors of one message after the other.  In every run a message that it
has finished has had exactly as many descriptors as `packetCountForContext` says, the `k`-th of them
that of packet `k`; these are the descriptors that are handed out, in order; and a message that it
has started can be finished.

* **`messages_complete`**, **`message_finishes`** — the finished messages, and the one under way.
-/

namespace OpenRdma

/-- What the packetizer has done. -/
structure PacketHistory where
  /-- The messages that are finished, with their descriptors. -/
  messages : List (MessageContext × List PacketDescriptor)
  /-- The descriptors of the message under way. -/
  current : List PacketDescriptor
  /-- The descriptors that were handed out. -/
  out : List PacketDescriptor

/-- What the packetizer has described, in order. -/
def PacketHistory.described (h : PacketHistory) : List PacketDescriptor :=
  h.messages.flatMap Prod.snd ++ h.current

namespace PacketAssemblyEngine

def record (e : PacketAssemblyEngine) (l : TxLabel) (h : PacketHistory) : PacketHistory :=
  match l with
  | .emitDescriptor => { h with current := h.current ++ [e.descriptor] }
  | .finishMessage => { h with messages := h.messages ++ [(e.ctxLatch, h.current)], current := [] }
  | .descriptorOut => { h with out := h.out ++ handedOut e.descriptorOut }
  | _ => h

end PacketAssemblyEngine

/-- The packetizer with its messages. -/
def packetStep : PacketAssemblyEngine × PacketHistory → TxLabel →
    Option (PacketAssemblyEngine × PacketHistory) :=
  watched PacketAssemblyEngine.step PacketAssemblyEngine.record

/-- Some descriptors are the first ones of a message, in order. -/
def DescribesAll (ctx : MessageContext) (ds : List PacketDescriptor) : Prop :=
  ∀ (k : ℕ) (d : PacketDescriptor), ds[k]? = some d → Describes ctx k d

lemma DescribesAll.concat {ctx : MessageContext} {ds : List PacketDescriptor} {d : PacketDescriptor}
    (h : DescribesAll ctx ds) (hd : Describes ctx ds.length d) : DescribesAll ctx (ds ++ [d]) := by
  intro k x hx
  rcases lt_trichotomy k ds.length with hlt | rfl | hgt
  · rw [List.getElem?_append_left hlt] at hx
    exact h k x hx
  · rw [List.getElem?_append_right le_rfl, Nat.sub_self] at hx
    cases hx
    exact hd
  · rw [List.getElem?_eq_none (by simp; omega)] at hx
    cases hx

namespace PacketAssemblyEngine

variable {e e' : PacketAssemblyEngine} {h : PacketHistory}

/-! ## Payload -/

/-- What a beat of payload does: it ends the message, or the packet, or neither. -/
lemma emitPayload_eq_some (hs : e.emitPayload = some e') :
    e.state = .payload ∧ e.requested ≠ 0 ∧
    e'.ctxLatch = e.ctxLatch ∧ e'.messageRemaining = e.messageRemaining - e.requested.setWidth 25 ∧
    ((e.packetRemaining = e.requested.setWidth 13 ∧
      e.messageRemaining - e.requested.setWidth 25 = 0 ∧
        e'.state = .flush ∧ e'.packetIndex = e.packetIndex) ∨
      (e.packetRemaining = e.requested.setWidth 13 ∧ e'.state = .descriptor ∧
        e'.packetIndex = e.packetIndex + 1) ∨
      (e.packetRemaining ≠ e.requested.setWidth 13 ∧ e'.state = .payload ∧
        e'.packetIndex = e.packetIndex ∧
        e'.packetRemaining = e.packetRemaining - e.requested.setWidth 13)) := by
  obtain ⟨hstate, hs⟩ := guard_bind_eq_some.1 hs
  obtain ⟨hreq, hs⟩ := guard_bind_eq_some.1 hs
  obtain ⟨q, -, hs⟩ := bind_eq_some.1 hs
  refine ⟨hstate, hreq, ?_⟩
  dsimp only at hs
  split at hs
  · rename_i hend
    split at hs
    · rename_i hleft
      cases hs
      exact ⟨rfl, rfl, .inl ⟨of_decide_eq_true hend, hleft, rfl, rfl⟩⟩
    · cases hs
      exact ⟨rfl, rfl, .inr (.inl ⟨of_decide_eq_true hend, rfl, rfl⟩)⟩
  · rename_i hend
    cases hs
    exact ⟨rfl, rfl, .inr (.inr ⟨fun h => hend (decide_eq_true h), hstate, rfl, rfl⟩)⟩

lemma emitPayload_queues (hs : e.emitPayload = some e') :
    e'.contextQ = e.contextQ ∧ e'.descriptorQ = e.descriptorQ := by
  obtain ⟨-, hs⟩ := guard_bind_eq_some.1 hs
  obtain ⟨-, hs⟩ := guard_bind_eq_some.1 hs
  obtain ⟨q, -, hs⟩ := bind_eq_some.1 hs
  dsimp only at hs
  split at hs
  · split at hs <;> cases hs <;> exact ⟨rfl, rfl⟩
  · cases hs
    exact ⟨rfl, rfl⟩

/-- The message ends with its last packet. -/
lemma Counts.last {done : ℕ} (hc : e.Counts done)
    (hend : e.packetRemaining = e.requested.setWidth 13)
    (hleft : e.messageRemaining - e.requested.setWidth 25 = 0) :
    e.packetIndex.toNat + 1 = e.ctxLatch.packets := by
  have hr := e.requested.isLt
  have hleft' : e.messageRemaining.toNat = e.requested.toNat := by
    have h0 := congrArg BitVec.toNat hleft
    simp only [BitVec.toNat_sub, BitVec.toNat_setWidth, BitVec.ofNat_eq_ofNat,
      BitVec.toNat_ofNat] at h0
    omega
  have hend' : e.packetRemaining.toNat = e.requested.toNat := by
    rw [hend, BitVec.toNat_setWidth]
    omega
  obtain ⟨ha, hindex, -, hoffset, hremaining, hpacket, -⟩ := hc
  obtain ⟨hF, -, hC, -⟩ := MessageContext.limits ha.pmtu
  have hlt := (MessageContext.lt_packets ha).1 hindex
  refine (segment_last (by omega) hlt).1 ?_
  simp only [MessageContext.offset, MessageContext.bytes] at hoffset hpacket
  omega

/-! ## The descriptors of a message -/

/-- The packets are those of the messages. -/
structure PacketInv (e : PacketAssemblyEngine) (h : PacketHistory) : Prop where
  counters : e.TxInv
  idle : e.state = .idle → h.current = []
  descriptor : e.state = .descriptor → h.current.length = e.packetIndex.toNat
  payload : e.state = .payload →
    h.current.length = e.packetIndex.toNat + 1 ∧ 0 < e.packetRemaining.toNat
  flush : e.state = .flush → e.ctxLatch.Accepted ∧ h.current.length = e.ctxLatch.packets
  current : e.state ≠ .idle → DescribesAll e.ctxLatch h.current
  messages : ∀ g ∈ h.messages, g.1.Accepted ∧ g.2.length = g.1.packets ∧ DescribesAll g.1 g.2
  out : h.out ++ e.descriptorQ.elems = h.described

namespace PacketInv

lemma initial : PacketInv .initial ⟨[], [], []⟩ where
  counters := ⟨nofun, nofun⟩
  idle := fun _ => rfl
  descriptor := nofun
  payload := nofun
  flush := nofun
  current := fun h => absurd rfl h
  messages := nofun
  out := rfl

variable (hi : PacketInv e h)

include hi

/-- The descriptors do not depend on the other queues. -/
lemma queues (c : Fifo MessageContext 8) (p : Fifo PacketPayloadBeat 2) :
    PacketInv { e with contextQ := c, payloadQ := p } h :=
  { hi with counters := hi.counters.queues c e.descriptorQ p }

lemma startMessage (hs : e.startMessage = some e') : PacketInv e' h := by
  have hcounters := startMessage_inv hs
  obtain ⟨hidle, hs⟩ := guard_bind_eq_some.1 hs
  obtain ⟨⟨ctx, q⟩, -, hs⟩ := bind_eq_some.1 hs
  obtain ⟨-, hs⟩ := guard_bind_eq_some.1 hs
  cases hs
  have hnone := hi.idle hidle
  refine ⟨hcounters, nofun, fun _ => by rw [hnone]; rfl, nofun, nofun, fun _ k d hd => ?_,
    hi.messages, hi.out⟩
  rw [hnone] at hd
  cases hd

lemma emitDescriptor (hs : e.emitDescriptor = some e') :
    PacketInv e' { h with current := h.current ++ [e.descriptor] } := by
  obtain ⟨hstate, q, hq, rfl⟩ := emitDescriptor_eq_some hs
  have hc := hi.counters.descriptor hstate
  have hlen := hi.descriptor hstate
  have hpos : 0 < e.packetRemaining.toNat := by
    obtain ⟨hF, -, hC, -⟩ := MessageContext.limits hc.accepted.pmtu
    have hbytes := segBytes_pos (F := e.ctxLatch.firstLimit) (C := e.ctxLatch.contLimit) (by omega)
      (by omega) ((MessageContext.lt_packets hc.accepted).1 hc.index)
    have hpacket := hc.packet
    simp only [MessageContext.bytes] at hpacket
    omega
  refine ⟨⟨by rintro ⟨⟩, fun _ => ⟨0, hc.queues .payload e.contextQ q e.payloadQ⟩⟩, by rintro ⟨⟩,
    by rintro ⟨⟩, fun _ => ⟨by simp [hlen], hpos⟩, by rintro ⟨⟩, fun _ => ?_, hi.messages, ?_⟩
  · refine (hi.current (by rw [hstate]; rintro ⟨⟩)).concat ?_
    rw [hlen]
    exact hc.describes
  · dsimp only [PacketHistory.described]
    rw [Fifo.enq_eq_some hq, ← List.append_assoc, hi.out, PacketHistory.described,
      List.append_assoc]

lemma emitPayload (hs : e.emitPayload = some e') : PacketInv e' h := by
  have hcounters := emitPayload_inv hi.counters hs
  obtain ⟨hstate, -, hctx, -, hcase⟩ := emitPayload_eq_some hs
  obtain ⟨done, hc⟩ := hi.counters.payload hstate
  obtain ⟨hlen, hpos⟩ := hi.payload hstate
  have hcurrent : DescribesAll e'.ctxLatch h.current := by
    rw [hctx]
    exact hi.current (by rw [hstate]; nofun)
  have hout : h.out ++ e'.descriptorQ.elems = h.described := by
    rw [(emitPayload_queues hs).2]
    exact hi.out
  rcases hcase with ⟨hend, hleft, hs', -⟩ | ⟨-, hs', hindex⟩ | ⟨hend, hs', hindex, hrest⟩
  · refine ⟨hcounters, by simp [hs'], by simp [hs'], by simp [hs'], fun _ => ?_, fun _ => hcurrent,
      hi.messages, hout⟩
    rw [hctx, hlen, hc.last hend hleft]
    exact ⟨hc.accepted, rfl⟩
  · refine ⟨hcounters, by simp [hs'], fun _ => ?_, by simp [hs'], by simp [hs'], fun _ => hcurrent,
      hi.messages, hout⟩
    have hlt := hc.index
    have := MessageContext.packets_lt hc.accepted
    rw [hlen, hindex]
    simp only [BitVec.toNat_add, BitVec.ofNat_eq_ofNat, BitVec.toNat_ofNat]
    omega
  · refine ⟨hcounters, by simp [hs'], by simp [hs'], fun _ => ⟨by rw [hlen, hindex], ?_⟩,
      by simp [hs'], fun _ => hcurrent, hi.messages, hout⟩
    have hreq := e.requested_toNat
    have hne : e.packetRemaining.toNat ≠ e.requested.toNat := by
      intro heq
      refine hend (BitVec.eq_of_toNat_eq ?_)
      rw [BitVec.toNat_setWidth]
      omega
    rw [hrest, BitVec.toNat_sub, BitVec.toNat_setWidth]
    omega

/-- Every rule and method keeps the descriptors of the messages in order. -/
lemma step {l : TxLabel} (hs : e.step l = some e') : PacketInv e' (e.record l h) := by
  cases l with
  | contextIn ctx =>
    obtain ⟨q, -, hs⟩ := bind_eq_some.1 hs
    cases hs
    exact hi.queues q e.payloadQ
  | startMessage => exact hi.startMessage hs
  | emitDescriptor => exact hi.emitDescriptor hs
  | emitPayload => exact hi.emitPayload hs
  | finishMessage =>
    obtain ⟨hstate, hs⟩ := guard_bind_eq_some.1 hs
    cases hs
    obtain ⟨ha, hlen⟩ := hi.flush hstate
    refine ⟨⟨nofun, nofun⟩, fun _ => rfl, nofun, nofun, nofun, fun h => absurd rfl h,
      fun g hg => ?_, ?_⟩
    · rcases List.mem_append.1 hg with hg | hg
      · exact hi.messages g hg
      · rw [List.mem_singleton.1 hg]
        exact ⟨ha, hlen, hi.current (by rw [hstate]; nofun)⟩
    · refine hi.out.trans ?_
      simp [record, PacketHistory.described]
  | descriptorOut =>
    obtain ⟨⟨d, e₁⟩, hout, rfl⟩ := Option.map_eq_some_iff.1 hs
    obtain ⟨⟨d', q⟩, hq, heq⟩ := bind_eq_some.1 hout
    cases heq
    rw [record, handedOut_of_eq_some hout]
    refine { hi with
      counters := hi.counters.queues e.contextQ q e.payloadQ
      out := ?_ }
    rw [List.append_assoc, List.singleton_append, ← Fifo.deq_eq_some hq]
    exact hi.out
  | payloadOut =>
    obtain ⟨⟨d, e₁⟩, hout, rfl⟩ := Option.map_eq_some_iff.1 hs
    obtain ⟨⟨d', q⟩, -, hs⟩ := bind_eq_some.1 hout
    cases hs
    exact hi.queues e.contextQ q

lemma run {h' : PacketHistory} {ls : List TxLabel}
    (hrun : fire packetStep (e, h) ls = some (e', h')) : PacketInv e' h' := by
  refine fire_rule (P := fun s : PacketAssemblyEngine × PacketHistory => PacketInv s.1 s.2) ?_
    hi hrun
  rintro ⟨e, h⟩ l ⟨e', h'⟩ hi hs
  obtain ⟨hstep, hobs⟩ := watched_eq_some.1 hs
  dsimp only at hstep hobs ⊢
  rw [hobs]
  exact hi.step hstep

end PacketInv

/-! ## Progress -/

lemma emitDescriptor_ready (hc : e.Counts 0) (hstate : e.state = .descriptor)
    (hroom : e.descriptorQ.elems.length < 2) : ∃ e', e.emitDescriptor = some e' := by
  obtain ⟨q, hq⟩ := Fifo.enq_of_lt hroom e.descriptor
  have hmsb : (e.ctxLatch.remoteAddr.setWidth 65 + e.messageOffset.setWidth 65).msb = false := by
    have hlt := (MessageContext.lt_packets hc.accepted).1 hc.index
    have hrange := hc.accepted.range
    have hoffset := hc.offset
    have := e.messageOffset.isLt
    simp only [BitVec.msb_eq_decide, decide_eq_false_iff_not, BitVec.toNat_add,
      BitVec.toNat_setWidth]
    omega
  refine ⟨{ e with descriptorQ := q, state := .payload }, ?_⟩
  simp [emitDescriptor, guard, hstate, hmsb, hq]

lemma emitPayload_ready (hstate : e.state = .payload) (hpos : 0 < e.packetRemaining.toNat)
    (hroom : e.payloadQ.elems.length < 2) : ∃ e', e.emitPayload = some e' := by
  have hreq : e.requested ≠ 0 := by
    intro hz
    have hr := e.requested_toNat
    rw [hz] at hr
    simp only [BitVec.ofNat_eq_ofNat, BitVec.toNat_ofNat] at hr
    omega
  obtain ⟨q, hq⟩ := Fifo.enq_of_lt hroom
    { requestId := e.ctxLatch.requestId
      psn := e.ctxLatch.startPsn + e.packetIndex.setWidth 24
      keep := byteMask128 e.requested
      sop := decide (e.packetRemaining = e.packetPayloadLength)
      eop := decide (e.packetRemaining = e.requested.setWidth 13) : PacketPayloadBeat }
  unfold emitPayload
  simp only [guard, hstate, hreq, ne_eq, not_false_eq_true, if_true, hq, Option.pure_def,
    Option.bind_eq_bind, Option.bind_some]
  split
  · split <;> exact ⟨_, rfl⟩
  · exact ⟨_, rfl⟩

/-- A beat of payload takes bytes off the message. -/
lemma emitPayload_decreases {done : ℕ} (hc : e.Counts done) (hs : e.emitPayload = some e') :
    e'.messageRemaining.toNat < e.messageRemaining.toNat := by
  obtain ⟨-, hreq, -, hleft, -⟩ := emitPayload_eq_some hs
  have hpos : 0 < e.requested.toNat :=
    Nat.pos_iff_ne_zero.2 fun hz => hreq (BitVec.eq_of_toNat_eq hz)
  have hr := e.requested_toNat
  have hle : e.ctxLatch.bytes e.packetIndex.toNat ≤
      e.ctxLatch.len.toNat - e.ctxLatch.offset e.packetIndex.toNat := min_le_left _ _
  have hoff := (MessageContext.lt_packets hc.accepted).1 hc.index
  obtain ⟨-, -, -, hoffset, hremaining, hpacket, -⟩ := hc
  have hlt := e.messageRemaining.isLt
  rw [hleft, BitVec.toNat_sub, BitVec.toNat_setWidth]
  omega

/-- Payload is emitted, once its queue has been given room. -/
lemma beat_fires (hi : PacketInv e h) (hstate : e.state = .payload) :
    ∃ ls e' h', fire packetStep (e, h) ls = some (e', h') ∧ e'.state ≠ .idle ∧
      e'.messageRemaining.toNat < e.messageRemaining.toNat := by
  have hne : ∀ {e e' : PacketAssemblyEngine}, e.emitPayload = some e' → e'.state ≠ .idle := by
    intro e e' hs
    rcases (emitPayload_eq_some hs).2.2.2.2 with ⟨-, -, hs', -⟩ | ⟨-, hs', -⟩ | ⟨-, hs', -⟩ <;>
      rw [hs'] <;> nofun
  obtain ⟨done, hc⟩ := hi.counters.payload hstate
  by_cases hroom : e.payloadQ.elems.length < 2
  · obtain ⟨e', he'⟩ := emitPayload_ready hstate (hi.payload hstate).2 hroom
    have hstep : e.step .emitPayload = some e' := he'
    exact ⟨[.emitPayload], e', h, fire_cons.2 ⟨_, watched_of_step hstep h, rfl⟩, hne he',
      emitPayload_decreases hc he'⟩
  · obtain ⟨b, q, hq, hlt⟩ := Fifo.deq_of_pos (q := e.payloadQ) (by omega)
    have hout : e.step .payloadOut = some { e with payloadQ := q } := by
      simp [step, payloadOut, hq]
    obtain ⟨e', he'⟩ := emitPayload_ready (e := { e with payloadQ := q }) hstate
      (hi.payload hstate).2 hlt
    have hstep : { e with payloadQ := q }.step .emitPayload = some e' := he'
    refine ⟨[.payloadOut, .emitPayload], e', h, fire_cons.2 ⟨_, watched_of_step hout h,
      fire_cons.2 ⟨_, watched_of_step hstep h, rfl⟩⟩, hne he', ?_⟩
    have hless := emitPayload_decreases (hc.queues e.state e.contextQ e.descriptorQ q) he'
    exact hless

/-- A descriptor is emitted, once its queue has been given room. -/
lemma descriptor_fires (hi : PacketInv e h) (hstate : e.state = .descriptor) :
    ∃ ls e' h', fire packetStep (e, h) ls = some (e', h') ∧ e'.state = .payload ∧
      e'.messageRemaining = e.messageRemaining := by
  have hc := hi.counters.descriptor hstate
  by_cases hroom : e.descriptorQ.elems.length < 2
  · obtain ⟨e', he'⟩ := emitDescriptor_ready hc hstate hroom
    have hstep : e.step .emitDescriptor = some e' := he'
    refine ⟨[.emitDescriptor], e', _, fire_cons.2 ⟨_, watched_of_step hstep h, rfl⟩, ?_⟩
    obtain ⟨-, q, -, rfl⟩ := emitDescriptor_eq_some he'
    exact ⟨rfl, rfl⟩
  · obtain ⟨d, q, hq, hlt⟩ := Fifo.deq_of_pos (q := e.descriptorQ) (by omega)
    have hout : e.step .descriptorOut = some { e with descriptorQ := q } := by
      simp [step, descriptorOut, hq]
    obtain ⟨e', he'⟩ := emitDescriptor_ready (e := { e with descriptorQ := q })
      (hc.queues e.state e.contextQ q e.payloadQ) hstate hlt
    have hstep : { e with descriptorQ := q }.step .emitDescriptor = some e' := he'
    refine ⟨[.descriptorOut, .emitDescriptor], e', _, fire_cons.2 ⟨_, watched_of_step hout h,
      fire_cons.2 ⟨_, watched_of_step hstep _, rfl⟩⟩, ?_⟩
    obtain ⟨-, q', -, rfl⟩ := emitDescriptor_eq_some he'
    exact ⟨rfl, rfl⟩

/-- **A message that has been started can be finished**, whatever has been emitted of it: every beat
of payload takes some of its bytes off. -/
theorem message_finishes (hi : PacketInv e h) (hne : e.state ≠ .idle) :
    ∃ ls e' h', fire packetStep (e, h) ls = some (e', h') ∧ e'.state = .idle := by
  induction hn : e.messageRemaining.toNat using Nat.strong_induction_on generalizing e h with
  | _ n ih =>
    have hbeat : ∀ {e : PacketAssemblyEngine} {h : PacketHistory}, PacketInv e h →
        e.state = .payload → e.messageRemaining.toNat = n →
        ∃ ls e' h', fire packetStep (e, h) ls = some (e', h') ∧ e'.state = .idle := by
      intro e h hi hstate hn
      obtain ⟨ls, e₁, h₁, hrun, hne₁, hlt⟩ := beat_fires hi hstate
      obtain ⟨ks, e₂, h₂, hrun₂, hidle⟩ := ih _ (hn ▸ hlt) (hi.run hrun) hne₁ rfl
      exact ⟨ls ++ ks, e₂, h₂, fire_append.2 ⟨_, hrun, hrun₂⟩, hidle⟩
    cases hstate : e.state with
    | idle => exact absurd hstate hne
    | flush =>
      have hstep : e.step .finishMessage = some { e with state := .idle } := by
        simp [step, finishMessage, guard, hstate]
      exact ⟨[.finishMessage], _, _, fire_cons.2 ⟨_, watched_of_step hstep h, rfl⟩, rfl⟩
    | payload => exact hbeat hi hstate hn
    | descriptor =>
      obtain ⟨ls, e₁, h₁, hrun, hstate₁, hleft⟩ := descriptor_fires hi hstate
      obtain ⟨ks, e₂, h₂, hrun₂, hidle⟩ := hbeat (hi.run hrun) hstate₁ (by rw [hleft, hn])
      exact ⟨ls ++ ks, e₂, h₂, fire_append.2 ⟨_, hrun, hrun₂⟩, hidle⟩

end PacketAssemblyEngine

section Runs

variable {e : PacketAssemblyEngine} {h : PacketHistory} {ls : List TxLabel}
  (hrun : fire packetStep (.initial, ⟨[], [], []⟩) ls = some (e, h))

include hrun

/-- **A finished message has had all its packets described, in order.** -/
theorem messages_complete {ctx : MessageContext} {ds : List PacketDescriptor}
    (hg : (ctx, ds) ∈ h.messages) :
    ds.length = (packetCountForContext ctx).toNat ∧ DescribesAll ctx ds := by
  obtain ⟨ha, hlen, hall⟩ := (PacketAssemblyEngine.PacketInv.initial.run hrun).messages _ hg
  exact ⟨hlen.trans (packetCountForContext_toNat ha).symm, hall⟩

/-- **What is handed out, and what is about to be, is what was described.** -/
theorem described_out : h.out ++ e.descriptorQ.elems = h.described :=
  (PacketAssemblyEngine.PacketInv.initial.run hrun).out

end Runs

end OpenRdma
