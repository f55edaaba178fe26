import OpenRdma.Tx.MessageAdapter
import OpenRdma.Tx.PacketRuns
import OpenRdma.Tx.TranslationRuns
import Mathlib.Order.CompletePartialOrder

/-!
# Reserved PSNs

The submission pipeline reserves as many PSNs for a message as the packetizer will use: the two
count with the same formula at different widths, and the packetizer's loop takes as many turns as
the formula says.  So no assertion on the number of PSNs fails anywhere in the chain, and the ranges
reserved on a queue pair follow one another without gap or overlap.

* **`reservation_exact`** — the reservation is what the packetizer uses.
-/

namespace OpenRdma

/-! ## Counts -/

section Counts

variable {len : TxLength} {pmtu : TxPmtuCode} (hpos : 0 < len.toNat) (hp : pmtu ≤ 4)

include hpos hp

/-- The number of packets of a message of the legacy profile. -/
lemma segCount_lt (hle : len.toNat ≤ 2 ^ 24) :
    segCount (firstPayloadLimit pmtu).toNat (contPayloadLimit pmtu).toNat len.toNat < 2 ^ 17 := by
  obtain ⟨hF, hC, -⟩ := payloadLimits hp
  rw [← not_le]
  intro hge
  have h : (firstPayloadLimit pmtu).toNat + 131070 * (contPayloadLimit pmtu).toNat < len.toNat :=
    (lt_segCount (k := 131071) hpos (by omega)).1 (by omega)
  omega

lemma Mvp.txPacketCount_toNat (hle : len.toNat ≤ 2 ^ 24) :
    (Mvp.txPacketCount len pmtu).toNat =
      segCount (firstPayloadLimit pmtu).toNat (contPayloadLimit pmtu).toNat len.toNat := by
  obtain ⟨-, hC, -⟩ := payloadLimits hp
  have hC' : 0 < (contPayloadLimit pmtu).toNat := by omega
  have hne : len ≠ 0 := fun h => by simp [h] at hpos
  unfold Mvp.txPacketCount
  dsimp only
  rw [if_neg hne]
  exact pieces_toNat hC' (by decide) (segCount_lt hpos hp hle)

lemma packetCountForMessage_toNat (hle : len.toNat ≤ 2 ^ 24) :
    (PhaseA.packetCountForMessage len pmtu).toNat =
      segCount (firstPayloadLimit pmtu).toNat (contPayloadLimit pmtu).toNat len.toNat := by
  obtain ⟨hF, hC, -⟩ := payloadLimits hp
  have hne : len ≠ 0 := fun h => by simp [h] at hpos
  have hfirst : firstPayloadLimit pmtu ≠ 0 := fun h => by simp [h] at hF; omega
  have hcont : contPayloadLimit pmtu ≠ 0 := fun h => by simp [h] at hC
  have hlt := segCount_lt hpos hp hle
  unfold PhaseA.packetCountForMessage packetCountForProfile
  simp only [packetPayloadLimitForProfile, reduceCtorEq, if_false, if_true, Bool.false_eq_true, hne,
    hfirst, hcont, or_self]
  exact pieces_toNat (by omega) (by decide) (by omega)

end Counts

namespace Mvp

/-! ## Ranges of PSNs -/

/-- The PSNs of a reservation. -/
def psns (a : QpReserveResp) : Set TxPsn :=
  {x | ∃ i < a.psnCount.toNat, x = a.startPsn + BitVec.ofNat 24 i}

/-- **Adjacent ranges are disjoint**: two of them do not go round the circle of PSNs. -/
lemma psns_disjoint {a b : QpReserveResp} (h : b.startPsn = a.startPsn + a.psnCount.setWidth 24) :
    Disjoint (psns a) (psns b) := by
  rw [Set.disjoint_left]
  rintro x ⟨i, hi, rfl⟩ ⟨j, hj, hx⟩
  have ha := a.psnCount.isLt
  have hb := b.psnCount.isLt
  rw [h, BitVec.add_assoc, BitVec.add_right_inj] at hx
  have hx := congrArg BitVec.toNat hx
  simp only [BitVec.toNat_add, BitVec.toNat_setWidth, BitVec.toNat_ofNat] at hx
  omega

/-! ## Requests and contexts under way -/

/-- A request of a run, with the message it is of. -/
lemma request_of_mem {m : TxMvp} {h : MvpHistory} {t c : Cursor} {seq : ℕ} (hpath : PathInv m h)
    (hi : TranslationInv m h t c seq) {r : TxDmaReadRequest} (hr : r ∈ h.requests) :
    ∃ j p a offset seq, ParsedSpec h j p ∧ Reads p a offset seq r := by
  obtain ⟨⟨x, n⟩, y, p, a, hp, -, hreads, -⟩ := hi.bursts.mem (List.mem_append_left _ hr)
  exact ⟨x.message, p, a, x.offset, n, hpath.parsed_spec hp, hreads⟩

section First

variable {h : MvpHistory} {j offset seq : ℕ} {p : ParsedTxRequest} {a : PgtQueryResp}
  {r : TxDmaReadRequest} (hspec : ParsedSpec h j p) (hreads : Reads p a offset seq r)

include hspec hreads

/-- The count of PSNs that comes with a request is the one that the packetizer will compute. -/
lemma request_psnCount : r.messageLength = p.len ∧ r.pmtu ≤ 4 ∧
    (r.psnCount.setWidth 18 : OpenRdma.TxPsnCount) =
      PhaseA.packetCountForMessage r.messageLength r.pmtu := by
  have hheader := hreads.header
  simp only [TxDmaReadRequest.header, ParsedTxRequest.header, MessageHeader.mk.injEq] at hheader
  obtain ⟨-, -, -, -, hpmtu, -, hcount, hlen, -⟩ := hheader
  refine ⟨hlen, by rw [hpmtu]; exact hspec.pmtu, ?_⟩
  rw [hpmtu, hcount, hlen, hspec.psnCount]
  apply BitVec.eq_of_toNat_eq
  have hlt := (txPacketCount p.len p.pmtu).isLt
  rw [BitVec.toNat_setWidth, packetCountForMessage_toNat hspec.pos hspec.pmtu hspec.le,
    txPacketCount_toNat hspec.pos hspec.pmtu hspec.le] at *
  omega

/-- **The assertions of the adapter hold** of every request. -/
lemma starts_of_reads : M0MessageAdapter.starts r = true := by
  obtain ⟨hlen, hpmtu, hcount⟩ := request_psnCount hspec hreads
  have hne : r.messageLength ≠ 0 := by
    rw [hlen]
    intro hz
    have := hspec.pos
    simp [hz] at this
  simp only [M0MessageAdapter.starts, hcount, decide_true, Bool.and_true, Bool.and_eq_true,
    bne_iff_ne, decide_eq_true_eq]
  exact ⟨hne, hpmtu⟩

/-- **The assertions of the packetizer hold** of the context of a first request. -/
lemma accepts_of_reads (hfirst : r.isFirst = true) :
    PacketAssemblyEngine.accepts (M0MessageAdapter.contextOf r) = true := by
  obtain ⟨hlen, hpmtu, hcount⟩ := request_psnCount hspec hreads
  have hzero : offset = 0 := by
    rw [hreads.isFirst, decide_eq_true_eq] at hfirst
    exact hfirst
  have hremote := hreads.remote
  rw [hzero, Nat.add_zero] at hremote
  have hpos := hspec.pos
  have hrange := hspec.remote
  have hne : r.messageLength ≠ 0 := by
    rw [hlen]
    intro hz
    simp [hz] at hpos
  have hend : (r.remoteAddr.setWidth 65 + r.messageLength.setWidth 65 - 1 : BitVec 65).msb =
      false := by
    have := p.len.isLt
    rw [hlen]
    simp only [BitVec.msb_eq_decide, decide_eq_false_iff_not, BitVec.toNat_sub, BitVec.toNat_add,
      BitVec.toNat_setWidth, BitVec.ofNat_eq_ofNat, BitVec.toNat_ofNat, hremote]
    omega
  simp [PacketAssemblyEngine.accepts, M0MessageAdapter.contextOf, isSupportedWireProfile,
    packetCountForContext, hcount, PhaseA.packetCountForMessage]
  exact ⟨⟨hne, hend⟩, hpmtu⟩

end First

/-- The requests under way are requests of the pipeline, and the packetizer accepts every
context. -/
structure ChainInv (c : M0Chain) (h : MvpHistory) : Prop where
  path : PathInv c.mvp h
  translation : ∃ t x seq, TranslationInv c.mvp h t x seq
  requests : ∀ r ∈ c.adapter.requestQ.elems, r ∈ h.requests
  contexts : ∀ ctx ∈ c.adapter.contextQ.elems ++ c.packetizer.contextQ.elems,
    PacketAssemblyEngine.accepts ctx = true

/-- A request that was logged stays logged. -/
lemma requests_observe {m : TxMvp} {l : MvpLabel} {h : MvpHistory} {r : TxDmaReadRequest}
    (hr : r ∈ h.requests) : r ∈ (m.observe l h).requests := by
  unfold TxMvp.observe
  split <;> (try split) <;> first | exact hr | exact List.mem_append_left _ hr

/-- Without its input the packetizer only takes contexts out. -/
lemma contextQ_step {e e' : PacketAssemblyEngine} {l : TxLabel} (hl : (!l.isInput) = true)
    (hs : e.step l = some e') {ctx : MessageContext} (hctx : ctx ∈ e'.contextQ.elems) :
    ctx ∈ e.contextQ.elems := by
  cases l with
  | contextIn ctx => cases hl
  | startMessage =>
    obtain ⟨-, hs⟩ := guard_bind_eq_some.1 hs
    obtain ⟨⟨x, q⟩, hq, hs⟩ := bind_eq_some.1 hs
    obtain ⟨-, hs⟩ := guard_bind_eq_some.1 hs
    cases hs
    rw [Fifo.deq_eq_some hq]
    exact List.mem_cons_of_mem _ hctx
  | emitDescriptor =>
    obtain ⟨-, q, -, rfl⟩ := PacketAssemblyEngine.emitDescriptor_eq_some hs
    exact hctx
  | emitPayload =>
    rw [(PacketAssemblyEngine.emitPayload_queues hs).1] at hctx
    exact hctx
  | finishMessage =>
    obtain ⟨-, hs⟩ := guard_bind_eq_some.1 hs
    cases hs
    exact hctx
  | descriptorOut | payloadOut =>
    obtain ⟨⟨d, e₁⟩, hout, rfl⟩ := Option.map_eq_some_iff.1 hs
    obtain ⟨⟨d', q⟩, -, hs⟩ := bind_eq_some.1 hout
    cases hs
    exact hctx

namespace ChainInv

variable {c c' : M0Chain} {h : MvpHistory}

lemma initial : ChainInv .initial .initial where
  path := PathInv.initial
  translation := ⟨_, _, _, TranslationInv.initial⟩
  requests := nofun
  contexts := nofun

/-- Every request that is waiting is one of a message. -/
lemma request_spec (hi : ChainInv c h) {r : TxDmaReadRequest} (hr : r ∈ c.adapter.requestQ.elems) :
    ∃ j p a offset seq, ParsedSpec h j p ∧ Reads p a offset seq r := by
  obtain ⟨t, x, seq, ht⟩ := hi.translation
  exact request_of_mem hi.path ht (hi.requests r hr)

lemma mvp (hi : ChainInv c h) {l : MvpLabel} {m : TxMvp} (hs : c.mvp.step l = some m) :
    ChainInv { c with mvp := m } (c.mvp.observe l h) where
  path := hi.path.step hs
  translation := by
    obtain ⟨t, x, seq, ht⟩ := hi.translation
    exact ht.step (fun hp => (hi.path.parsed_spec hp).sound) hs
  requests := fun r hr => requests_observe (hi.requests r hr)
  contexts := hi.contexts

/-- Every rule and method of the chain keeps what is under way in order. -/
lemma step (hi : ChainInv c h) {l : ChainLabel} (hs : c.step l = some c') :
    ChainInv c' (c.observe l h) := by
  cases l with
  | mvp l =>
    obtain ⟨-, hs⟩ := guard_bind_eq_some.1 hs
    obtain ⟨m, hm, hs⟩ := bind_eq_some.1 hs
    cases hs
    exact hi.mvp hm
  | connectRequest =>
    obtain ⟨⟨req, m⟩, hm, hs⟩ := bind_eq_some.1 hs
    obtain ⟨q, hq, hs⟩ := bind_eq_some.1 hs
    cases hs
    have hout : c.mvp.step .dmaReadReqOut = some m := by simp [TxMvp.step, hm]
    exact { hi.mvp hout with
      requests := by
        intro r hr
        dsimp only [M0Chain.observe, TxMvp.observe] at hr ⊢
        rw [handedOut_of_eq_some hm]
        rw [Fifo.enq_eq_some hq] at hr
        exact List.mem_append.2 ((List.mem_append.1 hr).imp_left (hi.requests r)) }
  | emitMessageStart =>
    obtain ⟨a, ha, hs⟩ := bind_eq_some.1 hs
    cases hs
    obtain ⟨⟨req, q⟩, hq, ha⟩ := bind_eq_some.1 ha
    obtain ⟨hfirst, ha⟩ := guard_bind_eq_some.1 ha
    obtain ⟨-, ha⟩ := guard_bind_eq_some.1 ha
    obtain ⟨k, -, ha⟩ := bind_eq_some.1 ha
    obtain ⟨x, hx, ha⟩ := bind_eq_some.1 ha
    obtain rfl := (Option.some.inj ha).symm
    have hq' := Fifo.deq_eq_some hq
    obtain ⟨j, p, a, offset, seq, hspec, hreads⟩ :=
      hi.request_spec (r := req) (by rw [hq']; exact List.mem_cons_self)
    exact { hi with
      requests := fun r hr => hi.requests r (by rw [hq']; exact List.mem_cons_of_mem _ hr)
      contexts := by
        intro ctx hctx
        dsimp only at hctx
        rw [Fifo.enq_eq_some hx] at hctx
        simp only [List.mem_append, List.mem_singleton] at hctx
        rcases hctx with (hctx | rfl) | hctx
        · exact hi.contexts ctx (List.mem_append_left _ hctx)
        · exact accepts_of_reads hspec hreads hfirst
        · exact hi.contexts ctx (List.mem_append_right _ hctx) }
  | emitContinuation =>
    obtain ⟨a, ha, hs⟩ := bind_eq_some.1 hs
    cases hs
    obtain ⟨⟨req, q⟩, hq, ha⟩ := bind_eq_some.1 ha
    obtain ⟨-, ha⟩ := guard_bind_eq_some.1 ha
    obtain ⟨k, -, ha⟩ := bind_eq_some.1 ha
    obtain rfl := (Option.some.inj ha).symm
    exact { hi with
      requests := fun r hr => hi.requests r (by
        rw [Fifo.deq_eq_some hq]
        exact List.mem_cons_of_mem _ hr) }
  | chunkOut =>
    obtain ⟨⟨x, q⟩, -, hs⟩ := bind_eq_some.1 hs
    cases hs
    exact { hi with }
  | connectContext =>
    obtain ⟨⟨ctx, q⟩, hq, hs⟩ := bind_eq_some.1 hs
    obtain ⟨e, he, hs⟩ := bind_eq_some.1 hs
    cases hs
    obtain ⟨r, hr, he⟩ := bind_eq_some.1 he
    cases he
    have hcontexts := hi.contexts
    rw [Fifo.deq_eq_some hq] at hcontexts
    exact { hi with
      contexts := by
        intro x hx
        dsimp only at hx
        rw [Fifo.enq_eq_some hr] at hx
        refine hcontexts x ?_
        simp only [List.mem_append, List.mem_cons] at hx ⊢
        tauto }
  | packetizer l =>
    obtain ⟨hl, hs⟩ := guard_bind_eq_some.1 hs
    obtain ⟨e, he, hs⟩ := bind_eq_some.1 hs
    cases hs
    exact { hi with
      contexts := fun x hx => hi.contexts x ((List.mem_append.1 hx).elim (List.mem_append_left _)
        fun hx => List.mem_append_right _ (contextQ_step hl he hx)) }

end ChainInv

lemma chain_inv {c : M0Chain} {h : MvpHistory} {ls : List ChainLabel}
    (hrun : fire chainStep (.initial, .initial) ls = some (c, h)) : ChainInv c h := by
  refine fire_rule (P := fun s : M0Chain × MvpHistory => ChainInv s.1 s.2) ?_ ChainInv.initial hrun
  rintro ⟨c, h⟩ l ⟨c', h'⟩ hi hs
  obtain ⟨hstep, hobs⟩ := watched_eq_some.1 hs
  dsimp only at hstep hobs ⊢
  rw [hobs]
  exact hi.step hstep

/-- **The PSNs reserved for a message are those that its packets use.**  The pipeline, the adapter
and the packetizer count alike, and a message that the packetizer has finished has had that many
descriptors — and any message it has started can be finished; what it describes is what it hands
out.  In every run of the chain the assertions of the adapter and of the packetizer hold of what
comes next, every message has the PSNs that were reserved for it, and the reservations on a queue
pair since it was configured follow one another without gap or overlap. -/
theorem reservation_exact {len : TxLength} {pmtu : TxPmtuCode} (hpos : 0 < len.toNat)
    (hle : len.toNat ≤ 2 ^ 24) (hp : pmtu ≤ 4) {e : PacketAssemblyEngine} {g : PacketHistory}
    {ks : List TxLabel} (hpackets : fire packetStep (.initial, ⟨[], [], []⟩) ks = some (e, g))
    {c : M0Chain} {h : MvpHistory} {ls : List ChainLabel}
    (hrun : fire chainStep (.initial, .initial) ls = some (c, h)) :
    (txPacketCount len pmtu).toNat = (PhaseA.packetCountForMessage len pmtu).toNat ∧
    (∀ ctx ds, (ctx, ds) ∈ g.messages → ctx.len = len → ctx.pmtu = pmtu →
      ctx.wireProfile = .legacyPrivate → ds.length = (txPacketCount len pmtu).toNat) ∧
    g.out ++ e.descriptorQ.elems = g.messages.flatMap Prod.snd ++ g.current ∧
    (e.state ≠ .idle → ∃ ks' e' g', fire packetStep (e, g) ks' = some (e', g') ∧ e'.state = .idle) ∧
    (∀ r ∈ c.adapter.requestQ.elems, M0MessageAdapter.starts r = true) ∧
    (∀ ctx ∈ c.packetizer.contextQ.elems, PacketAssemblyEngine.accepts ctx = true) ∧
    (∀ (j : ℕ) p, h.parsed[j]? = some p → ∃ x, h.reservations[j]? = some x ∧ x.1.qpn = p.qpn ∧
      p.startPsn = x.2.startPsn ∧ p.psnCount = x.2.psnCount) ∧
    ∀ q (i : ℕ) a b, (h.since q)[i]? = some a → (h.since q)[i + 1]? = some b →
      b.startPsn = a.startPsn + a.psnCount.setWidth 24 ∧ Disjoint (psns a) (psns b) := by
  have hcount : (txPacketCount len pmtu).toNat = (PhaseA.packetCountForMessage len pmtu).toNat := by
    rw [txPacketCount_toNat hpos hp hle, packetCountForMessage_toNat hpos hp hle]
  have hi := chain_inv hrun
  refine ⟨hcount, ?_, described_out hpackets, ?_, ?_, ?_, ?_, ?_⟩
  · rintro ctx ds hg rfl rfl hlegacy
    rw [(messages_complete hpackets hg).1, hcount, packetCountForContext, hlegacy]
    rfl
  · exact PacketAssemblyEngine.message_finishes
      (PacketAssemblyEngine.PacketInv.initial.run hpackets)
  · intro r hr
    obtain ⟨j, p, a, offset, seq, hspec, hreads⟩ := hi.request_spec hr
    exact starts_of_reads hspec hreads
  · exact fun ctx hctx => hi.contexts ctx (List.mem_append_right _ hctx)
  · intro j p hp
    obtain ⟨x, hx, hqpn, -, hreserved⟩ := (hi.path.parsed_spec hp).reservation
    exact ⟨x, hx, hqpn, hreserved.startPsn, hreserved.psnCount⟩
  · intro q i a b ha hb
    have hadj := (hi.path.psns q).adjacent i a b ha hb
    exact ⟨hadj, psns_disjoint hadj⟩

/-- A message of 768 bytes at the smallest path MTU, cut into its four packets. -/
def fourPackets : List TxLabel :=
  let beat : List TxLabel := [.emitPayload, .payloadOut]
  let descriptor : List TxLabel := [.emitDescriptor, .descriptorOut]
  [.contextIn { (default : MessageContext) with len := 768, psnCount := 4 }, .startMessage] ++
    descriptor ++ beat ++ beat ++ descriptor ++ beat ++ beat ++ descriptor ++ beat ++ beat ++
    descriptor ++ beat ++ [.finishMessage]

/-- A submission of 768 bytes, up to the packetizer. -/
def acrossStages : List ChainLabel :=
  acrossPages.map .mvp ++ [.connectRequest, .emitMessageStart, .connectContext]

theorem reservation_exact_acrossStages :
    ∃ e g c h, fire packetStep (.initial, ⟨[], [], []⟩) fourPackets = some (e, g) ∧
      fire chainStep (.initial, .initial) acrossStages = some (c, h) ∧
      g.messages.map (fun x => (x.1.len, x.2.length)) = [(768, 4)] ∧
      c.packetizer.contextQ.elems.map (·.psnCount) = [4] ∧
      (txPacketCount 768 0).toNat = (PhaseA.packetCountForMessage 768 0).toNat ∧
      ∀ ctx ∈ c.packetizer.contextQ.elems, PacketAssemblyEngine.accepts ctx = true := by
  have hpackets : (fire packetStep (.initial, ⟨[], [], []⟩) fourPackets).map
      (fun s => s.2.messages.map fun x => (x.1.len, x.2.length)) = some [(768, 4)] := by
    decide +kernel
  have hchain : (fire chainStep (.initial, .initial) acrossStages).map
      (fun s => s.1.packetizer.contextQ.elems.map (·.psnCount)) = some [4] := by
    decide +kernel
  obtain ⟨⟨e, g⟩, hpackets, hmessages⟩ := Option.map_eq_some_iff.1 hpackets
  obtain ⟨⟨c, h⟩, hrun, hcontexts⟩ := Option.map_eq_some_iff.1 hchain
  obtain ⟨hcount, -, -, -, -, haccepts, -⟩ :=
    reservation_exact (show 0 < (768 : TxLength).toNat by decide) (by decide)
      (show (0 : TxPmtuCode) ≤ 4 by decide) hpackets hrun
  exact ⟨e, g, c, h, hpackets, hrun, hmessages, hcontexts, hcount, haccepts⟩

end Mvp

end OpenRdma
