import OpenRdma.Rx.MessagePackets
import OpenRdma.Rx.RqFlow
import OpenRdma.Tx.PacketRuns
import Mathlib.Order.CompletePartialOrder

/-!
# Reassembly inverts segmentation

The packets of one message arrive at the receive bitmap manager in any order, any number of times,
among the packets of other queue pairs.  The queue pair expects the message: no message is open, the
next sequence number is the first of the message, and nothing of the queue pair is under way.

* **`reassembly_exact`** — what is admitted, where it is written and when the message is complete.
-/

namespace OpenRdma

open Function (update update_self update_of_ne)

/-! ## What the manager holds -/

/-- The packet a label brings in. -/
def RqLabel.arrives : RqLabel → List RxParsedPacket
  | .packetIn _ p => [p]
  | _ => []

namespace RxRqBitmapManager

variable {m m' : RxRqBitmapManager} {P : RxParsedPacket → Prop}

/-- Every packet in an input queue, in the queue of candidates and in the ring has a property. -/
def HoldsOnly (m : RxRqBitmapManager) (P : RxParsedPacket → Prop) : Prop :=
  (∀ i, ∀ p ∈ (m.inputQ i).elems, P p) ∧ (∀ p ∈ m.ingressQ.elems, P p) ∧
    ∀ (q : RxQpIndex) (i : RxWindowIndex), (m.pendingValid q).getLsbD i = true →
    P (m.pendingPackets q i)

/-- The packets without the property have no weight. -/
lemma holdsOnly_iff [DecidablePred P] :
    m.HoldsOnly P ↔ m.parsedHeld (fun p => if P p then 0 else 1) = 0 := by
  have hring : ringWeight (fun p => if P p then 0 else 1) m.pendingValid m.pendingPackets = 0 ↔
      ∀ (q : RxQpIndex) (i : RxWindowIndex), (m.pendingValid q).getLsbD i = true →
        P (m.pendingPackets q i) := by
    simp [ringWeight, entryWeight, Finset.sum_eq_zero_iff]
  simp only [HoldsOnly, parsedHeld, Nat.add_eq_zero_iff, Fifo.weights_eq_zero, Fifo.weight_eq_zero,
    hring, ite_eq_left_iff, one_ne_zero, imp_false, not_not, and_assoc]

lemma HoldsOnly.mono {Q : RxParsedPacket → Prop} (hm : m.HoldsOnly P) (hPQ : ∀ p, P p → Q p) :
    m.HoldsOnly Q :=
  ⟨fun i p hp => hPQ p (hm.1 i p hp), fun p hp => hPQ p (hm.2.1 p hp),
    fun q i hbit => hPQ _ (hm.2.2 q i hbit)⟩

/-- While the manager runs, packets come in by `packetIn` only. -/
lemma parsedHeld_le {l : RqLabel} (hs : m.step l = some m') (hrun : m.running = true)
    (f : RxParsedPacket → ℕ) : m'.parsedHeld f ≤ m.parsedHeld f + (l.arrives.map f).sum := by
  have hflow := step_flow hs
  have hmoves : ∀ {a b c d e g}, m.Moves m' a b c d e g →
      m'.parsedHeld f ≤ m.parsedHeld f + (a.map f).sum := by
    intro a b c d e g h
    have := h.parsed f
    omega
  cases l with
  | configure index cfg =>
    cases step_fires hs with
    | configure hidle hm =>
      rw [hrun] at hidle
      cases hidle
  | processCandidate =>
    rcases hflow with h | ⟨p, h⟩ | ⟨qp, p, -, -, h⟩ <;> exact hmoves h
  | resolvePending =>
    rcases hflow with h | ⟨p, h⟩ <;> exact hmoves h
  | admittedOut i =>
    obtain ⟨a, -, h⟩ := hflow
    exact hmoves h
  | releaseOut i =>
    obtain ⟨x, -, h⟩ := hflow
    exact hmoves h
  | _ => exact hmoves hflow

/-- **What the manager holds keeps a property that every arriving packet has.** -/
theorem HoldsOnly.step (hm : m.HoldsOnly P) {l : RqLabel} (hs : m.step l = some m')
    (hrun : m.running = true) (hin : ∀ p ∈ l.arrives, P p) : m'.HoldsOnly P := by
  classical
  rw [holdsOnly_iff] at hm ⊢
  have hle := parsedHeld_le hs hrun (fun p => if P p then 0 else 1)
  have hnone : (l.arrives.map fun p => if P p then 0 else 1).sum = 0 := by
    rw [List.sum_eq_zero_iff]
    simpa using hin
  omega

/-! ## Packets the manager fails on -/

/-- A packet that the manager fails on was judged by a message, and did not pass. -/
lemma observe_rejections {h : RqHistory} (hs : m.processCandidate = some m') :
    (m.observe .processCandidate h).rejections = h.rejections ∨
    ∃ qp packet code, packet ∈ m.ingressQ.elems ∧ m.Judged qp packet ∧
      (((m.states qp).context (m.cfgs qp) packet).access (m.cfgs qp) = false ∨
        ((m.states qp).context (m.cfgs qp) packet).segment (m.cfgs qp) packet = false) ∧
      (m.observe .processCandidate h).rejections = h.rejections ++ [(packet, code)] := by
  obtain ⟨⟨packet, q⟩, hq, -⟩ := bind_eq_some.1 (guard_bind_eq_some.1 hs).2
  have hmem : packet ∈ m.ingressQ.elems := by
    rw [Fifo.deq_eq_some hq]
    exact List.mem_cons_self
  have hsound := m.judge_sound packet
  rw [observe_candidate (Fifo.first_of_deq hq)]
  cases hv : m.judge packet with
  | reject code =>
    rw [hv] at hsound
    obtain ⟨qp, hjudged, ⟨-, hfails⟩ | ⟨-, hfails⟩⟩ := hsound
    · exact .inr ⟨qp, packet, code, hmem, hjudged, .inl hfails, rfl⟩
    · exact .inr ⟨qp, packet, code, hmem, hjudged, .inr hfails, rfl⟩
  | _ => exact .inl rfl

end RxRqBitmapManager

/-! ## The message -/

/-- A packet for the destination of the message is one of those that were described. -/
def Described (ctx : MessageContext) (ds : List PacketDescriptor) (p : RxParsedPacket) : Prop :=
  p.qpn = ctx.destQpn → ∃ d ∈ ds, Carries d p

/-- The queue pair expects the message, and holds nothing. -/
structure Awaits (m : RxRqBitmapManager) (qp : RxQpIndex) (ctx : MessageContext) : Prop where
  running : m.running = true
  valid : (m.cfgs qp).valid = true
  receives : Receives (m.cfgs qp) ctx
  next : (m.states qp).ackPsn + 1 = ctx.startPsn
  closed : (m.states qp).contextValid = false
  received : (m.states qp).receiveBitmap = 0
  holds : m.HoldsOnly (·.qpn ≠ ctx.destQpn)

/-- How far the message is, with `n` packets acknowledged: not begun, under way, or complete. -/
inductive Stage (ctx : MessageContext) (state : RxRqState) (n : ℕ) : Prop
  | waiting (closed : state.contextValid = false) (zero : n = 0)
  | underway (valid : state.contextValid = true) (stored : state.stored = contextOf ctx)
      (lt : n < ctx.packets)
  | complete (closed : state.contextValid = false) (all : n = ctx.packets)

/-- Where the message starts in memory. -/
def messageBase (cfg : RxQpConfig) (ctx : MessageContext) : ℕ :=
  cfg.physicalBase.toNat + (ctx.remoteAddr.toNat - cfg.virtualBase.toNat)

/-- An admitted packet is packet `k` of the message, and is written to its place. -/
structure PlacedAt (cfg : RxQpConfig) (ctx : MessageContext) (ds : List PacketDescriptor) (base : ℕ)
    (a : RqAdmission) (k : ℕ) : Prop where
  described : ∃ d, ds[k]? = some d ∧ Carries d a.packet
  isPacket : IsPacket ctx k a.packet
  position : a.position = base + k
  dmaAddr : a.admitted.dmaAddr.toNat = messageBase cfg ctx + ctx.offset k
  payloadBytes : a.admitted.payloadBytes.toNat = ctx.bytes k

/-- Every packet of the message has been admitted. -/
def AllAdmitted (ctx : MessageContext) (base : ℕ) (as : List RqAdmission) : Prop :=
  ∀ k < ctx.packets, base + k ∈ as.map (·.position)

/-- The message under way, since the state and the history in which it was expected. -/
structure Reassembly (m₀ : RxRqBitmapManager) (h₀ : RqHistory) (ctx : MessageContext)
    (ds : List PacketDescriptor) (qp : RxQpIndex) (m : RxRqBitmapManager) (h : RqHistory) (n : ℕ)
    (as : List RqAdmission) : Prop where
  running : m.running = true
  cfgs : m.cfgs = m₀.cfgs
  window : RqInv m h
  holds : m.HoldsOnly (Described ctx ds)
  on : h.on qp = h₀.on qp ++ as
  acked : h.acked qp = h₀.acked qp + n
  le : n ≤ ctx.packets
  stage : Stage ctx (m.states qp) n
  placed : ∀ a ∈ as, ∃ k, PlacedAt (m₀.cfgs qp) ctx ds (h₀.acked qp) a k
  complete : EachAfter (fun before a =>
    a.admitted.messageComplete = true ↔ AllAdmitted ctx (h₀.acked qp) (before ++ [a])) as
  rejections : ∃ rs, h.rejections = h₀.rejections ++ rs ∧ ∀ x ∈ rs, x.1.qpn ≠ ctx.destQpn

section

variable {m₀ m m' : RxRqBitmapManager} {h₀ h h' : RqHistory} {ctx : MessageContext}
  {ds : List PacketDescriptor} {qp : RxQpIndex} {n k : ℕ} {as : List RqAdmission}
  {p : RxParsedPacket}

lemma DescribesAll.isPacket (hds : DescribesAll ctx ds) (hd : Described ctx ds p)
    (hqpn : p.qpn = ctx.destQpn) : ∃ k, IsPacket ctx k p ∧ ∃ d, ds[k]? = some d ∧ Carries d p := by
  obtain ⟨d, hmem, hcarries⟩ := hd hqpn
  obtain ⟨k, hk⟩ := List.mem_iff_getElem?.1 hmem
  exact ⟨k, (hds k d hk).isPacket hcarries, d, hk, hcarries⟩

namespace Reassembly

/-- The next sequence number expected, by what has been acknowledged of the message. -/
lemma ackPsn_succ (hi : Reassembly m₀ h₀ ctx ds qp m h n as) (h0 : RqInv m₀ h₀)
    (ha : Awaits m₀ qp ctx) : (m.states qp).ackPsn + 1 = ctx.startPsn + BitVec.ofNat 24 n := by
  have hw := (hi.window.exact qp (by rw [hi.cfgs]; exact ha.valid)).ackPsn
  have hw₀ := (h0.exact qp ha.valid).ackPsn
  rw [hi.cfgs, hi.acked, BitVec.ofNat_add] at hw
  rw [← ha.next, hw₀, hw]
  ring

/-- A packet in the window, by how far it is from the next one expected. -/
lemma index_eq (hi : Reassembly m₀ h₀ ctx ds qp m h n as) (h0 : RqInv m₀ h₀) (ha : Awaits m₀ qp ctx)
    (hp : IsPacket ctx k p) (hwin : windowOffset (m.states qp).ackPsn p.psn < 16) :
    k = n + windowOffset (m.states qp).ackPsn p.psn := by
  have hlt := ha.receives.packets_lt
  have hk := hp.lt
  have hn := hi.le
  have hoff : windowOffset (m.states qp).ackPsn p.psn =
      (BitVec.ofNat 24 k - BitVec.ofNat 24 n : BitVec 24).toNat := by
    rw [windowOffset, hi.ackPsn_succ h0 ha, hp.psn, add_sub_add_left_eq_sub]
  rw [hoff] at hwin ⊢
  simp only [BitVec.toNat_sub, BitVec.toNat_ofNat] at hwin ⊢
  omega

end Reassembly

/-- The message that the first packet opens. -/
lemma context_of_establishing {cfg : RxQpConfig} {state : RxRqState} (hr : Receives cfg ctx)
    (hp : IsPacket ctx 0 p) (hest : state.establishing p = true) :
    state.context cfg p = contextOf ctx := by
  obtain ⟨haddr, hkey, hlen⟩ := hp.reth rfl
  have hcount : ((packetCountForMessage ctx.len cfg.pmtu).setWidth 24 : BitVec 24) =
      BitVec.ofNat 24 ctx.packets := by
    rw [← hr.packetCount, BitVec.ofNat_toNat]
  have hpsn : p.psn = ctx.startPsn := by
    rw [hp.psn]
    simp
  simp only [RxRqState.context, if_pos hest, contextOf, hpsn, haddr, hkey, hlen, hcount]

/-- **A packet of the message is judged by the message**, once a message is open or the packet opens
it. -/
theorem Reassembly.context_eq (hi : Reassembly m₀ h₀ ctx ds qp m h n as) (h0 : RqInv m₀ h₀)
    (ha : Awaits m₀ qp ctx) (hp : IsPacket ctx k p)
    (hwin : windowOffset (m.states qp).ackPsn p.psn < 16)
    (hopen : (m.states qp).contextValid = true ∨ (m.states qp).establishing p = true) :
    (m.states qp).context (m.cfgs qp) p = contextOf ctx ∧ n < ctx.packets := by
  have hk := hi.index_eq h0 ha hp hwin
  have hlt := hp.lt
  have hopens : (m.states qp).contextValid = false → (m.states qp).establishing p = true ∧
      k = 0 := by
    intro hclosed
    have hest := hopen.resolve_left (by rw [hclosed]; exact Bool.false_ne_true)
    have hfirst : p.first = true := by
      simp only [RxRqState.establishing, Bool.and_eq_true] at hest
      exact hest.1.2
    rw [hp.first] at hfirst
    exact ⟨hest, of_decide_eq_true hfirst⟩
  rcases hi.stage with ⟨hclosed, hzero⟩ | ⟨hvalid, hstored, hn⟩ | ⟨hclosed, hall⟩
  · obtain ⟨hest, rfl⟩ := hopens hclosed
    exact ⟨context_of_establishing (by rw [hi.cfgs]; exact ha.receives) hp hest, by omega⟩
  · have hest : (m.states qp).establishing p = false := by
      simp [RxRqState.establishing, hvalid]
    refine ⟨?_, hn⟩
    rw [RxRqState.context, hest]
    exact hstored
  · obtain ⟨-, rfl⟩ := hopens hclosed
    omega

lemma Reassembly.judged_context (hi : Reassembly m₀ h₀ ctx ds qp m h n as) (h0 : RqInv m₀ h₀)
    (ha : Awaits m₀ qp ctx) (hp : IsPacket ctx k p) (hj : m.Judged qp p) :
    (m.states qp).context (m.cfgs qp) p = contextOf ctx ∧ n < ctx.packets := by
  have hbelongs := hj.belongs
  simp only [RxRqState.belongs, Bool.and_eq_true, Bool.or_eq_true] at hbelongs
  exact hi.context_eq h0 ha hp (rxPsnInWindow_iff.1 hj.inWindow) hbelongs.1.1

/-! ## A packet is admitted -/

/-- What was admitted before the message was acknowledged. -/
lemma Awaits.old_lt (ha : Awaits m₀ qp ctx) (h0 : RqInv m₀ h₀) {x : ℕ} (hx : x ∈ h₀.positions qp) :
    x < h₀.acked qp := by
  have hmem := ((h0.exact qp ha.valid).mem_positions x).1 hx
  rw [ha.received] at hmem
  simpa using hmem

section Positions

variable (hw : WindowExact m h qp) (h0 : RqInv m₀ h₀) (ha : Awaits m₀ qp ctx)
  (hon : h.on qp = h₀.on qp ++ as) (hacked : h.acked qp = h₀.acked qp + n)
include hw h0 ha hon hacked

/-- The packets of the message that have been admitted, in the window. -/
lemma admitted_iff (k : ℕ) : h₀.acked qp + k ∈ as.map (·.position) ↔
    k < n ∨ n ≤ k ∧ (m.states qp).receiveBitmap.getLsbD (k - n) = true := by
  have hmem := hw.mem_positions (h₀.acked qp + k)
  have hsplit : h.positions qp = h₀.positions qp ++ as.map (·.position) := by
    rw [RqHistory.positions, hon, List.map_append]
    rfl
  have hold : h₀.acked qp + k ∉ h₀.positions qp := by
    intro hx
    have := ha.old_lt h0 hx
    omega
  rw [hsplit, List.mem_append, or_iff_right hold, hacked, Nat.add_sub_add_left] at hmem
  rw [hmem, Nat.add_lt_add_iff_left, Nat.add_le_add_iff_left]

/-- Only as many packets are acknowledged as the message has. -/
lemma acked_le (hplaced : ∀ a ∈ as, ∃ k, PlacedAt (m₀.cfgs qp) ctx ds (h₀.acked qp) a k) :
    n ≤ ctx.packets := by
  by_contra hgt
  obtain ⟨a, hmem, hpos⟩ := List.mem_map.1
    ((admitted_iff hw h0 ha hon hacked ctx.packets).2 (.inl (not_le.1 hgt)))
  obtain ⟨k, hk⟩ := hplaced a hmem
  have hlt := hk.isPacket.lt
  rw [hk.position] at hpos
  omega

/-- **Every packet has been admitted exactly if every packet is acknowledged.** -/
lemma allAdmitted_iff (hle : n ≤ ctx.packets) :
    AllAdmitted ctx (h₀.acked qp) as ↔ n = ctx.packets := by
  constructor
  · intro hall
    by_contra hne
    rcases (admitted_iff hw h0 ha hon hacked n).1 (hall n (by omega)) with hlt | ⟨-, hbit⟩
    · exact absurd hlt (lt_irrefl n)
    · rw [Nat.sub_self, hw.bitZero] at hbit
      cases hbit
  · rintro rfl k hk
    exact (admitted_iff hw h0 ha hon hacked k).2 (.inl hk)

end Positions

/-- The message is complete once the window has moved over its last packet. -/
lemma messageComplete_iff {cfg : RxQpConfig} {state : RxRqState} {d : ℕ} (hr : Receives cfg ctx)
    (hctx : state.context cfg p = contextOf ctx)
    (hnext : state.ackPsn + 1 = ctx.startPsn + BitVec.ofNat 24 n) (hlt : n < ctx.packets)
    (hd : d ≤ 16) (hmerge : (state.merge p.psn).2 = state.ackPsn + BitVec.ofNat 24 d)
    (hle : n + d ≤ ctx.packets) : state.messageComplete cfg p = true ↔ n + d = ctx.packets := by
  have hpackets := hr.packets_lt
  have hlast : (state.merge p.psn).2 - (contextOf ctx).last =
      BitVec.ofNat 24 (n + d) - BitVec.ofNat 24 ctx.packets := by
    have hack : state.ackPsn = ctx.startPsn + BitVec.ofNat 24 n - 1 := by
      rw [← hnext]
      ring
    rw [hmerge, hack, contextOf, BitVec.ofNat_add]
    ring
  have hmoves : state.ackValid p.psn = true ↔ d ≠ 0 := by
    rw [RxRqState.ackValid, hmerge, bne_iff_ne, Ne, add_eq_left, ← BitVec.toNat_inj]
    simp only [BitVec.toNat_ofNat, BitVec.ofNat_eq_ofNat]
    omega
  rw [RxRqState.messageComplete, Bool.and_eq_true, hmoves, rxPsnAtOrAfter_iff, hctx, hlast]
  simp only [BitVec.toNat_sub, BitVec.toNat_ofNat]
  omega

namespace Reassembly

variable (hi : Reassembly m₀ h₀ ctx ds qp m h n as)

include hi

/-- A packet of the message is written to its place. -/
lemma admission_placed (h0 : RqInv m₀ h₀) (ha : Awaits m₀ qp ctx) (hp : IsPacket ctx k p)
    (hd : ∃ d, ds[k]? = some d ∧ Carries d p) (hj : m.Judged qp p) :
    PlacedAt (m₀.cfgs qp) ctx ds (h₀.acked qp) (m.admission qp p (h.acked qp)) k where
  described := hd
  isPacket := hp
  position := by
    rw [hi.index_eq h0 ha hp (rxPsnInWindow_iff.1 hj.inWindow), ← Nat.add_assoc, ← hi.acked]
    rfl
  dmaAddr := by
    have hphysical := physical_contextOf ha.receives hp
    show (((m.states qp).context (m.cfgs qp) p).physical (m.cfgs qp) p).toNat = _
    rw [(hi.judged_context h0 ha hp hj).1, hi.cfgs, hphysical]
    rfl
  payloadBytes := hp.payloadBytes

/-- **A packet of the message is admitted**: the message is then open, or complete if this was the
last packet missing. -/
theorem accept (h0 : RqInv m₀ h₀) (ha : Awaits m₀ qp ctx) (hp : IsPacket ctx k p)
    (hd : ∃ d, ds[k]? = some d ∧ Carries d p) (hj : m.Judged qp p) (hrunning : m'.running = true)
    (hcfgs : m'.cfgs = m.cfgs) (hwindow : RqInv m' h') (hholds : m'.HoldsOnly (Described ctx ds))
    (hstates : m'.states = update m.states qp ((m.states qp).accept (m.cfgs qp) p))
    (hh : h' = m.record p h (.accept qp)) :
    ∃ n', Reassembly m₀ h₀ ctx ds qp m' h' n' (as ++ [m.admission qp p (h.acked qp)]) := by
  obtain ⟨hctx, hlt⟩ := hi.judged_context h0 ha hp hj
  have hplace := hi.admission_placed h0 ha hp hd hj
  obtain ⟨d, hd16, hmerge, hdist, -⟩ := (m.states qp).merge_spec (rxPsnInWindow_iff.1 hj.inWindow)
  have hon : h'.on qp = h₀.on qp ++ (as ++ [m.admission qp p (h.acked qp)]) := by
    rw [← List.append_assoc, ← hi.on, hh]
    simp [RxRqBitmapManager.record, RqHistory.on, RxRqBitmapManager.admission, RxRqState.admitted]
  have hacked : h'.acked qp = h₀.acked qp + (n + d) := by
    rw [hh, ← Nat.add_assoc, ← hi.acked]
    simp [RxRqBitmapManager.record, RxRqBitmapManager.admission, hdist]
  have hplaced : ∀ a ∈ as ++ [m.admission qp p (h.acked qp)],
      ∃ k, PlacedAt (m₀.cfgs qp) ctx ds (h₀.acked qp) a k := by
    intro a hmem
    rcases List.mem_append.1 hmem with hmem | hmem
    · exact hi.placed a hmem
    · rw [List.mem_singleton.1 hmem]
      exact ⟨k, hplace⟩
  have hexact : WindowExact m' h' qp := hwindow.exact qp (by rw [hcfgs, hi.cfgs]; exact ha.valid)
  have hle : n + d ≤ ctx.packets := acked_le hexact h0 ha hon hacked hplaced
  have hcomplete : (m.states qp).messageComplete (m.cfgs qp) p = true ↔ n + d = ctx.packets :=
    messageComplete_iff (by rw [hi.cfgs]; exact ha.receives) hctx
      (hi.ackPsn_succ h0 ha) hlt hd16 hmerge hle
  refine ⟨n + d, hrunning, hcfgs.trans hi.cfgs, hwindow, hholds, hon, hacked, hle, ?_, hplaced,
    ?_, ?_⟩
  · have hstored : ((m.states qp).accept (m.cfgs qp) p).stored = contextOf ctx := by
      rw [← hctx, ← RxRqState.opened_stored]
      rfl
    have hvalid : ((m.states qp).accept (m.cfgs qp) p).contextValid =
        !(m.states qp).messageComplete (m.cfgs qp) p := by
      rw [RxRqState.accept, RxRqState.opened_contextValid hj.belongs, Bool.true_and]
    rw [hstates, update_self]
    by_cases hall : n + d = ctx.packets
    · exact .complete (by rw [hvalid, hcomplete.2 hall]; rfl) hall
    · refine .underway ?_ hstored (by omega)
      rw [hvalid, Bool.not_eq_true', Bool.eq_false_iff]
      exact fun h => hall (hcomplete.1 h)
  · exact eachAfter_concat.2
      ⟨hi.complete, hcomplete.trans (allAdmitted_iff hexact h0 ha hon hacked hle).symm⟩
  · obtain ⟨rs, hrs, hother⟩ := hi.rejections
    exact ⟨rs, by rw [hh]; exact hrs, hother⟩

/-! ## Firings -/

/-- A firing that changes neither the state of the queue pair nor what it has admitted. -/
lemma stays (hrunning : m'.running = true) (hcfgs : m'.cfgs = m.cfgs) (hwindow : RqInv m' h')
    (hholds : m'.HoldsOnly (Described ctx ds)) (hstate : m'.states qp = m.states qp)
    (hon : h'.on qp = h.on qp) (hacked : h'.acked qp = h.acked qp)
    (hrejected : ∃ rs, h'.rejections = h.rejections ++ rs ∧ ∀ x ∈ rs, x.1.qpn ≠ ctx.destQpn) :
    Reassembly m₀ h₀ ctx ds qp m' h' n as where
  running := hrunning
  cfgs := hcfgs.trans hi.cfgs
  window := hwindow
  holds := hholds
  on := hon.trans hi.on
  acked := hacked.trans hi.acked
  le := hi.le
  stage := by rw [hstate]; exact hi.stage
  placed := hi.placed
  complete := hi.complete
  rejections := by
    obtain ⟨rs, hrs, hother⟩ := hi.rejections
    obtain ⟨rs', hrs', hother'⟩ := hrejected
    refine ⟨rs ++ rs', by rw [hrs', hrs, List.append_assoc], ?_⟩
    intro x hx
    exact (List.mem_append.1 hx).elim (hother x) (hother' x)

/-- The manager does not fail on a packet of the message. -/
lemma rejections_other (h0 : RqInv m₀ h₀)
    (ha : Awaits m₀ qp ctx) (hds : DescribesAll ctx ds) (hs : m.processCandidate = some m') :
    ∃ rs, (m.observe .processCandidate h).rejections = h.rejections ++ rs ∧
      ∀ x ∈ rs, x.1.qpn ≠ ctx.destQpn := by
  rcases RxRqBitmapManager.observe_rejections (h := h) hs with hsame |
    ⟨q, p, code, hmem, hj, hfails, hadds⟩
  · exact ⟨[], by rw [hsame, List.append_nil], by simp⟩
  refine ⟨[(p, code)], hadds, ?_⟩
  intro x hx hqpn
  rw [List.mem_singleton.1 hx] at hqpn
  obtain ⟨k, hp, -⟩ := hds.isPacket (hi.holds.2.1 p hmem) hqpn
  have hr : Receives (m.cfgs qp) ctx := by
    rw [hi.cfgs]
    exact ha.receives
  obtain rfl : qp = q := hj.only qp (by rw [hi.cfgs]; exact ha.valid) (hr.qpn.trans hqpn.symm)
  rw [(hi.judged_context h0 ha hp hj).1, access_contextOf hr, segment_contextOf hr hp] at hfails
  rcases hfails with h | h <;> cases h

/-- **Every firing keeps the message under way.** -/
theorem step (h0 : RqInv m₀ h₀) (ha : Awaits m₀ qp ctx)
    (hds : DescribesAll ctx ds) {l : RqLabel} (hin : ∀ p ∈ l.arrives, Described ctx ds p)
    (hs : m.step l = some m') : ∃ n' as', Reassembly m₀ h₀ ctx ds qp m' (m.observe l h) n' as' := by
  obtain ⟨hrunning, hcfgs, hstates⟩ := RxRqBitmapManager.step_running hs hi.running
  have hwindow := hi.window.step hs
  have hholds := hi.holds.step hs hi.running hin
  by_cases hl : l = .processCandidate
  · subst hl
    have hrejected := hi.rejections_other h0 ha hds hs
    rcases RxRqBitmapManager.processCandidate_cases (h := h) hs with
      ⟨hsame, hadmissions, hacked⟩ | ⟨q, p, hfirst, hadmits, hmoved, hobs⟩
    · exact ⟨n, as, hi.stays hrunning hcfgs hwindow hholds (by rw [hsame])
        (by rw [RqHistory.on, hadmissions]; rfl) (by rw [hacked]) hrejected⟩
    · by_cases hq : qp = q
      · subst hq
        have hqpn : p.qpn = ctx.destQpn := by
          rw [← hadmits.qpn, hi.cfgs, ha.receives.qpn]
        obtain ⟨k, hp, hd⟩ := hds.isPacket (hi.holds.2.1 p (List.mem_of_mem_head? hfirst)) hqpn
        obtain ⟨n', hnext⟩ :=
          hi.accept h0 ha hp hd hadmits.toJudged hrunning hcfgs hwindow hholds hmoved hobs
        exact ⟨n', _, hnext⟩
      · refine ⟨n, as, hi.stays hrunning hcfgs hwindow hholds ?_ ?_ ?_ hrejected⟩
        · rw [hmoved, update_of_ne hq]
        · rw [hobs]
          simp [RxRqBitmapManager.record, RqHistory.on, RxRqBitmapManager.admission,
            RxRqState.admitted, Ne.symm hq]
        · rw [hobs]
          exact update_of_ne hq _ _
  · obtain ⟨out, hobs⟩ := RxRqBitmapManager.observe_of_ne (m := m) (h := h) hl
    rw [hobs] at hwindow ⊢
    exact ⟨n, as, hi.stays hrunning hcfgs hwindow hholds (by rw [hstates hl]) rfl rfl
      ⟨[], by simp, by simp⟩⟩

omit hi

/-- The message is expected. -/
lemma start (h0 : RqInv m₀ h₀) (ha : Awaits m₀ qp ctx) : Reassembly m₀ h₀ ctx ds qp m₀ h₀ 0 [] where
  running := ha.running
  cfgs := rfl
  window := h0
  holds := ha.holds.mono fun p hne hqpn => absurd hqpn hne
  on := (List.append_nil _).symm
  acked := rfl
  le := Nat.zero_le _
  stage := .waiting ha.closed rfl
  placed := by simp
  complete := eachAfter_nil
  rejections := ⟨[], (List.append_nil _).symm, by simp⟩

/-- What holds after any run in which only packets of the message arrive for its queue pair. -/
theorem run (h0 : RqInv m₀ h₀) (ha : Awaits m₀ qp ctx) (hds : DescribesAll ctx ds)
    {ls : List RqLabel} (hin : ∀ l ∈ ls, ∀ p ∈ l.arrives, Described ctx ds p)
    (hrun : fire rqStep (m₀, h₀) ls = some (m, h)) :
    ∃ n as, Reassembly m₀ h₀ ctx ds qp m h n as := by
  refine fire_rule_labels
    (P := fun s : RxRqBitmapManager × RqHistory => ∃ n as, Reassembly m₀ h₀ ctx ds qp s.1 s.2 n as)
    ?_ ⟨0, [], start h0 ha⟩ hin hrun
  rintro ⟨m, h⟩ l ⟨m', h'⟩ ⟨n, as, hi⟩ hin hs
  obtain ⟨hstep, hobs⟩ := watched_eq_some.1 hs
  dsimp only at hstep hobs ⊢
  rw [hobs]
  exact hi.step h0 ha hds hin hstep

end Reassembly

/-! ## A new packet of an open message is admitted -/

/-- A test that holds for one queue pair only finds it. -/
lemma countMatches_of_only : ∀ {test : RxQpIndex → Bool} {q : RxQpIndex},
    (∀ i, test i = true ↔ i = q) → countMatches test = (1, q) := by
  decide

lemma belongs_contextOf {cfg : RxQpConfig} {state : RxRqState} (hr : Receives cfg ctx)
    (hp : IsPacket ctx k p) (hctx : state.context cfg p = contextOf ctx)
    (hopen : state.contextValid = true ∨ state.establishing p = true) :
    state.belongs cfg p = true := by
  have hlt := hr.packets_lt
  have hk := hp.lt
  have hlast :
      (contextOf ctx).last - p.psn = BitVec.ofNat 24 ctx.packets - BitVec.ofNat 24 (k + 1) := by
    rw [hp.psn, contextOf, BitVec.ofNat_add, show BitVec.ofNat 24 1 = 1 from rfl]
    ring
  simp only [RxRqState.belongs, Bool.and_eq_true, Bool.or_eq_true, Bool.not_eq_true', hctx,
    psn_sub_start hp, rxPsnAtOrAfter_iff, hlast]
  refine ⟨⟨hopen, ?_⟩, ?_⟩
  · simp only [BitVec.msb_eq_decide, BitVec.toNat_ofNat, decide_eq_false_iff_not]
    omega
  · simp only [BitVec.toNat_sub, BitVec.toNat_ofNat]
    omega

/-- **A new packet of the message is admitted**, if it is the first one or the message is open. -/
theorem Reassembly.judge_eq_accept (hi : Reassembly m₀ h₀ ctx ds qp m h n as) (h0 : RqInv m₀ h₀)
    (ha : Awaits m₀ qp ctx) (hp : IsPacket ctx k p) (hfresh : m.Fresh qp p)
    (hopen : p.first = true ∨ (m.states qp).contextValid = true) : m.judge p = .accept qp := by
  have hwin := rxPsnInWindow_iff.1 hfresh.inWindow
  have hk := hi.index_eq h0 ha hp hwin
  have hr : Receives (m.cfgs qp) ctx := by
    rw [hi.cfgs]
    exact ha.receives
  have hopens : (m.states qp).contextValid = true ∨ (m.states qp).establishing p = true := by
    cases hclosed : (m.states qp).contextValid with
    | true => exact .inl rfl
    | false =>
      -- the first packet is in the window only if it is the next one expected
      have hfirst : p.first = true :=
        hopen.resolve_right (by rw [hclosed]; exact Bool.false_ne_true)
      have hzero : k = 0 := by
        rw [hp.first] at hfirst
        exact of_decide_eq_true hfirst
      have hpsn := psn_eq_windowOffset (m.states qp).ackPsn p.psn
      rw [show windowOffset (m.states qp).ackPsn p.psn = 0 by omega, BitVec.ofNat_eq_ofNat,
        BitVec.add_zero] at hpsn
      exact .inr (by rw [RxRqState.establishing, hclosed, hfirst, hpsn]; simp)
  obtain ⟨hctx, -⟩ := hi.context_eq h0 ha hp hwin hopens
  have hmatch : m.matchCount p.qpn = (1, qp) := by
    refine countMatches_of_only fun i => ⟨fun h => ?_, ?_⟩
    · simp only [Bool.and_eq_true, beq_iff_eq] at h
      exact hfresh.only i h.1 h.2
    · rintro rfl
      simp [hfresh.valid, hfresh.qpn]
  have hold : rxPsnBefore p.psn ((m.states qp).ackPsn + 1) = false := by
    rw [Bool.eq_false_iff, Ne, rxPsnBefore_iff]
    omega
  simp only [RxRqBitmapManager.judge, hmatch, hold, hfresh.inWindow, hfresh.notReceived,
    hfresh.notParked, belongs_contextOf hr hp hctx hopens, hctx, access_contextOf hr,
    segment_contextOf hr hp]
  rfl

end

/-! ## The ranges that are written -/

/-- The bytes of memory that an admitted packet is written to. -/
def RxAdmittedPacket.range (a : RxAdmittedPacket) : Set ℕ :=
  Set.Ico a.dmaAddr.toNat (a.dmaAddr.toNat + a.payloadBytes.toNat)

/-- Every byte of the message is in the range of an admitted packet. -/
def Covers (cfg : RxQpConfig) (ctx : MessageContext) (as : List RqAdmission) : Prop :=
  Set.Ico (messageBase cfg ctx) (messageBase cfg ctx + ctx.len.toNat) ⊆ ⋃ a ∈ as, a.admitted.range

section Ranges

variable {cfg : RxQpConfig} {ctx : MessageContext} {ds : List PacketDescriptor} {base : ℕ}
  {as : List RqAdmission}

lemma PlacedAt.mem_range {a : RqAdmission} {k : ℕ} (hk : PlacedAt cfg ctx ds base a k) (x : ℕ) :
    x ∈ a.admitted.range ↔
      messageBase cfg ctx + ctx.offset k ≤ x ∧
      x < messageBase cfg ctx + ctx.offset k + ctx.bytes k := by
  rw [RxAdmittedPacket.range, Set.mem_Ico, hk.dmaAddr, hk.payloadBytes]

/-- A byte is in one packet only. -/
lemma packet_unique (hr : Receives cfg ctx) {start j k x : ℕ} (hj : j < ctx.packets)
    (hk : k < ctx.packets) (hxj : start + ctx.offset j ≤ x ∧ x < start + ctx.offset j + ctx.bytes j)
    (hxk : start + ctx.offset k ≤ x ∧ x < start + ctx.offset k + ctx.bytes k) : j = k := by
  have apart : ∀ {i l : ℕ}, i < ctx.packets → i < l → ctx.offset i + ctx.bytes i ≤ ctx.offset l :=
    fun hi h => segments_apart h (offset_lt hr hi).le
  rcases lt_trichotomy j k with hlt | heq | hgt
  · have := apart hj hlt
    omega
  · exact heq
  · have := apart hk hgt
    omega

/-- **The ranges cover the message exactly if every packet has been admitted.** -/
theorem covers_iff (hr : Receives cfg ctx) (hplaced : ∀ a ∈ as, ∃ k, PlacedAt cfg ctx ds base a k) :
    Covers cfg ctx as ↔ AllAdmitted ctx base as := by
  obtain ⟨hF, -, hC, -⟩ := MessageContext.limits hr.accepted.pmtu
  constructor
  · intro hcovers k hk
    -- the first byte of packet `k` is written by that packet
    have hoff := offset_lt hr hk
    have hpos : 0 < ctx.bytes k := segBytes_pos (by omega) (by omega) hoff
    have hmem := hcovers (show messageBase cfg ctx + ctx.offset k ∈ _ from ⟨by omega, by omega⟩)
    simp only [Set.mem_iUnion] at hmem
    obtain ⟨a, ha, hx⟩ := hmem
    obtain ⟨j, hj⟩ := hplaced a ha
    have hjk := packet_unique hr hj.isPacket.lt hk ((hj.mem_range _).1 hx) ⟨le_rfl, by omega⟩
    exact List.mem_map.2 ⟨a, ha, by rw [hj.position, hjk]⟩
  · intro hall x hx
    rw [Set.mem_Ico] at hx
    have hsegment : ∃ k < ctx.packets, ctx.offset k ≤ x - messageBase cfg ctx ∧
        x - messageBase cfg ctx < ctx.offset k + ctx.bytes k := exists_segment (by omega) (by omega)
    obtain ⟨k, hk, hle, hlt⟩ := hsegment
    obtain ⟨a, ha, hpos⟩ := List.mem_map.1 (hall k hk)
    obtain ⟨j, hj⟩ := hplaced a ha
    obtain rfl : j = k := by
      rw [hj.position] at hpos
      omega
    simp only [Set.mem_iUnion]
    exact ⟨a, ha, (hj.mem_range x).2 ⟨by omega, by omega⟩⟩

/-- Packets at different places are written to disjoint ranges. -/
lemma ranges_disjoint (hr : Receives cfg ctx)
    (hplaced : ∀ a ∈ as, ∃ k, PlacedAt cfg ctx ds base a k) (hnodup : (as.map (·.position)).Nodup) :
    as.Pairwise fun a b => Disjoint a.admitted.range b.admitted.range := by
  refine (List.pairwise_map.1 hnodup).imp_of_mem ?_
  intro a b ha hb hne
  obtain ⟨j, hj⟩ := hplaced a ha
  obtain ⟨k, hk⟩ := hplaced b hb
  rw [Set.disjoint_left]
  intro x hxa hxb
  have hjk := packet_unique hr hj.isPacket.lt hk.isPacket.lt ((hj.mem_range x).1 hxa)
    ((hk.mem_range x).1 hxb)
  exact hne (by rw [hj.position, hk.position, hjk])

end Ranges

/-! ## Once -/

section Once

variable {α : Type} {Full : List α → Prop} {c : α → Bool} {l : List α}

/-- Nothing is marked before the list is full. -/
lemma countP_eq_zero_of_not_full (hmono : ∀ as bs, Full as → Full (as ++ bs))
    (heach : EachAfter (fun before a => c a = true ↔ Full (before ++ [a])) l) (hnot : ¬ Full l) :
    l.countP c = 0 := by
  rw [List.countP_eq_zero]
  intro a ha hca
  obtain ⟨before, after, rfl⟩ := List.append_of_mem ha
  refine hnot ?_
  have hfull := hmono _ after ((heach before a after rfl).1 hca)
  rwa [List.append_assoc] at hfull

/-- The element that makes the list full is the only one that is marked. -/
lemma countP_eq_one_of_full (hmono : ∀ as bs, Full as → Full (as ++ bs))
    (heach : EachAfter (fun before a => c a = true ↔ Full (before ++ [a])) l) (hempty : ¬ Full [])
    (hstop : EachAfter (fun before _ => ¬ Full before) l) (hfull : Full l) : l.countP c = 1 := by
  rcases List.eq_nil_or_concat' l with rfl | ⟨init, a, rfl⟩
  · exact absurd hfull hempty
  · obtain ⟨hinit, ha⟩ := eachAfter_concat.1 heach
    obtain ⟨-, hnot⟩ := eachAfter_concat.1 hstop
    rw [List.countP_append, countP_eq_zero_of_not_full hmono hinit hnot, List.countP_singleton,
      if_pos (ha.2 hfull)]

end Once

section Completion

variable {cfg : RxQpConfig} {ctx : MessageContext} {ds : List PacketDescriptor} {base : ℕ}
  {as : List RqAdmission}

lemma Covers.append (hcovers : Covers cfg ctx as) (bs : List RqAdmission) :
    Covers cfg ctx (as ++ bs) := by
  intro x hx
  have hmem := hcovers hx
  simp only [Set.mem_iUnion] at hmem ⊢
  obtain ⟨a, ha, hxa⟩ := hmem
  exact ⟨a, List.mem_append_left bs ha, hxa⟩

lemma not_covers_nil (hr : Receives cfg ctx) : ¬ Covers cfg ctx [] := by
  intro hcovers
  have hpos := hr.accepted.pos
  have hmem := hcovers (show messageBase cfg ctx ∈ _ from ⟨le_rfl, by omega⟩)
  simp at hmem

/-- Nothing is admitted once the message is covered. -/
lemma not_covers_before (hr : Receives cfg ctx)
    (hplaced : ∀ a ∈ as, ∃ k, PlacedAt cfg ctx ds base a k) (hnodup : (as.map (·.position)).Nodup) :
    EachAfter (fun before _ => ¬ Covers cfg ctx before) as := by
  rintro before a after rfl hcovers
  have hall := (covers_iff hr fun b hb => hplaced b (List.mem_append_left _ hb)).1 hcovers
  obtain ⟨k, hk⟩ := hplaced a (by simp)
  have hmem := hall k hk.isPacket.lt
  rw [← hk.position] at hmem
  rw [List.map_append, List.map_cons, List.nodup_append] at hnodup
  exact hnodup.2.2 _ hmem _ List.mem_cons_self rfl

end Completion

/-! ## Every run -/

/-- **Reassembly inverts segmentation.**  The packetizer has described a legacy message — what it
describes is what it hands out — and in a state the manager can reach the queue pair expects the
message.  In every further run in which only described packets arrive for the queue pair, in any
order and any number of times, the manager never fails on one of them; each packet it admits is
written at its offset in the message; the ranges written are disjoint; and the message is marked
complete by the packet after which they cover it, and by no other.  A new packet in the window is
admitted if it is the first one or the message is open. -/
theorem reassembly_exact {e : PacketAssemblyEngine} {t : PacketHistory} {txRun : List TxLabel}
    (htx : fire packetStep (.initial, ⟨[], [], []⟩) txRun = some (e, t)) {ctx : MessageContext}
    {ds : List PacketDescriptor} (hmessage : (ctx, ds) ∈ t.messages)
    {packets : RxQpIndex → RxWindowIndex → RxParsedPacket} {age : RxQpIndex → RxWindowIndex →
      BitVec 8}
    {before ls : List RqLabel} {m₀ m : RxRqBitmapManager} {h₀ h : RqHistory} {qp : RxQpIndex}
    (hreach : fire rqStep (.initial packets age, .empty) before = some (m₀, h₀))
    (ha : Awaits m₀ qp ctx)
    (hin : ∀ lane p, RqLabel.packetIn lane p ∈ ls → p.qpn = ctx.destQpn → ∃ d ∈ ds, Carries d p)
    (hrun : fire rqStep (m₀, h₀) ls = some (m, h)) :
    t.out ++ e.descriptorQ.elems = t.messages.flatMap Prod.snd ++ t.current ∧
    ∃ rejected as, h.rejections = h₀.rejections ++ rejected ∧ h.on qp = h₀.on qp ++ as ∧
      (∀ x ∈ rejected, x.1.qpn ≠ ctx.destQpn) ∧
      (∀ a ∈ as, ∃ d ∈ ds, Carries d a.packet ∧ a.admitted.payloadBytes = d.payloadLength ∧
        a.admitted.dmaAddr.toNat = (m₀.cfgs qp).physicalBase.toNat +
          (ctx.remoteAddr.toNat - (m₀.cfgs qp).virtualBase.toNat) + d.messageOffset.toNat) ∧
      (as.Pairwise fun a b => Disjoint a.admitted.range b.admitted.range) ∧
      EachAfter (fun before a =>
        a.admitted.messageComplete = true ↔ Covers (m₀.cfgs qp) ctx (before ++ [a])) as ∧
      (¬ Covers (m₀.cfgs qp) ctx as → as.countP (·.admitted.messageComplete) = 0) ∧
      (Covers (m₀.cfgs qp) ctx as → as.countP (·.admitted.messageComplete) = 1) ∧
      ∀ p, (∃ d ∈ ds, Carries d p) → m.Fresh qp p →
        p.first = true ∨ (m.states qp).contextValid = true → m.judge p = .accept qp := by
  have h0 : RqInv m₀ h₀ :=
    RqInv.run (s := (.initial packets age, .empty)) (RqInv.initial packets age) hreach
  obtain ⟨-, hds⟩ := messages_complete htx hmessage
  have hr := ha.receives
  have harrives : ∀ l ∈ ls, ∀ p ∈ l.arrives, Described ctx ds p := by
    intro l hl p hp
    cases l with
    | packetIn lane packet =>
      obtain rfl := List.mem_singleton.1 hp
      exact hin lane p hl
    | _ => cases hp
  obtain ⟨n, as, hi⟩ := Reassembly.run h0 ha hds harrives hrun
  obtain ⟨rejected, hrejected, hother⟩ := hi.rejections
  have hnodup : (as.map (·.position)).Nodup := by
    have hall := (hi.window.exact qp (by rw [hi.cfgs]; exact ha.valid)).nodup
    rw [RqHistory.positions, hi.on, List.map_append, List.nodup_append] at hall
    exact hall.2.1
  have heach : EachAfter (fun before a =>
      a.admitted.messageComplete = true ↔ Covers (m₀.cfgs qp) ctx (before ++ [a])) as := by
    intro done a rest hsplit
    have hplaced : ∀ b ∈ done ++ [a], ∃ k, PlacedAt (m₀.cfgs qp) ctx ds (h₀.acked qp) b k := by
      intro b hb
      refine hi.placed b ?_
      rw [hsplit, List.append_cons]
      exact List.mem_append_left rest hb
    exact (hi.complete done a rest hsplit).trans (covers_iff hr hplaced).symm
  refine ⟨described_out htx, rejected, as, hrejected, hi.on, hother, ?_,
    ranges_disjoint hr hi.placed hnodup, heach, ?_, ?_, ?_⟩
  · intro a hmem
    obtain ⟨k, hk⟩ := hi.placed a hmem
    obtain ⟨d, hd, hcarries⟩ := hk.described
    have hdescribes := hds k d hd
    refine ⟨d, List.mem_of_getElem? hd, hcarries, ?_, ?_⟩
    · exact BitVec.eq_of_toNat_eq (hk.payloadBytes.trans hdescribes.payloadLength.symm)
    · rw [hk.dmaAddr, hdescribes.messageOffset]
      rfl
  · exact countP_eq_zero_of_not_full (fun _ bs hcovers => hcovers.append bs) heach
  · exact countP_eq_one_of_full (fun _ bs hcovers => hcovers.append bs) heach (not_covers_nil hr)
      (not_covers_before hr hi.placed hnodup)
  · rintro p ⟨d, hmem, hcarries⟩ hfresh hopen
    obtain ⟨k, hk⟩ := List.mem_iff_getElem?.1 hmem
    exact hi.judge_eq_accept h0 ha ((hds k d hk).isPacket hcarries) hfresh hopen

/-- A message of 300 bytes to the queue pair of `wrapConfig`. -/
def wrapMessage : MessageContext where
  requestId := 3
  qpn := 9
  destQpn := 7
  slotId := 0
  debugSeq := 0
  pmtu := 0
  startPsn := 0xFFFFFF
  psnCount := 2
  remoteAddr := 0x1000
  remoteKey := 5
  len := 300
  wireProfile := .legacyPrivate
  evProfileId := 0
  mrcMsn := 0
  mrcMsnValid := false

/-- The packetizer cuts the message in two. -/
def wrapTxRun : List TxLabel :=
  [.contextIn wrapMessage, .startMessage, .emitDescriptor, .emitPayload, .emitPayload,
    .descriptorOut, .payloadOut, .payloadOut, .emitDescriptor, .emitPayload, .finishMessage]

def wrapFirst : PacketDescriptor where
  requestId := 3
  qpn := 9
  destQpn := 7
  slotId := 0
  debugSeq := 0
  pmtu := 0
  psn := 0xFFFFFF
  packetIndex := 0
  packetCount := 2
  opcode := .writeFirst
  remoteAddr := 0x1000
  remoteKey := 5
  messageOffset := 0
  payloadLength := 228
  messageLength := 300
  isFirst := true
  isLast := false
  trafficClass := .first
  wireProfile := .legacyPrivate
  evProfileId := 0
  mrcMsn := 0
  mrcMsnValid := false

def wrapLast : PacketDescriptor :=
  { wrapFirst with
    psn := 0
    packetIndex := 1
    opcode := .writeLast
    remoteAddr := 0x10E4
    messageOffset := 228
    payloadLength := 72
    isFirst := false
    isLast := true }

lemma wrapTxRun_messages :
    (fire packetStep (.initial, ⟨[], [], []⟩) wrapTxRun).map (fun s => s.2.messages) =
      some [(wrapMessage, [wrapFirst, wrapLast])] := by
  decide +kernel

/-- The manager configured with one queue pair, and started. -/
def startedWith (cfg : RxQpConfig) : RxRqBitmapManager :=
  { RxRqBitmapManager.initial (fun _ _ => default) (fun _ _ => 0) with
    running := true
    cfgs := update (fun _ => default) 0 cfg
    states := update (fun _ => default) 0 (.init cfg.initialPsn)
    pendingValid := update (fun _ => 0) 0 0 }

lemma carries_firstOfTwo : Carries wrapFirst firstOfTwo :=
  ⟨rfl, rfl, rfl, rfl, rfl, fun _ => ⟨rfl, rfl, rfl⟩⟩

lemma carries_lastOfTwo : Carries wrapLast lastOfTwo := ⟨rfl, rfl, rfl, rfl, rfl, nofun⟩

lemma wrapConfig_awaits : Awaits (startedWith wrapConfig) 0 wrapMessage where
  running := rfl
  valid := rfl
  receives := by
    constructor <;> first | decide | exact ⟨by decide, by decide, by decide⟩
  next := by decide
  closed := rfl
  received := rfl
  holds := by
    refine ⟨by simp [startedWith, RxRqBitmapManager.initial],
      by simp [startedWith, RxRqBitmapManager.initial], ?_⟩
    intro q i hbit
    simp [startedWith] at hbit

/-- The last packet comes first, and both are admitted once. -/
theorem reassembly_exact_reordered :
    ∃ m h, fire rqStep (startedWith wrapConfig, .empty) (reorderedRun.drop 2) = some (m, h) ∧
      (h.on 0).map (·.admitted.messageComplete) = [false, true] ∧
      ((h.on 0).Pairwise fun a b => Disjoint a.admitted.range b.admitted.range) ∧
      ∀ x ∈ h.rejections, x.1.qpn ≠ 7 := by
  have hview : (fire rqStep (startedWith wrapConfig, .empty) (reorderedRun.drop 2)).map
      (fun s => (s.2.on 0).map (·.admitted.messageComplete)) = some [false, true] := by
      decide +kernel
  obtain ⟨⟨m, h⟩, hrun, hcomplete⟩ := Option.map_eq_some_iff.1 hview
  obtain ⟨⟨e, t⟩, htx, hmessages⟩ := Option.map_eq_some_iff.1 wrapTxRun_messages
  have hin : ∀ lane p, RqLabel.packetIn lane p ∈ reorderedRun.drop 2 → p.qpn = wrapMessage.destQpn →
      ∃ d ∈ [wrapFirst, wrapLast], Carries d p := by
    intro lane p hp _
    simp only [reorderedRun, List.drop, List.mem_cons, RqLabel.packetIn.injEq, reduceCtorEq,
      List.not_mem_nil, or_false] at hp
    rcases hp with ⟨-, rfl⟩ | ⟨-, rfl⟩
    · exact ⟨wrapLast, by simp, carries_lastOfTwo⟩
    · exact ⟨wrapFirst, by simp, carries_firstOfTwo⟩
  have hmem : (wrapMessage, [wrapFirst, wrapLast]) ∈ t.messages := by
    rw [hmessages]
    exact List.mem_singleton_self _
  have hreach : fire rqStep (.initial (fun _ _ => default) (fun _ _ => 0), .empty)
      [.configure 0 wrapConfig, .start] = some (startedWith wrapConfig, .empty) := rfl
  obtain ⟨-, rejected, as, hrejected, hon, hother, -, hdisjoint, -⟩ :=
    reassembly_exact htx hmem hreach wrapConfig_awaits hin hrun
  refine ⟨m, h, hrun, hcomplete, ?_, ?_⟩
  · rw [hon]
    exact hdisjoint
  · rw [hrejected]
    exact hother

/-- The region of a queue pair that reaches past the end of the address space. -/
def pastEndConfig : RxQpConfig := { wrapConfig with physicalBase := 0xFFFFFFFFFFFFFF00 }

/-- The region holds the remote range, but the manager fails on its first packet, as the message
would be written past the end of the address space. -/
theorem reassembly_denied :
    (fire packetStep (.initial, ⟨[], [], []⟩) wrapTxRun).map (fun s => s.2.messages) =
      some [(wrapMessage, [wrapFirst, wrapLast])] ∧ Carries wrapFirst firstOfTwo ∧
    pastEndConfig.rkey = wrapMessage.remoteKey ∧ pastEndConfig.remoteWrite = true ∧
    pastEndConfig.pmtu = wrapMessage.pmtu ∧ pastEndConfig.initialPsn = wrapMessage.startPsn ∧
    pastEndConfig.virtualBase.toNat ≤ wrapMessage.remoteAddr.toNat ∧
    wrapMessage.remoteAddr.toNat + wrapMessage.len.toNat ≤
      pastEndConfig.virtualBase.toNat + pastEndConfig.regionBytes.toNat ∧
    (fire rqStep (.initial (fun _ _ => default) (fun _ _ => 0), .empty)
      [.configure 0 pastEndConfig, .start, .packetIn 1 firstOfTwo, .mergeIngressLane 1,
        .processCandidate]).map (fun s => s.2.rejections) = some [(firstOfTwo, .accessDenied)] := by
  refine ⟨wrapTxRun_messages, carries_firstOfTwo, ?_⟩
  decide +kernel

end OpenRdma
