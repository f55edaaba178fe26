import OpenRdma.Rx.RqBitmap

/-!
# What the rules of the receive bitmap manager do

When each rule can fire, and what the manager is afterwards; the later proofs take rules apart with
this and nothing else.

* `Fires`, **`step_fires`** — the effect of each rule and method.
-/

namespace OpenRdma

open Function (update)

/-- **What the access check asks**, as numbers: none of the sums it compares overflows its width. -/
lemma RxMessageContext.access_iff {ctx : RxMessageContext} {cfg : RxQpConfig} :
    ctx.access cfg = true ↔ cfg.pmtu ≤ 4 ∧ cfg.remoteWrite = true ∧ cfg.rkey = ctx.rkey ∧
      0 < ctx.bytes.toNat ∧ cfg.virtualBase.toNat ≤ ctx.addr.toNat ∧
      ctx.addr.toNat + ctx.bytes.toNat ≤ cfg.virtualBase.toNat + cfg.regionBytes.toNat ∧
      ctx.addr.toNat + ctx.bytes.toNat ≤ 2 ^ 64 ∧
      cfg.physicalBase.toNat + (ctx.addr.toNat - cfg.virtualBase.toNat) + ctx.bytes.toNat ≤
        2 ^ 64 := by
  have hbytes : ctx.bytes ≠ 0 ↔ 0 < ctx.bytes.toNat := by
    rw [Nat.pos_iff_ne_zero, ← BitVec.toNat_inj.ne]
    rfl
  have h1 := ctx.bytes.isLt
  have h2 := ctx.addr.isLt
  have h3 := cfg.virtualBase.isLt
  have h4 := cfg.physicalBase.isLt
  have h5 := cfg.regionBytes.isLt
  simp only [access, Bool.and_eq_true, decide_eq_true_eq, beq_iff_eq, bne_iff_ne, hbytes, and_assoc]
  refine and_congr_right fun _ => and_congr_right fun _ => and_congr_right fun _ =>
    and_congr_right fun _ => ?_
  rw [BitVec.le_def]
  refine and_congr_right fun _ => ?_
  simp only [messageEnd, regionEnd, physicalMessageStart, mrOffset, BitVec.le_def, BitVec.toNat_add,
    BitVec.toNat_sub, BitVec.toNat_setWidth, BitVec.ofNat_eq_ofNat, BitVec.toNat_ofNat]
  omega

/-! ## The message in progress -/

/-- The message the queue pair has open. -/
def RxRqState.stored (state : RxRqState) : RxMessageContext where
  start := state.startPsn
  last := state.lastPsn
  addr := state.remoteAddr
  rkey := state.rkey
  bytes := state.messageBytes

lemma RxRqState.opened_stored (state : RxRqState) (cfg : RxQpConfig) (p : RxParsedPacket) :
    (state.opened cfg p).stored = state.context cfg p := by
  unfold RxRqState.opened
  split
  · rfl
  · rename_i hest
    rw [RxRqState.context, if_neg hest]
    rfl

lemma RxRqState.opened_contextValid {state : RxRqState} {cfg : RxQpConfig} {p : RxParsedPacket}
    (hbelongs : state.belongs cfg p = true) : (state.opened cfg p).contextValid = true := by
  simp only [RxRqState.belongs, Bool.and_eq_true, Bool.or_eq_true] at hbelongs
  unfold RxRqState.opened
  split
  · rfl
  · rename_i hest
    exact hbelongs.1.1.resolve_right hest

namespace RxRqBitmapManager

variable {m m' : RxRqBitmapManager} {packet : RxParsedPacket} {qp : RxQpIndex}

/-! ## The decision -/

/-- The queue pair chosen for a packet is the only one configured with the packet's number. -/
lemma matchCount_iff {qpn : TxQpn} (h : (m.matchCount qpn).1 = 1) (i : RxQpIndex) :
    (m.cfgs i).valid = true ∧ (m.cfgs i).qpn = qpn ↔ i = (m.matchCount qpn).2 := by
  rw [matchCount, ← countMatches_eq_one h]
  simp

/-- A packet is new to a queue pair: in the window, not received and not parked. -/
structure Fresh (m : RxRqBitmapManager) (qp : RxQpIndex) (packet : RxParsedPacket) : Prop where
  valid : (m.cfgs qp).valid = true
  qpn : (m.cfgs qp).qpn = packet.qpn
  only : ∀ i, (m.cfgs i).valid = true → (m.cfgs i).qpn = packet.qpn → i = qp
  inWindow : rxPsnInWindow (m.states qp).ackPsn packet.psn = true
  notReceived :
    (m.states qp).receiveBitmap.getLsbD (bitmapIndex (m.states qp).ackPsn packet.psn) = false
  notParked : (m.pendingValid qp).getLsbD (ringIndex packet.psn) = false

/-- A packet that is new and is judged by its message. -/
structure Judged (m : RxRqBitmapManager) (qp : RxQpIndex) (packet : RxParsedPacket) : Prop
    extends Fresh m qp packet where
  belongs : (m.states qp).belongs (m.cfgs qp) packet = true

/-- A packet that passes everything. -/
structure Admits (m : RxRqBitmapManager) (qp : RxQpIndex) (packet : RxParsedPacket) : Prop
    extends Judged m qp packet where
  access : ((m.states qp).context (m.cfgs qp) packet).access (m.cfgs qp) = true
  segment : ((m.states qp).context (m.cfgs qp) packet).segment (m.cfgs qp) packet = true

/-- What each verdict says about the packet. -/
def Sound (m : RxRqBitmapManager) (packet : RxParsedPacket) : RqVerdict → Prop
  | .replacePending qp =>
    (m.cfgs qp).valid = true ∧ (m.cfgs qp).qpn = packet.qpn ∧
      rxPsnInWindow (m.states qp).ackPsn packet.psn = true ∧
      (m.pendingValid qp).getLsbD (ringIndex packet.psn) = true
  | .park qp =>
    m.Fresh qp packet ∧ (m.states qp).belongs (m.cfgs qp) packet = false
  | .reject code => ∃ qp, m.Judged qp packet ∧
      (code = .accessDenied ∧ ((m.states qp).context (m.cfgs qp) packet).access (m.cfgs qp) =
        false ∨ code = .badSegment ∧
        ((m.states qp).context (m.cfgs qp) packet).segment (m.cfgs qp) packet = false)
  | .accept qp => m.Admits qp packet
  | _ => True

/-- **A verdict is right about the packet.** -/
theorem judge_sound (m : RxRqBitmapManager) (packet : RxParsedPacket) :
    m.Sound packet (m.judge packet) := by
  unfold judge
  by_cases hmatch : (m.matchCount packet.qpn).1 ≠ 1
  · rw [if_pos hmatch]
    trivial
  rw [if_neg hmatch]
  have honly := m.matchCount_iff (not_not.1 hmatch)
  obtain ⟨hvalid, hqpn⟩ := (honly _).2 rfl
  generalize (m.matchCount packet.qpn).2 = qp at honly hvalid hqpn
  dsimp only
  split
  · rename_i hreplace
    simp only [Bool.and_eq_true] at hreplace
    exact ⟨hvalid, hqpn, hreplace.1.1, hreplace.1.2⟩
  split
  · trivial
  rename_i hdup
  split
  · trivial
  rename_i hwindow
  have hfresh : m.Fresh qp packet := by
    simp only [Bool.not_eq_true, Bool.or_eq_false_iff, Bool.not_eq_false', Bool.and_eq_false_iff]
      at hdup hwindow
    exact ⟨hvalid, hqpn, fun i hi hq => (honly i).1 ⟨hi, hq⟩, hwindow, by simpa [hwindow] using
      hdup.1.2, by simpa [hwindow] using hdup.2⟩
  split
  · rename_i hbelongs
    exact ⟨hfresh, by simpa using hbelongs⟩
  rename_i hbelongs
  have hjudged : m.Judged qp packet := ⟨hfresh, by simpa using hbelongs⟩
  split
  · rename_i haccess
    exact ⟨qp, hjudged, .inl ⟨rfl, by simpa using haccess⟩⟩
  rename_i haccess
  split
  · rename_i hsegment
    exact ⟨qp, hjudged, .inr ⟨rfl, by simpa using hsegment⟩⟩
  rename_i hsegment
  exact ⟨hjudged, by simpa using haccess, by simpa using hsegment⟩

/-! ## The effect of a verdict -/

lemma release_eq_some {tag : RxPayloadTag} (h : m.release tag = some m') :
    ∃ q, m.releaseRouteQ.enq ⟨tag⟩ = some q ∧ m' = { m with releaseRouteQ := q } := by
  obtain ⟨q, hq, hm⟩ := bind_eq_some.1 h
  exact ⟨q, hq, (Option.some.inj hm).symm⟩

lemma feedback_eq_some {value : RxFeedback} (h : m.feedback value = some m') :
    ∃ q, m' = { m with feedbackQ := q } := by
  obtain ⟨q, _, hm⟩ := bind_eq_some.1 h
  exact ⟨q, (Option.some.inj hm).symm⟩

lemma report_eq_some {code : RxErrorCode} (h : m.report packet code = some m') :
    ∃ q, m' = { m with errorQ := q } := by
  obtain ⟨q, _, hm⟩ := bind_eq_some.1 h
  exact ⟨q, (Option.some.inj hm).symm⟩

/-- What carrying out a verdict does. -/
def Acts (m : RxRqBitmapManager) (packet : RxParsedPacket) (m' : RxRqBitmapManager) :
    RqVerdict → Prop
  | .replacePending qp => ∃ q,
      m.releaseRouteQ.enq ⟨(m.pendingPackets qp (ringIndex packet.psn)).payloadTag⟩ = some q ∧
      m' = { m with releaseRouteQ := q }.keep qp packet
  | .park qp => m' = (m.keep qp packet).setPending qp (ringIndex packet.psn) true
  | .accept qp => ∃ q f,
      m.admittedRouteQ.enq ((m.states qp).admitted (m.cfgs qp) packet qp m.globalSeq) = some q ∧
      m' = { m with
        states := update m.states qp ((m.states qp).accept (m.cfgs qp) packet)
        admittedRouteQ := q
        globalSeq := m.globalSeq + 1
        feedbackQ := f }
  | _ => ∃ q f e b, m.releaseRouteQ.enq ⟨packet.payloadTag⟩ = some q ∧
      m' = { m with releaseRouteQ := q, feedbackQ := f, errorQ := e, failed := b }

theorem act_eq_some {v : RqVerdict} (h : m.act packet v = some m') : m.Acts packet m' v := by
  cases v with
  | unknownQp | reject code =>
    obtain ⟨m₁, h₁, h⟩ := bind_eq_some.1 h
    obtain ⟨m₂, h₂, h⟩ := bind_eq_some.1 h
    obtain ⟨q, hq, rfl⟩ := release_eq_some h₁
    obtain ⟨e, rfl⟩ := report_eq_some h₂
    exact ⟨q, _, e, true, hq, (Option.some.inj h).symm⟩
  | replacePending qp =>
    obtain ⟨m₁, h₁, h⟩ := bind_eq_some.1 h
    obtain ⟨q, hq, rfl⟩ := release_eq_some h₁
    exact ⟨q, hq, (Option.some.inj h).symm⟩
  | duplicate qp =>
    obtain ⟨m₁, h₁, h⟩ := bind_eq_some.1 h
    obtain ⟨q, hq, rfl⟩ := release_eq_some h₁
    obtain ⟨f, rfl⟩ := feedback_eq_some h
    exact ⟨q, f, _, _, hq, rfl⟩
  | outOfWindow qp =>
    obtain ⟨m₁, h₁, h⟩ := bind_eq_some.1 h
    obtain ⟨m₂, h₂, h⟩ := bind_eq_some.1 h
    obtain ⟨q, hq, rfl⟩ := release_eq_some h₁
    obtain ⟨f, rfl⟩ := feedback_eq_some h₂
    obtain ⟨e, rfl⟩ := report_eq_some h
    exact ⟨q, f, e, _, hq, rfl⟩
  | park qp => exact (Option.some.inj h).symm
  | accept qp =>
    obtain ⟨q, hq, h⟩ := bind_eq_some.1 h
    obtain ⟨f, rfl⟩ := feedback_eq_some h
    exact ⟨q, f, hq, rfl⟩

/-! ## The effect of a firing -/

/-- The scan goes on from the entry it looked at. -/
def scanned (m : RxRqBitmapManager) : RxRqBitmapManager :=
  { m with
    pendingScanIndex := m.pendingScanIndex + 1
    pendingScanQp := if m.pendingScanIndex = 15 then m.pendingScanQp + 1 else m.pendingScanQp
    resolvePhase := false }

lemma admittedOut_eq_some {i : RxLaneId} {p : RxAdmittedPacket}
    (h : m.admittedOut i = some (p, m')) :
    ∃ q, (m.admittedQ i).deq = some (p, q) ∧
      m' = { m with admittedQ := update m.admittedQ i q } := by
  obtain ⟨⟨p, q⟩, hq, h⟩ := bind_eq_some.1 h
  cases h
  exact ⟨q, hq, rfl⟩

/-- What the rules and methods do.  A parked packet that is looked at goes back to the queue, or its
slot is given back, or it gets older. -/
inductive Fires (m m' : RxRqBitmapManager) : RqLabel → Prop
  | configure {index cfg} (hidle : m.running = false) (hs : m' = { m with
        cfgs := update m.cfgs index cfg
        states := update m.states index (.init cfg.initialPsn)
        pendingValid := update m.pendingValid index 0 }) : Fires m m'
          (.configure index cfg)
  | start (hidle : m.running = false) (hs : m' = { m with running := true }) : Fires m m' .start
  | packetIn {i packet q} (hq : (m.inputQ i).enq packet = some q)
      (hs : m' = { m with inputQ := update m.inputQ i q }) :
      Fires m m' (.packetIn i packet)
  | mergeIngressLane {i packet q r} (hphase : m.resolvePhase = false)
      (hq : (m.inputQ i).deq = some (packet, q)) (hr : m.ingressQ.enq packet = some r)
      (hs : m' = { m with
        inputQ := update m.inputQ i q, ingressQ := r, ingressCursor := i + 1 }) :
      Fires m m' (.mergeIngressLane i)
  | putBack {q} (hbit : (m.pendingValid m.pendingScanQp).getLsbD m.pendingScanIndex = true)
      (hq : m.ingressQ.enq (m.pendingPackets m.pendingScanQp m.pendingScanIndex) = some q)
      (hs : m' =
        { m.scanned.setPending m.pendingScanQp m.pendingScanIndex false with ingressQ := q }) :
      Fires m m' .resolvePending
  | giveUp {q f e} (hbit : (m.pendingValid m.pendingScanQp).getLsbD m.pendingScanIndex = true)
      (hq : m.releaseRouteQ.enq ⟨(m.pendingPackets m.pendingScanQp m.pendingScanIndex).payloadTag⟩ =
        some q)
      (hs : m' = { m.scanned.setPending m.pendingScanQp m.pendingScanIndex false with
        releaseRouteQ := q, feedbackQ := f, errorQ := e }) : Fires m m' .resolvePending
  | age {a} (hs : m' = { m.scanned with pendingAge := a }) : Fires m m' .resolvePending
  | advanceIdleToResolve (hrun : m.running = true) (hpending : m.pendingExists = true)
      (hempty : m.ingressQ.notEmpty = false) (hs : m' = { m with resolvePhase := true }) :
      Fires m m' .advanceIdleToResolve
  | processCandidate {packet q} (hrun : m.running = true) (hq : m.ingressQ.deq = some (packet, q))
      (hacts : Acts { m with ingressQ := q, resolvePhase := m.pendingExists } packet m'
        (m.judge packet)) : Fires m m' .processCandidate
  | routeAdmitted {i packet q r} (hq : m.admittedRouteQ.deq = some (packet, q))
      (hlane : packet.lane = i) (hr : (m.admittedQ i).enq packet = some r)
      (hs : m' = { m with admittedRouteQ := q, admittedQ := update m.admittedQ i r }) :
      Fires m m' (.routeAdmitted i)
  | routeRelease {i value q r} (hq : m.releaseRouteQ.deq = some (value, q))
      (hr : (m.releaseQ i).enq value = some r)
      (hs : m' = { m with releaseRouteQ := q, releaseQ := update m.releaseQ i r }) :
      Fires m m' (.routeRelease i)
  | admittedOut {i packet q} (hq : (m.admittedQ i).deq = some (packet, q))
      (hs : m' = { m with admittedQ := update m.admittedQ i q }) :
      Fires m m' (.admittedOut i)
  | releaseOut {i value q} (hq : (m.releaseQ i).deq = some (value, q))
      (hs : m' = { m with releaseQ := update m.releaseQ i q }) : Fires m m' (.releaseOut i)
  | feedbackOut {q} (hs : m' = { m with feedbackQ := q }) : Fires m m' .feedbackOut
  | errorOut {q} (hs : m' = { m with errorQ := q }) : Fires m m' .errorOut

/-- An entry of the ring is looked at. -/
lemma resolvePending_fires (h : m.resolvePending = some m') : m.Fires m' .resolvePending := by
  obtain ⟨-, h⟩ := guard_bind_eq_some.1 h
  dsimp only at h
  split at h
  · rename_i hback
    simp only [Bool.and_eq_true] at hback
    obtain ⟨q, hq, h⟩ := bind_eq_some.1 h
    exact .putBack hback.1 hq (Option.some.inj h).symm
  split at h
  · rename_i hold
    simp only [Bool.and_eq_true] at hold
    obtain ⟨m₁, h₁, h⟩ := bind_eq_some.1 h
    obtain ⟨m₂, h₂, h⟩ := bind_eq_some.1 h
    obtain ⟨q, hq, rfl⟩ := release_eq_some h₁
    obtain ⟨f, rfl⟩ := feedback_eq_some h₂
    obtain ⟨e, rfl⟩ := report_eq_some h
    exact .giveUp hold.1 hq rfl
  split at h
  · exact .age (Option.some.inj h).symm
  · exact .age (a := m.pendingAge) (Option.some.inj h).symm

/-- **Every firing of the manager is one of these.** -/
theorem step_fires {l : RqLabel} (h : m.step l = some m') : m.Fires m' l := by
  cases l with
  | configure index cfg =>
    obtain ⟨hguard, h⟩ := guard_bind_eq_some.1 h
    exact .configure (by simpa using hguard) (Option.some.inj h).symm
  | start =>
    obtain ⟨hguard, h⟩ := guard_bind_eq_some.1 h
    exact .start (by simpa using hguard) (Option.some.inj h).symm
  | packetIn i packet =>
    obtain ⟨-, h⟩ := guard_bind_eq_some.1 h
    obtain ⟨q, hq, h⟩ := bind_eq_some.1 h
    exact .packetIn hq (Option.some.inj h).symm
  | mergeIngressLane i =>
    obtain ⟨hguard, h⟩ := guard_bind_eq_some.1 h
    obtain ⟨⟨packet, q⟩, hq, h⟩ := bind_eq_some.1 h
    obtain ⟨r, hr, h⟩ := bind_eq_some.1 h
    simp only [Bool.and_eq_true, Bool.not_eq_true'] at hguard
    exact .mergeIngressLane hguard.1 hq hr (Option.some.inj h).symm
  | resolvePending => exact resolvePending_fires h
  | advanceIdleToResolve =>
    obtain ⟨hguard, h⟩ := guard_bind_eq_some.1 h
    simp only [Bool.and_eq_true, Bool.not_eq_true'] at hguard
    exact .advanceIdleToResolve hguard.1.1.1.1 hguard.1.2 hguard.2 (Option.some.inj h).symm
  | processCandidate =>
    obtain ⟨hguard, h⟩ := guard_bind_eq_some.1 h
    obtain ⟨⟨packet, q⟩, hq, h⟩ := bind_eq_some.1 h
    simp only [Bool.and_eq_true, Bool.not_eq_true'] at hguard
    exact .processCandidate hguard.1.1 hq (act_eq_some h)
  | routeAdmitted i =>
    obtain ⟨⟨packet, q⟩, hq, h⟩ := bind_eq_some.1 h
    obtain ⟨hlane, h⟩ := guard_bind_eq_some.1 h
    obtain ⟨r, hr, h⟩ := bind_eq_some.1 h
    exact .routeAdmitted hq hlane hr (Option.some.inj h).symm
  | routeRelease i =>
    obtain ⟨⟨value, q⟩, hq, h⟩ := bind_eq_some.1 h
    obtain ⟨-, h⟩ := guard_bind_eq_some.1 h
    obtain ⟨r, hr, h⟩ := bind_eq_some.1 h
    exact .routeRelease hq hr (Option.some.inj h).symm
  | admittedOut i =>
    obtain ⟨⟨a, t⟩, hout, rfl⟩ := Option.map_eq_some_iff.1 h
    obtain ⟨q, hq, ht⟩ := admittedOut_eq_some hout
    exact .admittedOut hq ht
  | releaseOut i =>
    obtain ⟨⟨a, t⟩, hout, rfl⟩ := Option.map_eq_some_iff.1 h
    obtain ⟨⟨value, q⟩, hq, hout⟩ := bind_eq_some.1 hout
    cases hout
    exact .releaseOut hq rfl
  | feedbackOut =>
    obtain ⟨⟨a, t⟩, hout, rfl⟩ := Option.map_eq_some_iff.1 h
    obtain ⟨⟨value, q⟩, -, hout⟩ := bind_eq_some.1 hout
    cases hout
    exact .feedbackOut rfl
  | errorOut =>
    obtain ⟨⟨a, t⟩, hout, rfl⟩ := Option.map_eq_some_iff.1 h
    obtain ⟨⟨value, q⟩, -, hout⟩ := bind_eq_some.1 hout
    cases hout
    exact .errorOut rfl

/-- Carrying out a verdict does not touch the configuration. -/
lemma Acts.fixed {packet : RxParsedPacket} {v : RqVerdict} (h : m.Acts packet m' v) :
    m'.running = m.running ∧ m'.cfgs = m.cfgs := by
  cases v with
  | replacePending qp =>
    obtain ⟨q, -, rfl⟩ := h
    exact ⟨rfl, rfl⟩
  | park qp =>
    subst h
    exact ⟨rfl, rfl⟩
  | accept qp =>
    obtain ⟨q, f, -, rfl⟩ := h
    exact ⟨rfl, rfl⟩
  | _ =>
    obtain ⟨q, f, e, b, -, rfl⟩ := h
    exact ⟨rfl, rfl⟩

/-- While the manager runs, only candidates change the state of a queue pair, and nothing its
configuration. -/
lemma step_running {l : RqLabel} (hs : m.step l = some m') (hrun : m.running = true) :
    m'.running = true ∧ m'.cfgs = m.cfgs ∧ (l ≠ .processCandidate → m'.states = m.states) := by
  cases step_fires hs with
  | configure hidle | start hidle =>
    rw [hrun] at hidle
    cases hidle
  | processCandidate _ _ hacts =>
    exact ⟨hacts.fixed.1.trans hrun, hacts.fixed.2, fun hne => absurd rfl hne⟩
  | _ =>
    subst_vars
    exact ⟨hrun, rfl, fun _ => rfl⟩

/-- Only `start` starts the manager. -/
lemma step_same_running {l : RqLabel} (hs : m.step l = some m') (hl : l ≠ .start) :
    m'.running = m.running := by
  cases step_fires hs with
  | start => exact absurd rfl hl
  | processCandidate _ _ hacts => exact hacts.fixed.1
  | _ =>
    subst_vars
    rfl

/-- Only `configure` changes the configuration. -/
lemma step_cfgs {l : RqLabel} (hs : m.step l = some m')
    (hl : ∀ index cfg, l ≠ .configure index cfg) : m'.cfgs = m.cfgs := by
  cases step_fires hs with
  | configure => exact absurd rfl (hl _ _)
  | processCandidate _ _ hacts => exact hacts.fixed.2
  | _ =>
    subst_vars
    rfl

end RxRqBitmapManager

end OpenRdma
