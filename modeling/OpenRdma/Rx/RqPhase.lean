import OpenRdma.Rx.RqSteps

/-!
# The two phases of the receive bitmap manager

The manager alternates between judging a packet of the queue and looking at one parked packet.
While `resolvePhase` is set, nothing is put into `ingressQ` by a lane and nothing is taken out of
it, and the one rule that clears the flag may itself want to put a packet back there.  It always
can: the flag is set only right after a packet was taken from the queue, or when the queue was
empty, and only if a packet is parked.

* **`resolve_phase_live`** — in every state of every run the second phase can be left.
-/

namespace OpenRdma

namespace RxRqBitmapManager

variable {m m' : RxRqBitmapManager}

lemma withBit_ne_zero (bits : BitVec 16) (i : RxWindowIndex) : withBit bits i true ≠ 0 := by
  intro h
  have hbit := congrArg (fun b => b.getLsbD i) h
  simp [withBit] at hbit

lemma pendingExists_iff : m.pendingExists = true ↔ ∃ qp, m.pendingValid qp ≠ 0 := by
  simp [pendingExists]

/-- Some entry of some ring is valid. -/
lemma exists_pending (h : m.pendingExists = true) :
    ∃ qp, ∃ i : RxWindowIndex, (m.pendingValid qp).getLsbD i = true := by
  obtain ⟨qp, hne⟩ := pendingExists_iff.1 h
  by_contra hnone
  refine hne (BitVec.eq_of_getLsbD_eq fun i hi => ?_)
  have hbit : ¬(m.pendingValid qp).getLsbD i = true := fun hset => hnone ⟨qp, ⟨i, hi⟩, hset⟩
  simpa using hbit

/-- The second phase has a packet to look at, and room to put it back. -/
structure PhaseInv (m : RxRqBitmapManager) : Prop where
  idle : m.running = false → m.resolvePhase = false
  pending : m.resolvePhase = true → m.pendingExists = true
  room : m.resolvePhase = true → m.ingressQ.elems.length < 8

namespace PhaseInv

lemma initial (packets : RxQpIndex → RxWindowIndex → RxParsedPacket)
    (age : RxQpIndex → RxWindowIndex → BitVec 8) : PhaseInv (.initial packets age) :=
  ⟨fun _ => rfl, nofun, nofun⟩

/-- The first phase. -/
lemma of_judging (h : m.resolvePhase = false) : PhaseInv m := by
  constructor
  · intro _
    exact h
  · intro hset
    rw [h] at hset
    cases hset
  · intro hset
    rw [h] at hset
    cases hset

/-- A firing that touches neither the flag, nor the rings, nor the queue. -/
lemma of_same (h : PhaseInv m) (hrun : m'.running = m.running)
    (hphase : m'.resolvePhase = m.resolvePhase) (hvalid : m'.pendingValid = m.pendingValid)
    (hqueue : m'.ingressQ = m.ingressQ) : PhaseInv m' := by
  constructor
  · rw [hrun, hphase]
    exact h.idle
  · rw [hphase, pendingExists, hvalid]
    exact h.pending
  · rw [hphase, hqueue]
    exact h.room

end PhaseInv

/-- Carrying out a verdict leaves the flag and the queue alone and takes no packet out of a ring. -/
lemma Acts.phase {packet : RxParsedPacket} {v : RqVerdict} (h : m.Acts packet m' v) :
    m'.resolvePhase = m.resolvePhase ∧ m'.ingressQ = m.ingressQ ∧
      (m.pendingExists = true → m'.pendingExists = true) := by
  cases v with
  | replacePending qp =>
    obtain ⟨q, -, rfl⟩ := h
    exact ⟨rfl, rfl, id⟩
  | park qp =>
    subst h
    refine ⟨rfl, rfl, fun _ => pendingExists_iff.2 ⟨qp, ?_⟩⟩
    simp only [setPending, Function.update_self]
    exact withBit_ne_zero _ _
  | accept qp =>
    obtain ⟨q, f, -, rfl⟩ := h
    exact ⟨rfl, rfl, id⟩
  | _ =>
    obtain ⟨q, f, e, b, -, rfl⟩ := h
    exact ⟨rfl, rfl, id⟩

/-- Looking at a parked packet ends the phase. -/
lemma resolvePending_ends (h : m.resolvePending = some m') : m'.resolvePhase = false := by
  cases step_fires (l := .resolvePending) h <;> subst_vars <;> rfl

lemma release_of_lt (h : m.releaseRouteQ.elems.length < 32) (tag : RxPayloadTag) :
    ∃ m', m.release tag = some m' ∧ m'.feedbackQ = m.feedbackQ ∧ m'.errorQ = m.errorQ := by
  obtain ⟨q, hq⟩ := Fifo.enq_of_lt h ⟨tag⟩
  exact ⟨_, bind_eq_some.2 ⟨q, hq, rfl⟩, rfl, rfl⟩

lemma feedback_of_lt (h : m.feedbackQ.elems.length < 32) (value : RxFeedback) :
    ∃ m', m.feedback value = some m' ∧ m'.errorQ = m.errorQ := by
  obtain ⟨q, hq⟩ := Fifo.enq_of_lt h value
  exact ⟨_, bind_eq_some.2 ⟨q, hq, rfl⟩, rfl⟩

lemma report_of_lt (h : m.errorQ.elems.length < 16) (packet : RxParsedPacket) (code : RxErrorCode) :
    ∃ m', m.report packet code = some m' := by
  obtain ⟨q, hq⟩ := Fifo.enq_of_lt h ⟨packet.qpn, packet.psn, code⟩
  exact ⟨_, bind_eq_some.2 ⟨q, hq, rfl⟩⟩

/-- **The phase can be left when the queues of the outcome have room.** -/
lemma resolvePending_ready (hrun : m.running = true) (hok : m.failed = false)
    (hphase : m.resolvePhase = true) (hpending : m.pendingExists = true)
    (hingress : m.ingressQ.elems.length < 8) (hrelease : m.releaseRouteQ.notFull = true)
    (hfeedback : m.feedbackQ.notFull = true) (herror : m.errorQ.notFull = true) :
    ∃ m', m.resolvePending = some m' := by
  simp only [Fifo.notFull, decide_eq_true_eq] at hrelease hfeedback herror
  have hguard : (m.running && !m.failed && m.resolvePhase && m.pendingExists) = true := by
    simp [hrun, hok, hphase, hpending]
  rw [resolvePending]
  simp only [hguard, guard_true, Option.pure_def, Option.bind_eq_bind, Option.bind_some]
  split
  · obtain ⟨q, hq⟩ := Fifo.enq_of_lt hingress (m.pendingPackets m.pendingScanQp m.pendingScanIndex)
    simp [hq]
  split
  · obtain ⟨m₁, h₁, hf, he⟩ :=
      release_of_lt (m := m.scanned.setPending m.pendingScanQp m.pendingScanIndex false)
      hrelease (m.pendingPackets m.pendingScanQp m.pendingScanIndex).payloadTag
    obtain ⟨m₂, h₂, he'⟩ :=
      feedback_of_lt (hf ▸ hfeedback) (rxFeedbackSnapshot (m₁.cfgs m.pendingScanQp)
      (m.states m.pendingScanQp) (m.pendingPackets m.pendingScanQp m.pendingScanIndex).psn true)
    obtain ⟨m₃, h₃⟩ := report_of_lt (he' ▸ he ▸ herror)
      (m.pendingPackets m.pendingScanQp m.pendingScanIndex) .pendingTimeout
    exact ⟨m₃, bind_eq_some.2 ⟨m₁, h₁, bind_eq_some.2 ⟨m₂, h₂, h₃⟩⟩⟩
  split <;> simp

/-- Every rule and method keeps the invariant. -/
lemma PhaseInv.step (h : PhaseInv m) {l : RqLabel} (hs : m.step l = some m') : PhaseInv m' := by
  cases step_fires hs with
  | configure hidle hm | start hidle hm =>
    subst hm
    exact .of_judging (h.idle hidle)
  | mergeIngressLane hphase hq hr hm =>
    subst hm
    exact .of_judging hphase
  | putBack hbit hq hm | giveUp hbit hq hm | age hm =>
    subst hm
    exact .of_judging rfl
  | advanceIdleToResolve hrun hpending hempty hm =>
    subst hm
    constructor
    · intro hidle
      rw [show m.running = false from hidle] at hrun
      cases hrun
    · intro _
      exact hpending
    · intro _
      have : m.ingressQ.elems = [] := by simpa [Fifo.notEmpty] using hempty
      simp [this]
  | processCandidate hrun hdeq hacts =>
    obtain ⟨hphase, hqueue, hgrows⟩ := hacts.phase
    have hlen := m.ingressQ.bounded
    rw [Fifo.deq_eq_some hdeq, List.length_cons] at hlen
    constructor
    · intro hidle
      rw [hacts.fixed.1] at hidle
      cases hidle.symm.trans hrun
    · intro hset
      exact hgrows (hphase.symm.trans hset)
    · intro _
      rw [hqueue]
      exact hlen
  | _ =>
    subst_vars
    exact h.of_same rfl rfl rfl rfl

/-- **The second phase can always be left.**  In every state that a run reaches, with the manager
running and not failed, if the flag is set then some parked packet is valid and the queue it may go
back to has room; so the rule that clears the flag can fire as soon as the queues for releases,
feedback and errors have room, and when it fires the flag is clear. -/
theorem resolve_phase_live {packets : RxQpIndex → RxWindowIndex → RxParsedPacket}
    {age : RxQpIndex → RxWindowIndex → BitVec 8} {labels : List RqLabel}
    (hfire : fire step (.initial packets age) labels = some m) (hrun : m.running = true)
    (hok : m.failed = false) (hphase : m.resolvePhase = true) :
    (∃ qp, ∃ i : RxWindowIndex, (m.pendingValid qp).getLsbD i = true) ∧
    m.ingressQ.notFull = true ∧
    (m.releaseRouteQ.notFull = true → m.feedbackQ.notFull = true → m.errorQ.notFull = true →
      ∃ m', m.step .resolvePending = some m') ∧
    ∀ m', m.step .resolvePending = some m' → m'.resolvePhase = false := by
  have hinv : PhaseInv m :=
    fire_rule (fun m l m' h hs => PhaseInv.step h hs) (.initial packets age) hfire
  refine ⟨exists_pending (hinv.pending hphase), ?_, ?_, ?_⟩
  · simpa [Fifo.notFull] using hinv.room hphase
  · intro hrelease hfeedback herror
    exact resolvePending_ready hrun hok hphase (hinv.pending hphase)
      (hinv.room hphase) hrelease hfeedback herror
  · intro m' hs
    exact resolvePending_ends hs

/-- A packet of the middle of a message comes before the message was opened and is parked; the queue
is empty then, and the second phase begins. -/
def parkingRun : List RqLabel :=
  [.configure 0 { (default : RxQpConfig) with valid := true, qpn := 7, initialPsn := 4, pmtu := 2 },
    .start, .packetIn 1 { (default : RxParsedPacket) with lane := 1, qpn := 7, psn := 5 },
    .mergeIngressLane 1,
    .processCandidate, .advanceIdleToResolve]

theorem resolve_phase_live_parked :
    ∃ m m', fire step (.initial (fun _ _ => default) (fun _ _ => 0)) parkingRun = some m ∧
      m.resolvePhase = true ∧ m.step .resolvePending = some m' ∧ m'.resolvePhase = false := by
  have hview : (fire step (.initial (fun _ _ => default) (fun _ _ => 0)) parkingRun).map
      (fun m => (m.running, m.failed, m.resolvePhase, m.releaseRouteQ.notFull, m.feedbackQ.notFull,
        m.errorQ.notFull)) = some (true, false, true, true, true, true) := by decide +kernel
  obtain ⟨m, hfire, hm⟩ := Option.map_eq_some_iff.1 hview
  simp only [Prod.mk.injEq] at hm
  obtain ⟨hrun, hok, hphase, hrelease, hfeedback, herror⟩ := hm
  obtain ⟨-, -, hready, hends⟩ := resolve_phase_live hfire hrun hok hphase
  obtain ⟨m', hs⟩ := hready hrelease hfeedback herror
  exact ⟨m, m', hfire, hphase, hs, hends m' hs⟩

end RxRqBitmapManager

end OpenRdma
