import OpenRdma.Rx.RqWindow

/-!
# Where the packets of the receive bitmap manager are

A packet is in an input queue, in the queue of candidates or in the ring until it is admitted or
dropped; then its admission, or the release of its slot, is on the way out.  Every firing moves at
most one packet from one of these places to another.  The account is kept by weights:
`parsedHeld f`, `admittedHeld g` and `releasesHeld r` sum a weight over the packets, the admissions
and the releases that are held.

* **`step_flow`** — how every firing moves packets.
-/

namespace OpenRdma

open Function (update update_self update_of_ne)

/-! ## The ring -/

section Ring

variable (f : RxParsedPacket → ℕ) (valid : RxQpIndex → BitVec 16)
  (packets : RxQpIndex → RxWindowIndex → RxParsedPacket)

/-- An entry of the ring, counted by a weight. -/
def entryWeight (x : RxQpIndex × RxWindowIndex) : ℕ :=
  if (valid x.1).getLsbD x.2 then f (packets x.1 x.2) else 0

/-- The packets in the ring, counted by a weight. -/
def ringWeight : ℕ := ∑ x, entryWeight f valid packets x

variable {valid} {qp : RxQpIndex} {i : RxWindowIndex}

lemma entryWeight_of_bit (h : (valid qp).getLsbD i = true) :
    entryWeight f valid packets (qp, i) = f (packets qp i) := if_pos h

lemma entryWeight_of_not_bit (h : (valid qp).getLsbD i = false) :
    entryWeight f valid packets (qp, i) = 0 := if_neg (ne_true_of_eq_false h)

lemma getLsbD_update_self (v : Bool) :
    (update valid qp (withBit (valid qp) i v) qp).getLsbD i = v := by
  rw [update_self, getLsbD_withBit, if_pos rfl]

lemma getLsbD_update_of_ne {q : RxQpIndex} {j : RxWindowIndex} (v : Bool) (hne : (q, j) ≠ (qp, i)) :
    (update valid qp (withBit (valid qp) i v) q).getLsbD j = (valid q).getLsbD j := by
  by_cases hq : q = qp
  · subst hq
    have hj : (j : ℕ) ≠ i := fun h => hne (by rw [Fin.ext h])
    rw [update_self, getLsbD_withBit, if_neg hj]
  · rw [update_of_ne hq]

lemma update_update_of_ne {q : RxQpIndex} {j : RxWindowIndex} (p : RxParsedPacket)
    (hne : (q, j) ≠ (qp, i)) : update packets qp (update (packets qp) i p) q j = packets q j := by
  by_cases hq : q = qp
  · subst hq
    have hj : j ≠ i := fun h => hne (by rw [h])
    rw [update_self, update_of_ne hj]
  · rw [update_of_ne hq]

/-- An entry is emptied. -/
lemma ringWeight_clear (hbit : (valid qp).getLsbD i = true) :
    ringWeight f (update valid qp (withBit (valid qp) i false)) packets +
      f (packets qp i) = ringWeight f valid packets := by
  rw [← entryWeight_of_bit f packets hbit]
  refine (Fifo.sum_change (qp, i) ?_).trans ?_
  · rintro ⟨q, j⟩ hne
    simp only [entryWeight, getLsbD_update_of_ne false hne]
  · rw [entryWeight_of_not_bit f packets (getLsbD_update_self false), Nat.add_zero, ringWeight]

/-- A packet takes the place of another. -/
lemma ringWeight_replace (hbit : (valid qp).getLsbD i = true) (p : RxParsedPacket) :
    ringWeight f valid (update packets qp (update (packets qp) i p)) +
      f (packets qp i) = ringWeight f valid packets + f p := by
  rw [← entryWeight_of_bit f packets hbit]
  refine (Fifo.sum_change (qp, i) ?_).trans ?_
  · rintro ⟨q, j⟩ hne
    simp only [entryWeight, update_update_of_ne packets p hne]
  · rw [entryWeight_of_bit f _ hbit, update_self, update_self, ringWeight]

/-- A packet is put into an empty entry. -/
lemma ringWeight_park (hbit : (valid qp).getLsbD i = false) (p : RxParsedPacket) :
    ringWeight f (update valid qp (withBit (valid qp) i true))
      (update packets qp (update (packets qp) i p)) =
        ringWeight f valid packets + f p := by
  have h := Fifo.sum_change (F := entryWeight f
      (update valid qp (withBit (valid qp) i true))
      (update packets qp (update (packets qp) i p)))
    (G := entryWeight f valid packets) (qp, i) (by
      rintro ⟨q, j⟩ hne
      simp only [entryWeight, getLsbD_update_of_ne true hne, update_update_of_ne packets p hne])
  rwa [entryWeight_of_not_bit f packets hbit, entryWeight_of_bit f _ (getLsbD_update_self true),
    update_self, update_self, Nat.add_zero] at h

end Ring

namespace RxRqBitmapManager

variable {m m' : RxRqBitmapManager}

/-! ## The places -/

def parsedHeld (m : RxRqBitmapManager) (f : RxParsedPacket → ℕ) : ℕ :=
  Fifo.weights f m.inputQ + m.ingressQ.weight f + ringWeight f m.pendingValid m.pendingPackets

def admittedHeld (m : RxRqBitmapManager) (g : RxAdmittedPacket → ℕ) : ℕ :=
  m.admittedRouteQ.weight g + Fifo.weights g m.admittedQ

def releasesHeld (m : RxRqBitmapManager) (r : RxBufferRelease → ℕ) : ℕ :=
  m.releaseRouteQ.weight r + Fifo.weights r m.releaseQ

/-- What joins and what leaves: the packets, the admissions and the releases. -/
structure Moves (m m' : RxRqBitmapManager) (packetsIn packetsOut : List RxParsedPacket)
    (admittedIn admittedOut : List RxAdmittedPacket)
    (releasesIn releasesOut : List RxBufferRelease) :
    Prop where
  parsed : ∀ f, m'.parsedHeld f + (packetsOut.map f).sum = m.parsedHeld f + (packetsIn.map f).sum
  admitted : ∀ g, m'.admittedHeld g + (admittedOut.map g).sum =
    m.admittedHeld g + (admittedIn.map g).sum
  releases : ∀ r, m'.releasesHeld r + (releasesOut.map r).sum =
    m.releasesHeld r + (releasesIn.map r).sum

/-- A packet is dropped, and its slot released. -/
def Drops (m m' : RxRqBitmapManager) (p : RxParsedPacket) : Prop :=
  m.Moves m' [] [p] [] [] [⟨p.payloadTag⟩] []

/-- A candidate stays, is dropped or makes another one go, or is admitted. -/
def CandidateFlow (m m' : RxRqBitmapManager) : Prop :=
  m.Moves m' [] [] [] [] [] [] ∨ (∃ p, m.Drops m' p) ∨
    ∃ qp p, m.Admits qp p ∧ p ∈ m.ingressQ.elems ∧
      m.Moves m' [] [p] [(m.states qp).admitted (m.cfgs qp) p qp m.globalSeq] [] [] []

/-- How a firing moves packets.  Configuring a queue pair forgets what it has in the ring. -/
def Flow (m m' : RxRqBitmapManager) : RqLabel → Prop
  | .packetIn _ p => m.Moves m' [p] [] [] [] [] []
  | .processCandidate => m.CandidateFlow m'
  | .resolvePending => m.Moves m' [] [] [] [] [] [] ∨ ∃ p, m.Drops m' p
  | .admittedOut i => ∃ a, (m.admittedQ i).first = some a ∧ m.Moves m' [] [] [] [a] [] []
  | .releaseOut i => ∃ x, (m.releaseQ i).first = some x ∧ m.Moves m' [] [] [] [] [] [x]
  | .configure qp _ => m.pendingValid qp = 0 → m.Moves m' [] [] [] [] [] []
  | _ => m.Moves m' [] [] [] [] [] []

/-! ## Rules -/

/-- The candidate is dropped. -/
lemma drops_candidate {p : RxParsedPacket} {q : Fifo RxParsedPacket 8} {x : Fifo RxBufferRelease 32}
    (hq : m.ingressQ.deq = some (p, q)) (hx : m.releaseRouteQ.enq ⟨p.payloadTag⟩ = some x)
    (resolve failed : Bool) (f : Fifo RxFeedback 32) (e : Fifo RxError 16) :
    m.Drops { m with
      ingressQ := q, resolvePhase := resolve, releaseRouteQ := x, feedbackQ := f, errorQ := e,
      failed := failed } p where
  parsed f := by
    have hw := Fifo.weight_deq (f := f) hq
    simp [parsedHeld]
    omega
  admitted g := rfl
  releases r := by
    have hw := Fifo.weight_enq (f := r) hx
    simp [releasesHeld]
    omega

/-- A candidate leaves the queue and goes where the verdict says. -/
lemma processCandidate_flow {p : RxParsedPacket} {q : Fifo RxParsedPacket 8}
    (hq : m.ingressQ.deq = some (p, q))
    (hacts : Acts { m with ingressQ := q, resolvePhase := m.pendingExists } p m' (m.judge p)) :
    m.CandidateFlow m' := by
  have hsound := m.judge_sound p
  generalize m.judge p = v at hacts hsound
  cases v with
  | replacePending qp =>
    obtain ⟨-, -, -, hbit⟩ := hsound
    obtain ⟨x, hx, rfl⟩ := hacts
    dsimp only at hx
    refine .inr
      (.inl ⟨m.pendingPackets qp (ringIndex p.psn), fun f => ?_, fun g => rfl, fun r => ?_⟩)
    · have hw := Fifo.weight_deq (f := f) hq
      have hring := ringWeight_replace f m.pendingPackets hbit p
      simp only [parsedHeld, keep, List.map_cons, List.map_nil, List.sum_cons, List.sum_nil]
      omega
    · have hw := Fifo.weight_enq (f := r) hx
      simp [releasesHeld, keep]
      omega
  | park qp =>
    obtain ⟨hfresh, -⟩ := hsound
    obtain rfl := hacts
    refine .inl ⟨fun f => ?_, fun g => rfl, fun r => rfl⟩
    have hw := Fifo.weight_deq (f := f) hq
    have hring := ringWeight_park f m.pendingPackets hfresh.notParked p
    simp only [parsedHeld, keep, setPending, List.map_nil, List.sum_nil]
    omega
  | accept qp =>
    obtain ⟨x, f, hx, rfl⟩ := hacts
    dsimp only at hx
    have hmem : p ∈ m.ingressQ.elems := by
      rw [Fifo.deq_eq_some hq]
      exact List.mem_cons_self
    refine .inr (.inr ⟨qp, p, hsound, hmem, fun f => ?_, fun g => ?_, fun r => rfl⟩)
    · have hw := Fifo.weight_deq (f := f) hq
      simp [parsedHeld]
      omega
    · have hw := Fifo.weight_enq (f := g) hx
      simp [admittedHeld]
      omega
  | _ =>
    obtain ⟨x, f, e, b, hx, rfl⟩ := hacts
    exact .inr (.inl ⟨p, drops_candidate hq hx _ _ _ _⟩)

/-- **Every firing moves packets as its label says.** -/
theorem step_flow {l : RqLabel} (h : m.step l = some m') : m.Flow m' l := by
  cases step_fires h with
  | configure hidle hm =>
    subst hm
    intro hzero
    refine ⟨fun f => ?_, fun g => rfl, fun r => rfl⟩
    simp [parsedHeld, ← hzero]
  | packetIn hq hm =>
    subst hm
    refine ⟨fun f => ?_, fun g => rfl, fun r => rfl⟩
    have hw := Fifo.weights_enq (f := f) hq
    simp [parsedHeld]
    omega
  | mergeIngressLane hphase hq hx hm =>
    subst hm
    refine ⟨fun f => ?_, fun g => rfl, fun r => rfl⟩
    have hw := Fifo.weights_deq (f := f) hq
    have hw' := Fifo.weight_enq (f := f) hx
    simp only [parsedHeld, List.map_nil, List.sum_nil]
    omega
  | putBack hbit hq hm =>
    subst hm
    refine .inl ⟨fun f => ?_, fun g => rfl, fun r => rfl⟩
    have hw := Fifo.weight_enq (f := f) hq
    have hring := ringWeight_clear f m.pendingPackets hbit
    simp only [parsedHeld, scanned, setPending, List.map_nil, List.sum_nil]
    omega
  | giveUp hbit hq hm =>
    subst hm
    refine .inr ⟨m.pendingPackets m.pendingScanQp m.pendingScanIndex, fun f => ?_, fun g => rfl,
      fun r => ?_⟩
    · have hring := ringWeight_clear f m.pendingPackets hbit
      simp only [parsedHeld, scanned, setPending, List.map_cons, List.map_nil, List.sum_cons,
        List.sum_nil]
      omega
    · have hw := Fifo.weight_enq (f := r) hq
      simp [releasesHeld, scanned, setPending]
      omega
  | age hm =>
    subst hm
    exact .inl ⟨fun f => rfl, fun g => rfl, fun r => rfl⟩
  | processCandidate hrun hq hacts => exact processCandidate_flow hq hacts
  | routeAdmitted hq hlane hx hm =>
    subst hm
    refine ⟨fun f => rfl, fun g => ?_, fun r => rfl⟩
    have hw := Fifo.weight_deq (f := g) hq
    have hw' := Fifo.weights_enq (f := g) hx
    simp only [admittedHeld, List.map_nil, List.sum_nil]
    omega
  | routeRelease hq hx hm =>
    subst hm
    refine ⟨fun f => rfl, fun g => rfl, fun r => ?_⟩
    have hw := Fifo.weight_deq (f := r) hq
    have hw' := Fifo.weights_enq (f := r) hx
    simp only [releasesHeld, List.map_nil, List.sum_nil]
    omega
  | admittedOut hq hm =>
    subst hm
    refine ⟨_, Fifo.first_of_deq hq, fun f => rfl, fun g => ?_, fun r => rfl⟩
    have hw := Fifo.weights_deq (f := g) hq
    simp [admittedHeld]
    omega
  | releaseOut hq hm =>
    subst hm
    refine ⟨_, Fifo.first_of_deq hq, fun f => rfl, fun g => rfl, fun r => ?_⟩
    have hw := Fifo.weights_deq (f := r) hq
    simp [releasesHeld]
    omega
  | _ =>
    subst_vars
    exact ⟨fun f => rfl, fun g => rfl, fun r => rfl⟩

end RxRqBitmapManager

end OpenRdma
