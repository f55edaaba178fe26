import OpenRdma.Rx.Retirement
import OpenRdma.Rx.RqFlow

/-!
# The slots of the packet buffers

A parsed packet stands for the slot of a packet buffer that its frame is in.  The slot is given back
by the window when it drops the packet, and by a lane when it is done with it or stops for good.

* **`slots_conserved`** — every slot taken is held or has been given back.
-/

namespace OpenRdma

variable (w : RxPayloadTag → ℕ)

/-! ## The lanes -/

namespace RxDmaLane

variable {lane : RxLaneId} {s s' : RxDmaLane}

def slotsHeld (s : RxDmaLane) : ℕ :=
  (s.held.map (w ·.payloadTag)).sum + s.releaseQ.weight (w ·.tag)

@[simp] def slotsIn : Option DmaLaneLabel → List RxPayloadTag
  | some (.admittedIn packet) => [packet.payloadTag]
  | _ => []

@[simp] def slotsOut (s : RxDmaLane) : Option DmaLaneLabel → List RxPayloadTag
  | some .releaseOut => (handedOut s.releaseOut).map (·.tag)
  | _ => []

/-- The current packet is gone, and its slot on the way back. -/
lemma releaseCurrent_weight {r : Fifo RxBufferRelease 4} (h : s.releaseCurrent = some r) :
    (s.admittedQ.elems.map (w ·.payloadTag)).sum + r.weight (w ·.tag) = s.slotsHeld w := by
  by_cases hactive : s.active = true
  · rw [releaseCurrent, if_pos hactive] at h
    simp [slotsHeld, held, hactive, Fifo.weight_enq h]
    omega
  · rw [releaseCurrent, if_neg hactive] at h
    cases h
    simp [slotsHeld, held, hactive]

/-- **A lane keeps account of its slots**, also when it stops. -/
theorem step_slots {o : Option DmaLaneLabel} (h : stepPart (step lane) s o = some s') :
    s'.slotsHeld w + ((s.slotsOut o).map w).sum = s.slotsHeld w + ((slotsIn o).map w).sum := by
  have hgone {r : Fifo RxBufferRelease 4} (hactive : s.active = true)
      (hr : s.releaseQ.enq ⟨s.current.payloadTag⟩ = some r) :=
    releaseCurrent_weight w (s := s) (by rw [releaseCurrent, if_pos hactive, hr])
  rcases stepPart_eq_some h with ⟨rfl, rfl⟩ | ⟨l, rfl, h⟩
  · rfl
  cases l with
  | beginPacket =>
    obtain ⟨-, hactive, packet, q, hq, ⟨e, r, -, hr, rfl⟩ | ⟨-, rfl⟩⟩ := beginPacket_eq_some h
    · simp [slotsHeld, held, hactive, Fifo.deq_eq_some hq, Fifo.weight_enq hr]
      omega
    · simp [slotsHeld, held, begun, hactive, Fifo.deq_eq_some hq]
  | consumePayloadRead =>
    obtain ⟨-, hactive, -, response, q, -, ⟨e, r, -, hr, rfl⟩ | ⟨b, -, -, rfl⟩⟩ :=
      consumePayloadRead_eq_some h
    · exact hgone hactive hr
    · rfl
  | finishPacket =>
    obtain ⟨-, hactive, -, completion, q, r, -, hr, ⟨e, rfl⟩ | ⟨-, -, c, -, rfl⟩⟩ :=
      finishPacket_eq_some h
    all_goals exact hgone hactive hr
  | rejectUnexpectedCompletion | rejectUnexpectedRead =>
    obtain ⟨-, h⟩ := guard_bind_eq_some.1 h
    obtain ⟨⟨x, q⟩, -, h⟩ := bind_eq_some.1 h
    obtain ⟨e, r, hr, rfl⟩ := abandon_eq_some h
    exact releaseCurrent_weight w hr
  | admittedIn packet =>
    obtain ⟨-, -, q, hq, rfl⟩ := admittedIn_eq_some h
    simp [slotsHeld, held, Fifo.enq_eq_some hq]
    omega
  | releaseOut =>
    obtain ⟨⟨a, t⟩, hout, rfl⟩ := Option.map_eq_some_iff.1 h
    obtain ⟨q, hq, rfl⟩ := releaseOut_eq_some hout
    simp [slotsHeld, held, Fifo.weight_deq hq, handedOut_of_eq_some hout]
    omega
  | configureEpoch value =>
    obtain ⟨-, rfl⟩ := configureEpoch_eq_some h
    rfl
  | sendDescriptor | requestPayload =>
    obtain ⟨-, h⟩ := guard_bind_eq_some.1 h
    obtain ⟨q, -, h⟩ := bind_eq_some.1 h
    cases h
    rfl
  | readResponseIn | completionIn =>
    obtain ⟨q, -, h⟩ := bind_eq_some.1 h
    cases h
    rfl
  | requestOut | readRequestOut | payloadOut | completedOut | errorOut =>
    obtain ⟨⟨a, t⟩, hout, rfl⟩ := Option.map_eq_some_iff.1 h
    obtain ⟨⟨b, q⟩, -, hout⟩ := bind_eq_some.1 hout
    cases hout
    rfl

end RxDmaLane

/-! ## The window -/

namespace RxRqBitmapManager

variable {m m' : RxRqBitmapManager}

def slotsHeld (m : RxRqBitmapManager) : ℕ :=
  m.parsedHeld (w ·.payloadTag) + m.admittedHeld (w ·.payloadTag) + m.releasesHeld (w ·.tag)

@[simp] def slotsIn : Option RqLabel → List RxPayloadTag
  | some (.packetIn _ packet) => [packet.payloadTag]
  | _ => []

@[simp] def slotsOut (m : RxRqBitmapManager) : Option RqLabel → List RxPayloadTag
  | some (.admittedOut i) => ((m.admittedQ i).first.map (·.payloadTag)).toList
  | some (.releaseOut i) => (handedOut (m.releaseOut i)).map (·.tag)
  | _ => []

lemma Moves.slots {ps ps' : List RxParsedPacket} {as as' : List RxAdmittedPacket}
    {xs xs' : List RxBufferRelease} (hm : m.Moves m' ps ps' as as' xs xs') :
    m'.slotsHeld w + ((ps'.map (w ·.payloadTag)).sum + (as'.map (w ·.payloadTag)).sum +
      (xs'.map (w ·.tag)).sum) =
    m.slotsHeld w + ((ps.map (w ·.payloadTag)).sum + (as.map (w ·.payloadTag)).sum +
      (xs.map (w ·.tag)).sum) := by
  have hparsed := hm.parsed (w ·.payloadTag)
  have hadmitted := hm.admitted (w ·.payloadTag)
  have hreleases := hm.releases (w ·.tag)
  simp only [slotsHeld]
  omega

/-- **The window keeps account of its slots.** -/
theorem step_slots (hrun : m.running = true) {o : Option RqLabel}
    (h : stepPart step m o = some m') :
    m'.slotsHeld w + ((m.slotsOut o).map w).sum = m.slotsHeld w + ((slotsIn o).map w).sum := by
  have hstays (hm : m.Moves m' [] [] [] [] [] []) : m'.slotsHeld w + 0 = m.slotsHeld w + 0 := by
    simpa using hm.slots w
  have hdrops (hm : ∃ p, m.Drops m' p) : m'.slotsHeld w + 0 = m.slotsHeld w + 0 := by
    obtain ⟨p, hp⟩ := hm
    simpa using hp.slots w
  rcases stepPart_eq_some h with ⟨rfl, rfl⟩ | ⟨l, rfl, hl⟩
  · rfl
  have hflow := step_flow hl
  cases l with
  | packetIn i packet => simpa using hflow.slots w
  | processCandidate =>
    rcases hflow with hflow | hflow | ⟨qp, p, -, -, hflow⟩
    · exact hstays hflow
    · exact hdrops hflow
    · simpa [RxRqState.admitted] using hflow.slots w
  | resolvePending => exact hflow.elim hstays hdrops
  | admittedOut i =>
    obtain ⟨a, hfirst, hflow⟩ := hflow
    simpa [hfirst] using hflow.slots w
  | releaseOut i =>
    obtain ⟨a, hfirst, hflow⟩ := hflow
    obtain ⟨⟨b, t⟩, hout, rfl⟩ := Option.map_eq_some_iff.1 hl
    obtain ⟨⟨c, q⟩, hq, heq⟩ := bind_eq_some.1 hout
    cases heq
    obtain rfl : b = a := Option.some.inj ((Fifo.first_of_deq hq).symm.trans hfirst)
    simpa [handedOut_of_eq_some hout] using hflow.slots w
  | configure qp cfg =>
    cases step_fires hl with
    | configure hidle hm => exact absurd hidle (ne_false_of_eq_true hrun)
  | _ => exact hstays hflow

end RxRqBitmapManager

/-! ## The receiver -/

/-- The slots taken, and those given back to the packet buffers. -/
structure SlotHistory where
  taken : List RxPayloadTag
  given : List RxPayloadTag

namespace RxReceiver

variable {s s' : RxReceiver} {l : ReceiverLabel}

def slotsHeld (s : RxReceiver) : ℕ := s.window.slotsHeld w + ∑ i, (s.dma.lanes i).slotsHeld w

@[simp] def observeSlots (s : RxReceiver) : ReceiverLabel → SlotHistory → SlotHistory
  | .packetIn _ packet, k => { k with taken := k.taken ++ [packet.payloadTag] }
  | .window r, k => { k with given := k.given ++ s.window.slotsOut (some r) }
  | .lane i r, k => { k with given := k.given ++ (s.dma.lanes i).slotsOut (some r) }
  | _, k => k

lemma sum_ite_none (i : RxLaneId) (o : RxLaneId → Option DmaLaneLabel)
    (f : RxLaneId → Option DmaLaneLabel → List RxPayloadTag) (hf : ∀ j, f j none = []) :
    ∑ j, ((f j (if i = j then o j else none)).map w).sum = ((f i (o i)).map w).sum := by
  rw [Finset.sum_eq_single i (fun j _ hj => by rw [if_neg hj.symm, hf]; rfl) (by simp), if_pos rfl]

/-- What leaves the window for a lane is not given back. -/
lemma step_account {k : SlotHistory} {n : ℕ} (hrun : s.window.running = true)
    (hs : s.step l = some s') (hk : s.slotsHeld w + (k.given.map w).sum = n + (k.taken.map w).sum) :
    s'.slotsHeld w + ((s.observeSlots l k).given.map w).sum = n +
      ((s.observeSlots l k).taken.map w).sum := by
  obtain ⟨hwindow, hlanes, -⟩ := step_parts hs
  have hw := RxRqBitmapManager.step_slots w hrun hwindow
  have hl := Finset.sum_congr rfl fun i (_ : i ∈ Finset.univ) => RxDmaLane.step_slots w (hlanes i)
  have hout i o := sum_ite_none w i o (fun j => (s.dma.lanes j).slotsOut) fun _ => rfl
  have hin i o := sum_ite_none w i o (fun _ => RxDmaLane.slotsIn) fun _ => rfl
  simp only [Finset.sum_add_distrib] at hl
  unfold slotsHeld at hk ⊢
  cases l with
  | connectAdmitted i =>
    simp only [onLane, hout, hin] at hl
    cases hfirst : (s.window.admittedQ i).first
    all_goals
      simp [onWindow, hfirst] at hl hw ⊢
      omega
  | window r =>
    cases r with
    | packetIn i packet => cases (guard_bind_eq_some.1 hs).1
    | _ =>
      simp [onWindow, onLane] at hl hw ⊢
      omega
  | lane i r =>
    simp only [onLane, hout, hin] at hl
    cases r with
    | admittedIn packet => cases (guard_bind_eq_some.1 hs).1
    | _ =>
      simp [onWindow] at hl hw ⊢
      omega
  | _ =>
    simp only [onLane, hout, hin] at hl
    simp [onWindow] at hl hw ⊢
    omega

/-- **Slots are neither lost nor doubled**, also when lanes stop.  From any state in which the
window runs, the slots held and those given back are together those held at first and those that
came in; an indicator for the weight says so of each slot. -/
theorem slots_conserved {s₀ s : RxReceiver} {k : SlotHistory} {labels : List ReceiverLabel}
    (hrunning : s₀.window.running = true)
    (hrun : fire (watched step observeSlots) (s₀, ⟨[], []⟩) labels = some (s, k))
    (w : RxPayloadTag → ℕ) :
    s.slotsHeld w + (k.given.map w).sum = s₀.slotsHeld w + (k.taken.map w).sum := by
  refine (fire_rule (P := fun p => p.1.window.running = true ∧
    p.1.slotsHeld w + (p.2.given.map w).sum = _ + (p.2.taken.map w).sum) ?_ ⟨hrunning, rfl⟩ hrun).2
  rintro ⟨s, k⟩ l ⟨s', k'⟩ ⟨hrunning, hk⟩ hstep
  obtain ⟨hs, rfl⟩ := watched_eq_some.1 hstep
  refine ⟨?_, step_account w hrunning hs hk⟩
  rcases stepPart_eq_some (step_parts hs).1 with ⟨-, hsame⟩ | ⟨r, -, hr⟩
  · rwa [hsame]
  · exact (RxRqBitmapManager.step_running hr hrunning).1

/-- Two packets; the slot of one has been given back. -/
theorem slots_conserved_crossed :
    ∃ s₀ s k, s₀.window.running = true ∧
      fire (watched step observeSlots) (s₀, ⟨[], []⟩) (crossedRun.drop 3 ++ [.lane 1 .releaseOut]) =
        some (s, k) ∧ k.given = [⟨1, 0, 0⟩] ∧
      s.slotsHeld (·.lane) + (k.given.map (·.lane.val)).sum =
        s₀.slotsHeld (·.lane) + (k.taken.map (·.lane.val)).sum := by
  have hview : (do
      let s₀ ← fire step (.initial (fun _ _ => default) (fun _ _ => 0)) (crossedRun.take 3)
      let p ← fire (watched step observeSlots) (s₀, ⟨[], []⟩)
        (crossedRun.drop 3 ++ [.lane 1 .releaseOut])
      return (s₀.window.running, p.2.given)) = some (true, [⟨1, 0, 0⟩]) := by decide +kernel
  obtain ⟨s₀, -, hview⟩ := bind_eq_some.1 hview
  obtain ⟨⟨s, k⟩, hrun, hview⟩ := bind_eq_some.1 hview
  obtain ⟨hrunning, hgiven⟩ := Prod.mk.inj (Option.some.inj hview)
  exact ⟨s₀, s, k, hrunning, hrun, hgiven, slots_conserved hrunning hrun _⟩

end RxReceiver

end OpenRdma
