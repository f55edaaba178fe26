import OpenRdma.Core.Lanes
import OpenRdma.Rx.MemoryIsolation
import OpenRdma.Rx.WholeMessages

/-!
# Packets are retired in the order of their admission

An admitted packet goes to its lane, and is done there when its completion has been consumed.  The
lanes are independent; packets are retired in the order of admission, whatever order they are done
in.  Each retired packet moves the DMA watermark of its queue pair, and the last one of a message is
reported.

* **`rx_retirement_exact`** — retirement, watermarks and completions in every run.
-/

namespace OpenRdma

open Function (update update_self update_of_ne update_eq_self)

/-! ## The lanes -/

/-- What a lane does with its packets on its own. -/
inductive RxDmaLane.Works (lane : RxLaneId) (s s' : RxDmaLane) : DmaLaneLabel → Prop
  | stops {k} (hfailed : s'.failed = true) (hepoch : s'.currentEpoch = s.currentEpoch) :
      Works lane s s' k
  | same {k} (hfailed : s'.failed = s.failed) (hepoch : s'.currentEpoch = s.currentEpoch)
      (hheld : s'.held = s.held) (hcompleted : s'.completedQ = s.completedQ) : Works lane s s' k
  | done {c} (hfailed : s'.failed = s.failed) (hepoch : s'.currentEpoch = s.currentEpoch)
      (hfirst : s.completionQ.first = some c) (hidentity : s.identityOk lane c = true)
      (hsuccess : c.success = true) (hheld : s.held = s.current :: s'.held)
      (hcompleted : s'.completedQ.elems = s.completedQ.elems ++ [s.current.retire]) :
      Works lane s s' .finishPacket

/-- **A lane is done with its packets one after the other.** -/
theorem RxDmaLane.step_works {lane : RxLaneId} {s s' : RxDmaLane} {k : DmaLaneLabel}
    (hstep : s.step lane k = some s') (hk : k.alone = true) : s.Works lane s' k := by
  cases step_fires hstep with
  | quiet hl hs => exact .same hs.failed hs.currentEpoch hs.held_eq hs.completedQ
  | stops hs => exact .stops hs.failed hs.currentEpoch
  | configureEpoch hactive hs => cases hk
  | admittedIn hconfigured hq hs => cases hk
  | beginPacket hactive hq hs =>
    subst hs
    exact .same rfl rfl (held_begun hactive hq) rfl
  | sendDescriptor hactive hq hs | requestOut hq hs | releaseOut hq hs =>
    subst hs
    exact .same rfl rfl rfl rfl
  | finishPacket hactive hq hr hidentity hsuccess hc hs =>
    subst hs
    refine .done rfl rfl ?_ hidentity hsuccess ?_ (Fifo.enq_eq_some hc)
    · rw [Fifo.first, Fifo.deq_eq_some hq, List.head?_cons]
    · rw [held, hactive]
      rfl
  | completedOut hq hs => cases hk

/-! ## The ordered queue -/

/-- The report of a complete message. -/
def RxDmaRetire.completion (retired : RxDmaRetire) : RxCompletion :=
  ⟨retired.qpn, retired.messageLastPsn, retired.messageBytes, true⟩

namespace RxOrderedQueueManager

variable {s s' : RxOrderedQueueManager}

/-- A firing that has nothing to do with retired packets. -/
structure SameRetire (s s' : RxOrderedQueueManager) : Prop where
  currentEpoch : s'.currentEpoch = s.currentEpoch
  dmaAck : s'.dmaAck = s.dmaAck
  retireQ : s'.retireQ = s.retireQ
  expectedRetire : s'.expectedRetire = s.expectedRetire
  completionQ : s'.completionQ = s.completionQ

lemma reportComplete_eq_some {retired : RxDmaRetire} {c : Fifo RxCompletion 8}
    (h : s.reportComplete retired = some c) :
    c.elems = s.completionQ.elems ++
      if retired.messageComplete then [retired.completion] else [] := by
  unfold reportComplete at h
  split at h
  · rename_i hcomplete
    rw [if_pos hcomplete]
    exact Fifo.enq_eq_some h
  · rename_i hcomplete
    rw [if_neg hcomplete, List.append_nil, Option.some.inj h]

lemma step_same_epoch {l : OrderedLabel} (h : s.step l = some s') (hl : l.alone = true) :
    s'.running = s.running ∧ s'.currentEpoch = s.currentEpoch := by
  cases step_fires h with
  | configureEpoch | start => cases hl
  | _ =>
    subst_vars
    exact ⟨rfl, rfl⟩

end RxOrderedQueueManager

/-! ## The receiver -/

/-- What was retired and reported. -/
structure RetireHistory where
  /-- The packets that the lanes have retired. -/
  retires : List RxDmaRetire
  /-- The completions that were delivered. -/
  delivered : List RxCompletion

def RetireHistory.empty : RetireHistory := ⟨[], []⟩

def observeRetire (p : RxReceiver × ReceiverHistory) : ReceiverLabel → RetireHistory → RetireHistory
  | .retireCompletedLane i, g =>
    { g with retires := g.retires ++ handedOut (p.1.dma.lanes i).completedOut }
  | .ordered .completionOut, g =>
    { g with delivered := g.delivered ++ handedOut p.1.ordered.completionOut }
  | _, g => g

/-- The receiver with its history, and the history of retirement. -/
def retireStep : (RxReceiver × ReceiverHistory) × RetireHistory → ReceiverLabel →
    Option ((RxReceiver × ReceiverHistory) × RetireHistory) :=
  watched receiverStep observeRetire

/-- The completion of a packet has been consumed: it is the one of the packet, and reports
success. -/
def Finished (s : RxReceiver) (h : ReceiverHistory) (p : RxAdmittedPacket) : Prop :=
  ∃ c, (p, c) ∈ h.finished ∧ c.success = true ∧ c.globalSeq = p.globalSeq ∧ c.lane = p.lane ∧
    c.epoch = s.ordered.currentEpoch

/-- The packets of a lane that are not done. -/
def RxReceiver.underway (s : RxReceiver) (i : RxLaneId) : List RxAdmittedPacket :=
  (s.dma.lanes i).held ++ s.window.route i

/-- The modules run together, in the same epoch. -/
structure Aligned (s : RxReceiver) : Prop where
  window : s.window.running = s.running
  ordered : s.ordered.running = s.running
  epochs : ∀ i, (s.dma.lanes i).currentEpoch = s.ordered.currentEpoch

/-- The lanes hold the admitted packets from the `n`-th on, some of them done. -/
structure LanesHold (s : RxReceiver) (h : ReceiverHistory) (n : ℕ)
    (done : RxLaneId → List RxAdmittedPacket) : Prop where
  completed : ∀ i, (s.dma.lanes i).completedQ.elems = (done i).map (·.retire)
  finished : ∀ i, ∀ p ∈ done i, Finished s h p
  merging : Merging (·.lane) (h.rq.admissions.map (·.admitted)) n done s.underway

/-- What was retired is what was admitted, from the start on, and all of it is done. -/
structure RetireInv (s : RxReceiver) (h : ReceiverHistory) (g : RetireHistory) : Prop where
  lanes : s.dma.faulted = false → ∃ done, LanesHold s h g.retires.length done
  retires : g.retires <+: h.rq.admissions.map (·.admitted.retire)
  finished : ∀ a ∈ h.rq.admissions.take g.retires.length, Finished s h a.admitted
  head : s.dma.head = BitVec.ofNat 64 g.retires.length
  queued : ∃ past, g.retires = past ++ (s.ordered.retireQ.elems ++ s.dma.retireQ.elems) ∧
    past.length = h.retired
  expected : s.ordered.expectedRetire = BitVec.ofNat 64 h.retired
  marks : ∀ qp, (s.ordered.cfgs qp).valid = true → s.ordered.dmaAck qp =
    (s.ordered.cfgs qp).initialPsn - 1 + BitVec.ofNat 24 (h.dmaMark qp)
  reported : g.delivered ++ s.ordered.completionQ.elems =
    ((h.rq.admissions.take h.retired).filter (·.admitted.messageComplete)).map
    (·.admitted.retire.completion)

section Receiver

variable {s s' : RxReceiver} {h h' : ReceiverHistory} {g : RetireHistory} {p : RxAdmittedPacket}

lemma Finished.mono (hp : Finished s h p)
    (hepoch : s'.ordered.currentEpoch = s.ordered.currentEpoch) (hmore : h.finished ⊆ h'.finished) :
    Finished s' h' p := by
  obtain ⟨c, hc, hsuccess, hseq, hlane, hcepoch⟩ := hp
  exact ⟨c, hmore hc, hsuccess, hseq, hlane, hcepoch.trans hepoch.symm⟩

/-- No more packets are retired than were admitted. -/
lemma RetireInv.lengths (hi : RetireInv s h g) :
    h.retired ≤ g.retires.length ∧ g.retires.length ≤ h.rq.admissions.length := by
  obtain ⟨past, hpast, hlength⟩ := hi.queued
  refine ⟨?_, ?_⟩
  · rw [hpast, List.length_append, hlength]
    exact Nat.le_add_right _ _
  · have := hi.retires.length_le
    rwa [List.length_map] at this

/-- Packets come in at the end of the lanes; nothing is retired. -/
lemma RetireInv.passes (hi : RetireInv s h g) (new : List RqAdmission)
    (hadmissions : h'.rq.admissions = h.rq.admissions ++ new)
    (hunderway : ∀ i, s'.underway i = s.underway i ++ (new.map (·.admitted)).filter (·.lane = i))
    (hcompleted : ∀ i, (s'.dma.lanes i).completedQ = (s.dma.lanes i).completedQ)
    (hfaulted : s'.dma.faulted = false → s.dma.faulted = false)
    (hdma : s'.dma.retireQ = s.dma.retireQ) (hhead : s'.dma.head = s.dma.head)
    (hordered : s.ordered.SameRetire s'.ordered) (hcfgs : s'.ordered.cfgs = s.ordered.cfgs)
    (hretired : h'.retired = h.retired) (hmore : h.finished ⊆ h'.finished) : RetireInv s' h' g := by
  obtain ⟨hle, hlen⟩ := hi.lengths
  have htake : h'.rq.admissions.take h'.retired = h.rq.admissions.take h.retired := by
    rw [hadmissions, hretired, List.take_append_of_le_length (hle.trans hlen)]
  refine ⟨?_, ?_, ?_, ?_, ?_, ?_, ?_, ?_⟩
  · intro hnone
    obtain ⟨done, hdone⟩ := hi.lanes (hfaulted hnone)
    refine ⟨done, ?_, ?_, ?_⟩
    · intro i
      rw [hcompleted]
      exact hdone.completed i
    · exact fun i p hp => (hdone.finished i p hp).mono hordered.currentEpoch hmore
    · rw [hadmissions, List.map_append, show s'.underway = _ from funext hunderway]
      exact hdone.merging.push (by rw [List.length_map]; exact hlen) _
  · rw [hadmissions, List.map_append]
    exact hi.retires.trans (List.prefix_append _ _)
  · rw [hadmissions, List.take_append_of_le_length hlen]
    exact fun a ha => (hi.finished a ha).mono hordered.currentEpoch hmore
  · rw [hhead]
    exact hi.head
  · rw [hordered.retireQ, hdma, hretired]
    exact hi.queued
  · rw [hordered.expectedRetire, hretired]
    exact hi.expected
  · rw [hordered.dmaAck, hcfgs]
    intro qp hvalid
    rw [ReceiverHistory.dmaMark, htake]
    exact hi.marks qp hvalid
  · rw [hordered.completionQ, htake]
    exact hi.reported

variable {i : RxLaneId} {t : RxDmaLane}

/-- The packets of the lanes when one of the lanes has moved. -/
lemma underway_update {d : RxDmaPlacement} (hlanes : d.lanes = update s.dma.lanes i t) :
    RxReceiver.underway { s with dma := d } =
      update s.underway i (t.held ++ s.window.route i) := by
  funext j
  rw [RxReceiver.underway, hlanes]
  by_cases hj : j = i
  · subst hj
    rw [update_self, update_self]
  · rw [update_of_ne hj, update_of_ne hj]
    rfl

/-- A lane that has not stopped, and moves on, leaves the lanes without a fault. -/
lemma faulted_update {d : RxDmaPlacement} (hfailed : t.failed = (d.lanes i).failed)
    (hnone : RxDmaPlacement.faulted { d with lanes := update d.lanes i t } = false) :
    d.faulted = false := by
  rw [RxDmaPlacement.faulted, decide_eq_false_iff_not] at hnone ⊢
  rintro ⟨j, hj⟩
  refine hnone ⟨j, ?_⟩
  dsimp only
  by_cases hji : j = i
  · subst hji
    rw [update_self, hfailed]
    exact hj
  · rw [update_of_ne hji]
    exact hj

/-- A lane is done with a packet. -/
lemma RetireInv.finishes (hi : RetireInv s h g) (ha : Aligned s)
    {c : RxDmaCompletion} (hfailed : t.failed = (s.dma.lanes i).failed)
    (hidentity : (s.dma.lanes i).identityOk i c = true) (hsuccess : c.success = true)
    (hheld : (s.dma.lanes i).held = (s.dma.lanes i).current :: t.held)
    (hcompleted : t.completedQ.elems = (s.dma.lanes i).completedQ.elems ++
      [(s.dma.lanes i).current.retire]) :
    RetireInv { s with dma := { s.dma with lanes := update s.dma.lanes i t } }
      { h with finished := h.finished ++ [((s.dma.lanes i).current, c)] } g := by
  simp only [RxDmaLane.identityOk, Bool.and_eq_true, beq_iff_eq] at hidentity
  have hmono : ∀ p, Finished s h p →
      Finished s { h with finished := h.finished ++ [((s.dma.lanes i).current, c)] } p :=
    fun p hp => hp.mono rfl (List.subset_append_left _ _)
  refine ⟨?_, hi.retires, fun a ha => hmono _ (hi.finished a ha), hi.head, hi.queued, hi.expected,
    hi.marks, hi.reported⟩
  intro hnone
  obtain ⟨done, hdone⟩ := hi.lanes (faulted_update hfailed hnone)
  have hwaiting : s.underway i = (s.dma.lanes i).current :: (t.held ++ s.window.route i) := by
    rw [RxReceiver.underway, hheld]
    rfl
  have hlane := (hdone.merging.mem_waiting (hwaiting ▸ List.mem_cons_self)).2
  refine ⟨update done i (done i ++ [(s.dma.lanes i).current]), ?_, ?_, ?_⟩
  · intro j
    dsimp only
    by_cases hj : j = i
    · subst hj
      rw [update_self, update_self, hcompleted, hdone.completed, List.map_append]
      rfl
    · rw [update_of_ne hj, update_of_ne hj]
      exact hdone.completed j
  · intro j q hq
    by_cases hj : j = i
    · subst hj
      rw [update_self, List.mem_append, List.mem_singleton] at hq
      rcases hq with hq | rfl
      · exact hmono _ (hdone.finished j q hq)
      · exact ⟨c, List.mem_append_right _ (List.mem_singleton_self _), hsuccess, hidentity.1.1,
          hidentity.2.trans hlane.symm, hidentity.1.2.trans (ha.epochs j)⟩
    · rw [update_of_ne hj] at hq
      exact hmono _ (hdone.finished j q hq)
  · rw [underway_update rfl]
    exact hdone.merging.work hwaiting

lemma prefix_snoc {α : Type} {l all : List α} {a : α} (h : l <+: all)
    (ha : all[l.length]? = some a) : l ++ [a] <+: all := by
  obtain ⟨rest, rfl⟩ := h
  rw [List.getElem?_append_right le_rfl, Nat.sub_self] at ha
  cases rest with
  | nil => cases ha
  | cons b rest =>
    cases ha
    exact ⟨rest, by simp⟩

/-- A lane holds no more packets than its queues have room for. -/
lemma LanesHold.bounded {n : ℕ} {done : RxLaneId → List RxAdmittedPacket}
    (hd : LanesHold s h n done) (i : RxLaneId) : (done i).length + (s.underway i).length ≤ 45 := by
  have hcompleted := (s.dma.lanes i).completedQ.bounded
  have hadmitted := (s.dma.lanes i).admittedQ.bounded
  have hwindow := (s.window.admittedQ i).bounded
  have hroute := s.window.admittedRouteQ.bounded
  have hfilter := List.length_filter_le (fun p : RxAdmittedPacket => decide (p.lane = i))
    s.window.admittedRouteQ.elems
  rw [hd.completed, List.length_map] at hcompleted
  simp only [RxReceiver.underway, RxRqBitmapManager.route, RxDmaLane.held, List.length_append]
  split <;> simp only [List.length_nil, List.length_singleton] <;> omega

/-- The completed packet at the head of a lane has the next number. -/
lemma retireCompletedLane_eq_some {d d' : RxDmaPlacement} (h : d.retireCompletedLane i = some d') :
    d.faulted = false ∧ ∃ value t, (d.lanes i).completedOut = some (value, t) ∧
      (d.lanes i).completedQ.elems = value :: t.completedQ.elems ∧ t.held = (d.lanes i).held ∧
      t.currentEpoch = (d.lanes i).currentEpoch ∧ value.globalSeq = d.head ∧
      d'.lanes = update d.lanes i t ∧ d'.retireQ.elems = d.retireQ.elems ++ [value] ∧
      d'.head = d.head + 1 := by
  obtain ⟨hnone, h⟩ := guard_bind_eq_some.1 h
  obtain ⟨⟨value, t⟩, hout, h⟩ := bind_eq_some.1 h
  obtain ⟨hseq, h⟩ := guard_bind_eq_some.1 h
  obtain ⟨r, hr, h⟩ := bind_eq_some.1 h
  cases h
  obtain ⟨q, hq, rfl⟩ := RxDmaLane.completedOut_eq_some hout
  exact ⟨by simpa using hnone, value, { d.lanes i with completedQ := q }, hout,
    Fifo.deq_eq_some hq, rfl, rfl, hseq, rfl, Fifo.enq_eq_some hr, rfl⟩

/-- **The next packet in the order of admission is retired.** -/
lemma RetireInv.retiresLane (hi : RetireInv s h g) (hw : RqInv s.window h.rq)
    {d : RxDmaPlacement} (hretire : s.dma.retireCompletedLane i = some d) :
    RetireInv { s with dma := d } h
      { g with retires := g.retires ++ handedOut (s.dma.lanes i).completedOut } := by
  obtain ⟨hnone, value, t, hout, hq, hheld, -, hseq, hlanes, hr, hhead⟩ :=
    retireCompletedLane_eq_some hretire
  rw [handedOut_of_eq_some hout]
  obtain ⟨done, hdone⟩ := hi.lanes hnone
  obtain ⟨p, rest, hp, hvalue, hrest⟩ : ∃ p rest, done i = p :: rest ∧ p.retire = value ∧
      rest.map (·.retire) = t.completedQ.elems := by
    have hcompleted := hdone.completed i
    rw [hq] at hcompleted
    exact List.map_eq_cons_iff.1 hcompleted.symm
  have hnumbered : ∀ k (a : RxAdmittedPacket), (h.rq.admissions.map (·.admitted))[k]? = some a →
      a.globalSeq = BitVec.ofNat 64 k := by
    intro k a ha
    rw [List.getElem?_map] at ha
    obtain ⟨b, hb, rfl⟩ := Option.map_eq_some_iff.1 ha
    exact hw.numbered k b hb
  have hnext : p.globalSeq = BitVec.ofNat 64 g.retires.length := by
    rw [← hi.head, ← hseq, ← hvalue]
    rfl
  obtain ⟨hget, hmerging⟩ := hdone.merging.take (fun p => p.globalSeq) hnumbered
    hdone.bounded (by decide) hp hnext
  obtain ⟨a, hadmission, rfl⟩ : ∃ a, h.rq.admissions[g.retires.length]? = some a ∧
      a.admitted = p := by
    rw [List.getElem?_map] at hget
    exact Option.map_eq_some_iff.1 hget
  have hlen : (g.retires ++ [value]).length = g.retires.length + 1 := List.length_append
  refine ⟨?_, ?_, ?_, ?_, ?_, hi.expected, hi.marks, hi.reported⟩
  · intro _
    rw [hlen]
    refine ⟨update done i rest, ?_, ?_, ?_⟩
    · intro j
      dsimp only
      rw [hlanes]
      by_cases hj : j = i
      · subst hj
        rw [update_self, update_self, hrest]
      · rw [update_of_ne hj, update_of_ne hj]
        exact hdone.completed j
    · intro j x hx
      refine hdone.finished j x ?_
      by_cases hj : j = i
      · subst hj
        rw [update_self] at hx
        exact hp ▸ List.mem_cons_of_mem _ hx
      · rw [update_of_ne hj] at hx
        exact hx
    · have hunderway : RxReceiver.underway { s with dma := d } = s.underway := by
        rw [underway_update hlanes, hheld]
        exact update_eq_self i s.underway
      rw [hunderway]
      exact hmerging
  · refine prefix_snoc hi.retires ?_
    rw [List.getElem?_map, hadmission, ← hvalue]
    rfl
  · rw [hlen, List.take_add_one, hadmission]
    intro b hb
    rcases List.mem_append.1 hb with hb | hb
    · exact hi.finished b hb
    · rw [Option.toList_some, List.mem_singleton] at hb
      rw [hb]
      exact hdone.finished i _ (hp ▸ List.mem_cons_self)
  · rw [hlen, BitVec.ofNat_add, ← hi.head]
    exact hhead
  · obtain ⟨past, hpast, hlength⟩ := hi.queued
    refine ⟨past, ?_, hlength⟩
    rw [hpast, hr]
    simp

/-- The ordered queue takes a retired packet over. -/
lemma RetireInv.connects (hi : RetireInv s h g) {value : RxDmaRetire}
    {q r : Fifo RxDmaRetire 8} (hq : s.dma.retireQ.elems = value :: q.elems)
    (hr : r.elems = s.ordered.retireQ.elems ++ [value]) :
    RetireInv { s with
      dma := { s.dma with retireQ := q }
      ordered := { s.ordered with retireQ := r } } h g := by
  refine ⟨?_, hi.retires, hi.finished, hi.head, ?_, hi.expected, hi.marks, hi.reported⟩
  · intro hnone
    obtain ⟨done, hdone⟩ := hi.lanes hnone
    exact ⟨done, hdone.completed, hdone.finished, hdone.merging⟩
  · obtain ⟨past, hpast, hlength⟩ := hi.queued
    refine ⟨past, ?_, hlength⟩
    rw [hpast, hr, hq]
    simp

variable {retired : RxDmaRetire}

/-- The packet that the ordered queue retires next is the next one in the order of admission. -/
lemma RetireInv.next (hi : RetireInv s h g) {rest : List RxDmaRetire}
    (hq : s.ordered.retireQ.elems = retired :: rest) :
    ∃ a, h.rq.admissions[h.retired]? = some a ∧ a.admitted.retire = retired := by
  obtain ⟨past, hpast, hlength⟩ := hi.queued
  obtain ⟨later, hlater⟩ := hi.retires
  have hget : (h.rq.admissions.map (·.admitted.retire))[h.retired]? = some retired := by
    rw [← hlater, hpast, hq, ← hlength]
    simp
  rw [List.getElem?_map] at hget
  exact Option.map_eq_some_iff.1 hget

/-- **The check of a retired packet cannot fail.** -/
lemma RetireInv.checked (hi : RetireInv s h g) (hw : RqInv s.window h.rq)
    {rest : List RxDmaRetire} (hq : s.ordered.retireQ.elems = retired :: rest) :
    retired.success = true ∧ retired.globalSeq = s.ordered.expectedRetire := by
  obtain ⟨a, ha, rfl⟩ := hi.next hq
  exact ⟨rfl, (hw.numbered _ a ha).trans hi.expected.symm⟩

lemma take_succ_of_getElem? {α : Type} {l : List α} {k : ℕ} {a : α} (h : l[k]? = some a) :
    l.take (k + 1) = l.take k ++ [a] := by
  rw [List.take_add_one, h]
  rfl

/-- What an admission says about the packets before it. -/
lemma RqAckInv.at {m : RxRqBitmapManager} {r : RqHistory} (hi : RqAckInv m r) {k : ℕ}
    {a : RqAdmission} (ha : r.admissions[k]? = some a) :
    AckAfter (m.cfgs a.admitted.qp) (r.admissions.take k) a := by
  refine hi.acks (r.admissions.take k) a (r.admissions.drop (k + 1)) ?_
  obtain ⟨hk, rfl⟩ := List.getElem?_eq_some_iff.1 ha
  rw [← List.drop_eq_getElem_cons hk, List.take_append_drop]

/-- The DMA watermark of a queue pair moves on with a retired packet. -/
lemma dmaMark_succ {a : RqAdmission} (ha : h.rq.admissions[h.retired]? = some a) (qp : RxQpIndex) :
    ReceiverHistory.dmaMark { h with retired := h.retired + 1 } qp =
      if a.admitted.qp = qp then a.acked else h.dmaMark qp := by
  rw [ReceiverHistory.dmaMark, take_succ_of_getElem? ha, ackedAfter_concat]
  rfl

/-- **A retired packet moves the watermark of its queue pair, and is reported if it completes its
message.** -/
lemma RetireInv.processes (hi : RetireInv s h g) (hacks : RqAckInv s.window h.rq)
    (hcfgs : s.ordered.cfgs = s.window.cfgs) {q : Fifo RxDmaRetire 8}
    {c : Fifo RxCompletion 8} (hq : s.ordered.retireQ.deq = some (retired, q))
    (hc : s.ordered.reportComplete retired = some c) :
    RetireInv { s with ordered := { s.ordered with
        retireQ := q
        expectedRetire := s.ordered.expectedRetire + 1
        dmaAck := if retired.ackValid then
            update s.ordered.dmaAck retired.qp retired.ackPsnAfterMerge
          else s.ordered.dmaAck
        completionQ := c } } { h with retired := h.retired + 1 } g := by
  have hq := Fifo.deq_eq_some hq
  obtain ⟨a, ha, rfl⟩ := hi.next hq
  have hafter := hacks.at ha
  refine ⟨?_, hi.retires, hi.finished, hi.head, ?_, ?_, ?_, ?_⟩
  · intro hnone
    obtain ⟨done, hdone⟩ := hi.lanes hnone
    exact ⟨done, hdone.completed, hdone.finished, hdone.merging⟩
  · obtain ⟨past, hpast, hlength⟩ := hi.queued
    refine ⟨past ++ [a.admitted.retire], ?_, by rw [List.length_append, hlength]; rfl⟩
    rw [hpast, hq]
    simp
  · rw [BitVec.ofNat_add, ← hi.expected]
    rfl
  · intro qp hvalid
    rw [dmaMark_succ ha]
    dsimp only at hvalid ⊢
    by_cases hqp : a.admitted.qp = qp
    · subst hqp
      rw [if_pos rfl]
      cases hack : a.admitted.ackValid with
      | true =>
        rw [if_pos (by exact hack), hcfgs]
        exact (update_self _ _ _).trans hafter.ackPsn
      | false =>
        rw [if_neg (by simp [RxAdmittedPacket.retire, hack]), hafter.unchanged hack]
        exact hi.marks _ hvalid
    · rw [if_neg hqp]
      refine Eq.trans ?_ (hi.marks qp hvalid)
      split
      · exact update_of_ne (Ne.symm hqp) _ _
      · rfl
  · rw [take_succ_of_getElem? ha, RxOrderedQueueManager.reportComplete_eq_some hc,
      ← List.append_assoc, hi.reported, List.filter_append, List.map_append]
    congr 1
    cases hcomplete : a.admitted.messageComplete with
    | true => simp [RxAdmittedPacket.retire, hcomplete]
    | false => simp [RxAdmittedPacket.retire, hcomplete]

/-- A completion is delivered. -/
lemma RetireInv.delivers (hi : RetireInv s h g) {value : RxCompletion} {q : Fifo RxCompletion 8}
    (hq : s.ordered.completionQ.deq = some (value, q)) :
    RetireInv { s with ordered := { s.ordered with completionQ := q } } h
      { g with delivered := g.delivered ++ handedOut s.ordered.completionOut } := by
  have hout : s.ordered.completionOut = some (value, { s.ordered with completionQ := q }) :=
    bind_eq_some.2 ⟨_, hq, rfl⟩
  rw [handedOut_of_eq_some hout]
  have hq := Fifo.deq_eq_some hq
  refine ⟨?_, hi.retires, hi.finished, hi.head, hi.queued, hi.expected, hi.marks, ?_⟩
  · intro hnone
    obtain ⟨done, hdone⟩ := hi.lanes hnone
    exact ⟨done, hdone.completed, hdone.finished, hdone.merging⟩
  · rw [List.append_assoc, List.singleton_append, ← hq]
    exact hi.reported

/-- Before anything is admitted, there is nothing to be retired. -/
lemma RetireInv.idles (hi : RetireInv s h g) (hnone : h.rq.admissions = [])
    (hlanes : ∀ i, (s'.dma.lanes i).completedQ = (s.dma.lanes i).completedQ ∧
      (s'.dma.lanes i).failed = (s.dma.lanes i).failed ∧ s'.underway i = s.underway i)
    (hdma : s'.dma.retireQ = s.dma.retireQ) (hhead : s'.dma.head = s.dma.head)
    (hretireQ : s'.ordered.retireQ = s.ordered.retireQ)
    (hexpected : s'.ordered.expectedRetire = s.ordered.expectedRetire)
    (hcompletion : s'.ordered.completionQ = s.ordered.completionQ)
    (hack : ∀ qp, (s'.ordered.cfgs qp).valid = true →
      s'.ordered.dmaAck qp = s.ordered.dmaAck qp ∧ s'.ordered.cfgs qp = s.ordered.cfgs qp ∨
        s'.ordered.dmaAck qp = (s'.ordered.cfgs qp).initialPsn - 1) : RetireInv s' h g := by
  refine ⟨?_, hi.retires, ?_, by rw [hhead]; exact hi.head, by rw [hretireQ, hdma]; exact hi.queued,
    by rw [hexpected]; exact hi.expected, ?_, by rw [hcompletion]; exact hi.reported⟩
  · intro hfaulted
    have hbefore : s.dma.faulted = false := by
      rw [RxDmaPlacement.faulted, decide_eq_false_iff_not] at hfaulted ⊢
      rintro ⟨i, hi⟩
      exact hfaulted ⟨i, by rw [(hlanes i).2.1]; exact hi⟩
    obtain ⟨done, hdone⟩ := hi.lanes hbefore
    refine ⟨done, fun i => by rw [(hlanes i).1]; exact hdone.completed i, ?_, ?_⟩
    · intro i p hp
      obtain ⟨hmem, -⟩ := hdone.merging.mem_done hp
      rw [hnone] at hmem
      cases hmem
    · rw [show s'.underway = s.underway from funext fun i => (hlanes i).2.2]
      exact hdone.merging
  · intro a ha
    rw [hnone, List.take_nil] at ha
    cases ha
  · intro qp hvalid
    rcases hack qp hvalid with ⟨hsame, hcfg⟩ | hreset
    · rw [hcfg] at hvalid
      rw [hsame, hcfg]
      exact hi.marks qp hvalid
    · rw [hreset, ReceiverHistory.dmaMark, hnone, List.take_nil]
      exact (BitVec.add_zero _).symm

/-- The window moves on. -/
lemma RetireInv.windowMoves (hi : RetireInv s h g) {k : RqLabel}
    (hstep : s.window.step k = some s'.window) (hk : ∀ i, k ≠ .admittedOut i)
    (hdma : s'.dma = s.dma) (hordered : s.ordered.SameRetire s'.ordered)
    (hcfgs : s'.ordered.cfgs = s.ordered.cfgs) :
    RetireInv s' { h with rq := s.window.observe k h.rq } g := by
  obtain ⟨new, hnew, hroute⟩ := RxRqBitmapManager.route_step (h := h.rq) hstep
  refine hi.passes _ hnew ?_ (fun i => by rw [hdma]) (by rw [hdma]; exact id) (by rw [hdma])
    (by rw [hdma]) hordered hcfgs rfl (List.Subset.refl _)
  intro i
  obtain ⟨passed, -, hnone, hpassed⟩ := hroute i
  rw [hnone (hk i), List.nil_append] at hpassed
  rw [RxReceiver.underway, hdma, hpassed, ← List.append_assoc]
  rfl

/-- A lane moves on, on its own. -/
lemma RetireInv.laneMoves (hi : RetireInv s h g) (ha : Aligned s) {k : DmaLaneLabel}
    (hstep : (s.dma.lanes i).step i k = some t) (hk : k.alone = true) :
    RetireInv { s with dma := { s.dma with lanes := update s.dma.lanes i t } }
      (s.observe (.lane i k) h) g := by
  have hrq : (s.observe (.lane i k) h).rq = h.rq := s.observe_rq _
  have hretired : (s.observe (.lane i k) h).retired = h.retired := by
    cases k <;> rfl
  have hmore : h.finished ⊆ (s.observe (.lane i k) h).finished := by
    cases k <;> first | exact List.Subset.refl _ | exact List.subset_append_left _ _
  cases RxDmaLane.step_works hstep hk with
  | stops hfailed hepoch =>
    refine ⟨?_, by rw [hrq]; exact hi.retires, ?_, hi.head, by rw [hretired]; exact hi.queued,
      by rw [hretired]; exact hi.expected, ?_, by rw [hretired, hrq]; exact hi.reported⟩
    · intro hnone
      rw [RxDmaPlacement.faulted, decide_eq_false_iff_not] at hnone
      refine absurd ⟨i, ?_⟩ hnone
      dsimp only
      rw [update_self]
      exact hfailed
    · rw [hrq]
      exact fun a ha => (hi.finished a ha).mono rfl hmore
    · intro qp hvalid
      rw [ReceiverHistory.dmaMark, hrq, hretired]
      exact hi.marks qp hvalid
  | same hfailed hepoch hheld hcompleted =>
    refine hi.passes [] (by rw [hrq, List.append_nil]) ?_ ?_ (faulted_update hfailed) rfl rfl
      ⟨rfl, rfl, rfl, rfl, rfl⟩ rfl hretired hmore
    · intro j
      rw [underway_update rfl, hheld]
      exact (congrFun (update_eq_self i s.underway) j).trans (List.append_nil _).symm
    · intro j
      dsimp only
      by_cases hj : j = i
      · subst hj
        rw [update_self]
        exact hcompleted
      · rw [update_of_ne hj]
  | done hfailed hepoch hfirst hidentity hsuccess hheld hcompleted =>
    simp only [RxReceiver.observe, hfirst]
    exact hi.finishes ha hfailed hidentity hsuccess hheld hcompleted

/-- The ordered queue moves on, on its own. -/
lemma RetireInv.orderedMoves (hi : RetireInv s h g) (hw : RqInv s.window h.rq)
    (hacks : RqAckInv s.window h.rq) (hcfgs : s.ordered.cfgs = s.window.cfgs) {k : OrderedLabel}
    {t : RxOrderedQueueManager} (hstep : s.ordered.step k = some t) (hk : k.alone = true) :
    RetireInv { s with ordered := t } (s.observe (.ordered k) h)
      (observeRetire (s, h) (.ordered k) g) := by
  cases RxOrderedQueueManager.step_fires hstep with
  | configureEpoch | configure | start | retireIn => cases hk
  | badRetire hrun hq hbad hs => exact absurd (hi.checked hw (Fifo.deq_eq_some hq)) hbad
  | processRetire hq hc hs =>
    subst hs
    exact hi.processes hacks hcfgs hq hc
  | completionOut hq hs =>
    subst hs
    exact hi.delivers hq
  | _ =>
    subst_vars
    exact hi.passes [] (List.append_nil _).symm (fun i => (List.append_nil _).symm)
      (fun i => rfl) id rfl rfl ⟨rfl, rfl, rfl, rfl, rfl⟩ rfl rfl (List.Subset.refl _)

lemma Aligned.initial (packets : RxQpIndex → RxWindowIndex → RxParsedPacket)
    (age : RxQpIndex → RxWindowIndex → BitVec 8) : Aligned (.initial packets age) :=
  ⟨rfl, rfl, fun _ => rfl⟩

/-- A lane that moves on stays in its epoch. -/
lemma Aligned.lane (ha : Aligned s) (hepoch : t.currentEpoch = (s.dma.lanes i).currentEpoch)
    (j : RxLaneId) : (update s.dma.lanes i t j).currentEpoch = s.ordered.currentEpoch := by
  by_cases hj : j = i
  · subst hj
    rw [update_self, hepoch]
    exact ha.epochs j
  · rw [update_of_ne hj]
    exact ha.epochs j

variable {l : ReceiverLabel}

/-- **Every rule and method of the receiver keeps the modules together, and the order of
retirement.** -/
theorem RetireInv.step (hi : RetireInv s h g) (hconfined : Confined s h)
    (hacks : RqAckInv s.window h.rq) (ha : Aligned s) (hs : s.step l = some s') :
    Aligned s' ∧ RetireInv s' (s.observe l h) (observeRetire (s, h) l g) := by
  have hidle : s.running = false → h.rq.admissions = [] := by
    intro hidle
    exact (hconfined.window.idle (ha.window.trans hidle)).1
  cases l with
  | configureEpoch value =>
    obtain ⟨hguard, hs⟩ := guard_bind_eq_some.1 hs
    obtain ⟨dma, hdma, hs⟩ := bind_eq_some.1 hs
    obtain ⟨ordered, hordered, hs⟩ := bind_eq_some.1 hs
    cases hs
    obtain ⟨-, hdma⟩ := guard_bind_eq_some.1 hdma
    cases hdma
    obtain ⟨-, hordered⟩ := guard_bind_eq_some.1 hordered
    cases hordered
    refine ⟨⟨ha.window, ha.ordered, fun _ => rfl⟩, ?_⟩
    exact hi.idles (hidle (by simpa using hguard)) (fun i => ⟨rfl, rfl, rfl⟩) rfl rfl rfl rfl rfl
      fun qp _ => .inl ⟨rfl, rfl⟩
  | configureQp index cfg =>
    obtain ⟨hguard, hs⟩ := guard_bind_eq_some.1 hs
    obtain ⟨window, hwindow, hs⟩ := bind_eq_some.1 hs
    obtain ⟨ordered, hordered, hs⟩ := bind_eq_some.1 hs
    cases hs
    obtain ⟨-, hwindow⟩ := guard_bind_eq_some.1 hwindow
    cases hwindow
    obtain ⟨-, hordered⟩ := guard_bind_eq_some.1 hordered
    cases hordered
    refine ⟨⟨ha.window, ha.ordered, ha.epochs⟩, ?_⟩
    refine hi.idles (hidle (by simpa using hguard)) (fun i => ⟨rfl, rfl, rfl⟩) rfl rfl rfl rfl
      rfl ?_
    intro qp _
    dsimp only
    by_cases hqp : qp = index
    · subst hqp
      rw [update_self, update_self]
      exact .inr rfl
    · rw [update_of_ne hqp, update_of_ne hqp]
      exact .inl ⟨rfl, rfl⟩
  | start =>
    obtain ⟨-, hs⟩ := guard_bind_eq_some.1 hs
    obtain ⟨window, hwindow, hs⟩ := bind_eq_some.1 hs
    obtain ⟨ordered, hordered, hs⟩ := bind_eq_some.1 hs
    cases hs
    obtain ⟨-, hordered⟩ := guard_bind_eq_some.1 hordered
    cases hordered
    refine ⟨⟨?_, rfl, ha.epochs⟩, ?_⟩
    · obtain ⟨-, hwindow⟩ := guard_bind_eq_some.1 hwindow
      cases hwindow
      rfl
    · exact hi.windowMoves (k := .start) hwindow nofun rfl ⟨rfl, rfl, rfl, rfl, rfl⟩ rfl
  | packetIn lane packet =>
    obtain ⟨-, hs⟩ := guard_bind_eq_some.1 hs
    obtain ⟨window, hwindow, hs⟩ := bind_eq_some.1 hs
    cases hs
    refine ⟨⟨?_, ha.ordered, ha.epochs⟩, ?_⟩
    · exact (RxRqBitmapManager.step_same_running (l := .packetIn lane packet) hwindow nofun).trans
        ha.window
    · exact hi.windowMoves (k := .packetIn lane packet) hwindow nofun rfl
        ⟨rfl, rfl, rfl, rfl, rfl⟩ rfl
  | window k =>
    obtain ⟨halone, hs⟩ := guard_bind_eq_some.1 hs
    obtain ⟨window, hwindow, hs⟩ := bind_eq_some.1 hs
    cases hs
    refine ⟨⟨?_, ha.ordered, ha.epochs⟩, ?_⟩
    · refine (RxRqBitmapManager.step_same_running hwindow ?_).trans ha.window
      rintro rfl
      cases halone
    · refine hi.windowMoves hwindow ?_ rfl ⟨rfl, rfl, rfl, rfl, rfl⟩ rfl
      rintro i rfl
      cases halone
  | connectAdmitted j =>
    obtain ⟨⟨packet, window⟩, hwindow, hs⟩ := bind_eq_some.1 hs
    obtain ⟨dma, hdma, hs⟩ := bind_eq_some.1 hs
    cases hs
    obtain ⟨-, hdma⟩ := guard_bind_eq_some.1 hdma
    obtain ⟨t, ht, hdma⟩ := bind_eq_some.1 hdma
    cases hdma
    obtain ⟨q, hq, rfl⟩ := RxRqBitmapManager.admittedOut_eq_some hwindow
    obtain ⟨-, -, r, hr, rfl⟩ := RxDmaLane.admittedIn_eq_some ht
    have hq := Fifo.deq_eq_some hq
    have hr := Fifo.enq_eq_some hr
    refine ⟨⟨ha.window, ha.ordered, ha.lane rfl⟩, ?_⟩
    refine hi.passes [] (List.append_nil _).symm ?_ ?_ ?_ rfl rfl ⟨rfl, rfl, rfl, rfl, rfl⟩ rfl rfl
      (List.Subset.refl _)
    · intro i
      rw [List.map_nil, List.filter_nil, List.append_nil]
      dsimp only [RxReceiver.underway, RxRqBitmapManager.route]
      by_cases hi : i = j
      · subst hi
        rw [update_self, update_self, RxDmaLane.held, RxDmaLane.held, hq, hr]
        simp
      · rw [update_of_ne hi, update_of_ne hi]
    · intro i
      dsimp only
      by_cases hi : i = j
      · subst hi
        rw [update_self]
      · rw [update_of_ne hi]
    · exact faulted_update rfl
  | lane i k =>
    obtain ⟨halone, hs⟩ := guard_bind_eq_some.1 hs
    obtain ⟨dma, hdma, hs⟩ := bind_eq_some.1 hs
    cases hs
    obtain ⟨t, ht, hdma⟩ := bind_eq_some.1 hdma
    cases hdma
    refine ⟨⟨ha.window, ha.ordered, ha.lane ?_⟩, hi.laneMoves ha ht halone⟩
    cases RxDmaLane.step_works ht halone <;> assumption
  | retireCompletedLane i =>
    obtain ⟨dma, hdma, hs⟩ := bind_eq_some.1 hs
    cases hs
    refine ⟨⟨ha.window, ha.ordered, fun j => ?_⟩, hi.retiresLane hconfined.window hdma⟩
    obtain ⟨-, value, t, -, -, -, hepoch, -, hlanes, -, -⟩ := retireCompletedLane_eq_some hdma
    show (dma.lanes j).currentEpoch = _
    rw [hlanes]
    exact ha.lane hepoch j
  | connectRetire =>
    obtain ⟨⟨value, dma⟩, hdma, hs⟩ := bind_eq_some.1 (show s.connectRetire = some s' from hs)
    obtain ⟨ordered, hordered, hs⟩ := bind_eq_some.1 hs
    cases hs
    obtain ⟨⟨v, q⟩, hq, hdma⟩ := bind_eq_some.1 hdma
    cases hdma
    obtain ⟨-, hordered⟩ := guard_bind_eq_some.1 hordered
    obtain ⟨r, hr, hordered⟩ := bind_eq_some.1 hordered
    cases hordered
    refine ⟨⟨ha.window, ha.ordered, ha.epochs⟩, ?_⟩
    exact hi.connects (Fifo.deq_eq_some hq) (Fifo.enq_eq_some hr)
  | ordered k =>
    obtain ⟨halone, hs⟩ := guard_bind_eq_some.1 hs
    obtain ⟨ordered, hordered, hs⟩ := bind_eq_some.1 hs
    cases hs
    obtain ⟨hrunning, hepoch⟩ := RxOrderedQueueManager.step_same_epoch hordered halone
    refine ⟨⟨ha.window, hrunning.trans ha.ordered, fun i => (ha.epochs i).trans hepoch.symm⟩, ?_⟩
    exact hi.orderedMoves hconfined.window hacks hconfined.cfgs hordered halone
  | orderedFlagIn flag =>
    obtain ⟨-, hs⟩ := guard_bind_eq_some.1 hs
    obtain ⟨ordered, hordered, hs⟩ := bind_eq_some.1 hs
    cases hs
    obtain ⟨-, hordered⟩ := guard_bind_eq_some.1 hordered
    obtain ⟨q, -, hordered⟩ := bind_eq_some.1 hordered
    cases hordered
    refine ⟨⟨ha.window, ha.ordered, ha.epochs⟩, ?_⟩
    exact hi.passes [] (List.append_nil _).symm (fun i => (List.append_nil _).symm)
      (fun i => rfl) id rfl rfl ⟨rfl, rfl, rfl, rfl, rfl⟩ rfl rfl (List.Subset.refl _)
  | flagDmaRequest =>
    obtain ⟨⟨request, t⟩, hout, rfl⟩ := Option.map_eq_some_iff.1 hs
    obtain ⟨-, hout⟩ := guard_bind_eq_some.1 hout
    obtain ⟨⟨r, ordered⟩, hordered, hout⟩ := bind_eq_some.1 hout
    cases hout
    obtain ⟨-, hordered⟩ := guard_bind_eq_some.1 hordered
    obtain ⟨c, -, hordered⟩ := bind_eq_some.1 hordered
    cases hordered
    refine ⟨⟨ha.window, ha.ordered, ha.epochs⟩, ?_⟩
    exact hi.passes [] (List.append_nil _).symm (fun i => (List.append_nil _).symm)
      (fun i => rfl) id rfl rfl ⟨rfl, rfl, rfl, rfl, rfl⟩ rfl rfl (List.Subset.refl _)

/-- All that is known of a run of the receiver. -/
structure ReceiverInv (s : RxReceiver) (h : ReceiverHistory) (g : RetireHistory) : Prop where
  confined : Confined s h
  aligned : Aligned s
  acks : RqAckInv s.window h.rq
  messages : MessageInv s.window h.rq
  retirement : RetireInv s h g

/-- **Every rule and method of the receiver keeps the invariants.** -/
theorem ReceiverInv.step (hi : ReceiverInv s h g) (hs : s.step l = some s') :
    ReceiverInv s' (s.observe l h) (observeRetire (s, h) l g) := by
  obtain ⟨hconfined, haligned, hacks, hmessages, hretirement⟩ := hi
  obtain ⟨haligned', hretirement'⟩ := hretirement.step hconfined hacks haligned hs
  refine ⟨hconfined.step hs, haligned', ?_, ?_, hretirement'⟩
  · exact RxReceiver.window_keeps hs hacks fun k hk => hacks.step hconfined.window hk
  · exact RxReceiver.window_keeps hs hmessages fun k hk => hmessages.step hconfined.window hk

lemma ReceiverInv.initial (packets : RxQpIndex → RxWindowIndex → RxParsedPacket)
    (age : RxQpIndex → RxWindowIndex → BitVec 8) :
    ReceiverInv (.initial packets age) .empty .empty := by
  refine ⟨confined_initial packets age, .initial packets age, .initial packets age,
    .initial packets age, ?_⟩
  refine ⟨fun _ => ⟨fun _ => [], fun _ => rfl, nofun, .start _⟩, List.prefix_rfl, nofun, rfl,
    ⟨[], rfl, rfl⟩, rfl, ?_, rfl⟩
  intro qp hvalid
  cases hvalid

/-- **Every run of the receiver keeps the invariants.** -/
theorem ReceiverInv.run (packets : RxQpIndex → RxWindowIndex → RxParsedPacket)
    (age : RxQpIndex → RxWindowIndex → BitVec 8) {labels : List ReceiverLabel}
    (hrun : fire retireStep ((.initial packets age, .empty), .empty) labels = some ((s, h), g)) :
    ReceiverInv s h g := by
  refine fire_rule (P := fun p : (RxReceiver × ReceiverHistory) × RetireHistory =>
    ReceiverInv p.1.1 p.1.2 p.2) ?_ (.initial packets age) hrun
  rintro ⟨⟨s, h⟩, g⟩ l ⟨⟨s', h'⟩, g'⟩ hi hstep
  obtain ⟨hreceive, rfl⟩ := watched_eq_some.1 hstep
  obtain ⟨hstep, rfl⟩ := watched_eq_some.1 hreceive
  exact hi.step hstep

/-- **The DMA watermark of a queue pair only moves forward**, by at most sixteen places at a
time. -/
lemma ReceiverInv.dmaMark_step (hi : ReceiverInv s h g) (hs : s.step l = some s') (qp : RxQpIndex) :
    ∃ d ≤ 16, (s.observe l h).dmaMark qp = h.dmaMark qp + d := by
  by_cases hl : l = .ordered .processRetire
  · subst hl
    obtain ⟨-, hs⟩ := guard_bind_eq_some.1 hs
    obtain ⟨ordered, hordered, -⟩ := bind_eq_some.1 hs
    obtain ⟨-, hordered⟩ := guard_bind_eq_some.1 hordered
    obtain ⟨⟨retired, q⟩, hq, -⟩ := bind_eq_some.1 hordered
    obtain ⟨a, ha, -⟩ := hi.retirement.next (Fifo.deq_eq_some hq)
    have hmark : (s.observe (.ordered .processRetire) h).dmaMark qp = _ := dmaMark_succ ha qp
    rw [hmark]
    by_cases hqp : a.admitted.qp = qp
    · subst hqp
      rw [if_pos rfl]
      exact (hi.acks.at ha).advances
    · rw [if_neg hqp]
      exact ⟨0, Nat.zero_le _, rfl⟩
  · have hretired : (s.observe l h).retired = h.retired := by
      cases l with
      | lane i k => cases k <;> rfl
      | ordered k => cases k <;> first | rfl | exact absurd rfl hl
      | _ => rfl
    obtain ⟨new, hnew⟩ : ∃ new, (s.observe l h).rq.admissions = h.rq.admissions ++ new := by
      rw [RxReceiver.observe_rq, RxReceiver.observeWindow]
      cases RxReceiver.onWindow l with
      | none => exact ⟨[], (List.append_nil _).symm⟩
      | some k => exact s.window.observe_admissions k
    obtain ⟨hle, hlen⟩ := hi.retirement.lengths
    refine ⟨0, Nat.zero_le _, ?_⟩
    rw [ReceiverHistory.dmaMark, hretired, hnew, List.take_append_of_le_length (hle.trans hlen)]
    rfl

end Receiver

/-- A message of eight bytes in one packet. -/
def onlyPacket (lane : RxLaneId) (psn : TxPsn) : RxParsedPacket where
  payloadTag := ⟨lane, 0, 0⟩
  lane := lane
  qpn := 7
  psn := psn
  opcode := 10
  ecn := 0
  payloadStart := 70
  payloadBytes := 8
  remoteAddr := 0x1000
  rkey := 5
  messageBytes := 8
  first := true
  last := true

/-- A lane writes the packet that it has been given, and waits for the completion. -/
def writeOut (lane : RxLaneId) : List ReceiverLabel :=
  [.connectAdmitted lane, .lane lane .beginPacket, .lane lane .sendDescriptor,
    .lane lane .requestOut, .lane lane .requestPayload, .lane lane .readRequestOut,
    .lane lane (.readResponseIn ⟨⟨lane, 0, 0⟩, 2, 0, 0, true⟩), .lane lane .consumePayloadRead,
    .lane lane .payloadOut]

/-- Two messages on two lanes; the lane of the second one is done first. -/
def crossedRun : List ReceiverLabel :=
  [.configureEpoch 3, .configureQp 0 wrapConfig, .start, .packetIn 0 (onlyPacket 0 0xFFFFFF),
    .packetIn 1 (onlyPacket 1 0), .window (.mergeIngressLane 0), .window (.mergeIngressLane 1),
    .window .processCandidate, .window .processCandidate, .window (.routeAdmitted 0),
    .window (.routeAdmitted 1)] ++ writeOut 0 ++ writeOut 1 ++
  [.lane 1 (.completionIn ⟨1, 3, 1, true⟩), .lane 1 .finishPacket,
    .lane 0 (.completionIn ⟨0, 3, 0, true⟩), .lane 0 .finishPacket, .retireCompletedLane 0,
    .retireCompletedLane 1, .connectRetire, .connectRetire,
    .ordered .processRetire, .ordered .processRetire, .ordered .completionOut]

end OpenRdma
