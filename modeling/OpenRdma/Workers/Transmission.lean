import OpenRdma.Workers.RdmaRuns

/-!
# What the RDMA write worker transmits

A READ goes to the hardware as one descriptor, at once.  Every other request is cut into chunks,
which the rounds of `maintainance` hand out in turn, one of each pending request.

* **`run_transmission`** — over a run, the descriptors handed out and those still pending are
  exactly the descriptors of the accepted requests.
* `WrChunk.wire` — the packets the hardware makes of a descriptor;
  **`SendQueueElem.wire_descriptors`** — for a request with payload, its packets.
-/

namespace OpenRdma

/-- The descriptors that the hardware is given for an accepted request. -/
def SendQueueElem.descriptors (e : SendQueueElem) : List WrChunk :=
  if e.wr.opcode = .rdmaRead then [RdmaWriteWorker.readChunk e]
  else match wrChunkFragmenter e.wr e.qpParam e.psn with
    | .ok it => it.collect.items
    | .error _ => []

/-- The descriptors among what was sent. -/
def chunksIn (outs : List Output) : List WrChunk :=
  outs.filterMap fun o => match o with
    | .chunk c => some c
    | _ => none

/-- The elements recorded for retransmission, of all queue pairs. -/
def newWrsIn (outs : List Output) : List SendQueueElem :=
  outs.filterMap fun o => match o with
    | .retransmit (.newWr _ e) => some e
    | _ => none

lemma chunksIn_append (a b : List Output) : chunksIn (a ++ b) = chunksIn a ++ chunksIn b :=
  List.filterMap_append

lemma newWrsIn_append (a b : List Output) : newWrsIn (a ++ b) = newWrsIn a ++ newWrsIn b :=
  List.filterMap_append

@[simp] lemma chunksIn_map_chunk (cs : List WrChunk) : chunksIn (cs.map .chunk) = cs := by
  simp [chunksIn, List.filterMap_map]

@[simp] lemma newWrsIn_map_chunk (cs : List WrChunk) : newWrsIn (cs.map .chunk) = [] := by
  simp [newWrsIn, List.filterMap_map]

/-- The chunks of pending requests that are still to be handed out. -/
def RdmaWriteWorker.unsent (w : RdmaWriteWorker) : List WrChunk :=
  w.pendingFragmenters.flatMap fun it => it.collect.items

/-- The descriptors handed out in a run. -/
def RdmaWriteRun.chunks (r : RdmaWriteRun) : List WrChunk := r.log.flatMap chunksIn

/-- The requests accepted in a run, on any queue pair. -/
def RdmaWriteRun.accepted (r : RdmaWriteRun) : List SendQueueElem := r.log.flatMap newWrsIn

lemma mem_newWrsIn {qpn : UInt32} {outs : List Output} {e : SendQueueElem}
    (h : e ∈ newWrsOn qpn outs) : e ∈ newWrsIn outs := by
  obtain ⟨o, ho, heq⟩ := List.mem_filterMap.mp h
  refine List.mem_filterMap.mpr ⟨o, ho, ?_⟩
  split at heq
  · split at heq
    · exact heq
    · exact absurd heq (by simp)
  · exact absurd heq (by simp)

lemma RdmaWriteRun.mem_accepted {r : RdmaWriteRun} {qpn : UInt32} {x : Posted}
    (h : x ∈ r.postedOn qpn) : x.elem ∈ r.accepted := by
  obtain ⟨outs, houts, hx⟩ := List.mem_flatMap.mp h
  obtain ⟨e, he, rfl⟩ := List.mem_map.mp hx
  exact List.mem_flatMap.mpr ⟨outs, houts, mem_newWrsIn he⟩

/-! ## One step -/

/-- What is left of an iterator after one item. -/
lemma IntoIterChunk.collect_next (it : IntoIterChunk) :
    it.collect.items = match it.next with
      | .item c it' => c :: it'.collect.items
      | _ => [] := by
  rw [collect, drain]
  cases hnext : it.next with
  | done => rfl
  | crash msg => rfl
  | item c it' =>
    have hcount : it'.inner.count + 1 = it.inner.count := by
      unfold next IntoIter.next at hnext
      by_cases h0 : it.inner.count = 0
      · simp [h0] at hnext
      · simp only [h0, if_false] at hnext
        split at hnext
        · exact absurd hnext (by simp)
        · injection hnext with _ heq
          rw [← heq]
          exact Nat.succ_pred_eq_of_ne_zero h0
    simp only [collect, hcount]

/-- A round of maintenance hands out chunks of pending requests. -/
lemma maintainLoop_perm (n : ℕ) (q : List IntoIterChunk) :
    ((RdmaWriteWorker.maintainLoop n q).items
      ++ (RdmaWriteWorker.maintainLoop n q).state.flatMap fun it => it.collect.items).Perm
      (q.flatMap fun it => it.collect.items) := by
  induction n generalizing q with
  | zero => exact List.Perm.refl _
  | succ n ih =>
    cases q with
    | nil => exact ih []
    | cons it q =>
      have hit := it.collect_next
      rw [RdmaWriteWorker.maintainLoop, List.flatMap_cons, hit]
      cases it.next with
      | done => exact ih q
      | crash msg => exact List.Perm.refl _
      | item c it' =>
        -- the iterator goes to the end of the queue
        refine (List.Perm.cons c (ih (q ++ [it']))).trans (List.Perm.cons c ?_)
        rw [List.flatMap_append, List.flatMap_singleton]
        exact List.perm_append_comm

namespace RdmaWriteWorker

/-- What is handed out and what is pending after a step was pending before, or belongs to a request
the step accepts. -/
def Transmits (w : RdmaWriteWorker) (r : Wrote) : Prop :=
  (chunksIn r.outs ++ r.worker.unsent).Perm
    (w.unsent ++ (newWrsIn r.outs).flatMap SendQueueElem.descriptors)

lemma transmits_of_quiet {w : RdmaWriteWorker} {r : Wrote}
    (hw : r.worker.pendingFragmenters = w.pendingFragmenters) (houts : r.outs = []) :
    w.Transmits r := by
  rw [Transmits, houts, unsent, unsent, hw]
  simp [chunksIn, newWrsIn]

lemma chunksIn_submitOuts (qpn : UInt32) (event : Option SendEvent) (elem : SendQueueElem) :
    chunksIn (submitOuts qpn event elem) = [] := by
  cases event <;> simp [chunksIn, submitOuts]

/-- Launching chunks hands out or queues the descriptors of the request. -/
def LaunchesAll (wr : SendWrRdma)
    (launch : RdmaWriteWorker → SendQueueElem → RdmaWriteWorker × List Output) : Prop :=
  ∀ w elem, elem.wr = wr → newWrsIn (launch w elem).2 = [] ∧
    (chunksIn (launch w elem).2 ++ (launch w elem).1.unsent).Perm (w.unsent ++ elem.descriptors)

lemma submit_transmits (w : RdmaWriteWorker) (attrs : QpTable QpAttr) (qpn : UInt32)
    {wr : SendWrRdma} (numPsn : QpAttr → Option UInt32) (op : Option SendEventOp)
    {launch : RdmaWriteWorker → SendQueueElem → RdmaWriteWorker × List Output}
    (hl : LaunchesAll wr launch) : w.Transmits (w.submit attrs qpn wr numPsn op launch) := by
  rcases w.submit_cases attrs qpn wr numPsn op launch with
    ⟨hw, houts⟩ | ⟨qp, n, ctx, -, -, -, -, ⟨e, -, hsub⟩ | ⟨event, -, hsub⟩⟩
  · exact transmits_of_quiet (by rw [hw]) houts
  · rw [hsub]
    exact transmits_of_quiet rfl rfl
  · rw [hsub, Transmits, chunksIn_append, newWrsIn_append]
    set elem : SendQueueElem := ⟨ctx.psn, wr, qp.params ctx.msn⟩
    have hwrs : newWrsIn (submitOuts qpn event elem) = [elem] := by
      cases event <;> simp [newWrsIn, submitOuts]
    obtain ⟨hnone, hperm⟩ :=
      hl { w with sqCtxTable := w.sqCtxTable.setQp qpn (ctx.advance n) } elem rfl
    rw [chunksIn_submitOuts, hwrs, hnone, List.nil_append, List.append_nil, List.flatMap_singleton]
    exact hperm

lemma launchesAll_launchRead {wr : SendWrRdma} (h : wr.opcode = .rdmaRead) :
    LaunchesAll wr launchRead := by
  intro w elem helem
  refine ⟨rfl, ?_⟩
  rw [SendQueueElem.descriptors, if_pos (by rw [helem, h])]
  exact List.perm_append_comm

lemma launchesAll_pushFragmenter {wr : SendWrRdma} (h : wr.opcode ≠ .rdmaRead) :
    LaunchesAll wr pushFragmenter := by
  intro w elem helem
  rw [SendQueueElem.descriptors, if_neg (by rw [helem]; exact h), pushFragmenter]
  cases wrChunkFragmenter elem.wr elem.qpParam elem.psn with
  | error msg => exact ⟨rfl, by simp [chunksIn, unsent]⟩
  | ok it => exact ⟨rfl, by simp [chunksIn, unsent]⟩

/-- **One step of the transmission.** -/
theorem step_transmits (w : RdmaWriteWorker) (s : RdmaWriteStep) : w.Transmits (w.step s) := by
  cases s with
  | maintainance =>
    simp only [step, maintainance]
    split
    · exact transmits_of_quiet rfl rfl
    · simp only [Transmits, chunksIn_map_chunk, newWrsIn_map_chunk, List.flatMap_nil,
        List.append_nil]
      exact maintainLoop_perm _ _
  | process attrs task =>
    rw [step]
    generalize hr : w.process attrs task = r
    have hproc := hr ▸ w.process_processes attrs task
    cases hproc with
    | nothing | ack | newComplete => exact transmits_of_quiet rfl rfl
    | submit q supported needed launched =>
      refine submit_transmits w attrs q _ _ ?_
      rcases launched with ⟨hread, rfl⟩ | ⟨hne, rfl⟩
      · exact launchesAll_launchRead hread
      · exact launchesAll_pushFragmenter hne

end RdmaWriteWorker

/-- **What a run transmits**: the descriptors of the accepted requests, each once. -/
theorem run_transmission {w : RdmaWriteWorker} (idle : w.pendingFragmenters = [])
    (steps : List RdmaWriteStep) :
    ((w.run steps).chunks ++ (w.run steps).worker.unsent).Perm
      ((w.run steps).accepted.flatMap SendQueueElem.descriptors) := by
  induction steps using List.reverseRecOn with
  | nil =>
    show (RdmaWriteWorker.unsent w).Perm []
    rw [RdmaWriteWorker.unsent, idle]
    exact List.Perm.refl _
  | append_singleton steps s ih =>
    have hstep := (w.run steps).worker.step_transmits s
    rw [RdmaWriteWorker.run_append]
    simp only [RdmaWriteRun.chunks, RdmaWriteRun.accepted, List.flatMap_append,
      List.flatMap_singleton, List.append_assoc] at ih ⊢
    refine (hstep.append_left _).trans ?_
    rw [← List.append_assoc]
    exact ih.append_right _

/-! ## Packets -/

/-- The packet size of a descriptor. -/
def WrChunk.packetSize (c : WrChunk) : ℕ :=
  (convertIbvMtuToU16 c.pmtu).elim 0 fun p => p.toUInt64.toNat

/-- The packets that the hardware makes of a descriptor. -/
def WrChunk.wire (c : WrChunk) : List WrChunk := hwPackets c.packetSize c

lemma WrChunk.packetSize_eq {c : WrChunk} {p : UInt16} (h : convertIbvMtuToU16 c.pmtu = some p) :
    c.packetSize = p.toUInt64.toNat := by
  rw [packetSize, h]
  rfl

/-- **The packets of a request with payload**, as the hardware makes them. -/
theorem SendQueueElem.wire_descriptors {e : SendQueueElem} {pos : ℕ} {p : UInt16}
    (hpsn : e.psn = Psn.ofPos pos) (hp : convertIbvMtuToU16 e.qpParam.pmtu = some p)
    (hs : e.wr.Sendable p.toUInt64.toNat) (hl : e.wr.LocalFits)
    (hop : e.wr.opcode.needsPayload = true) :
    e.descriptors.flatMap WrChunk.wire = (List.range (packetCount e.wr p.toUInt64.toNat)).map
      (packetAt e.wr e.qpParam pos p.toUInt64.toNat false) := by
  have hne : e.wr.opcode ≠ .rdmaRead := fun hr => by
    rw [hr] at hop; exact absurd hop (by decide)
  obtain ⟨it, hit, hitems, -⟩ :
      ∃ it, wrChunkFragmenter e.wr e.qpParam (Psn.ofPos pos) = .ok it ∧ _ :=
    wrChunkFragmenter_eq hs hp rfl
  rw [descriptors, if_neg hne, hpsn, hit]
  simp only
  rw [hitems hl, ← chunks_hwPackets hs hop]
  refine List.flatMap_congr fun c hc => ?_
  obtain ⟨k, hk, rfl⟩ := List.mem_map.mp hc
  rw [WrChunk.wire, WrChunk.packetSize_eq (p := p)]
  rw [Cut.chunkAt_eq _ (List.mem_range.mp hk)]
  exact hp

end OpenRdma
