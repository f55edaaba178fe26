import OpenRdma.RdmaUtils.Packets
import OpenRdma.Workers.Rdma

/-!
# Runs of the RDMA write worker

Every request that gets sequence numbers is a `Grant`.  **`run_ledger`** says what a run of the
worker amounts to for one queue pair: a list of grants, in which the grants follow each other
without gaps in the MSNs and in the PSNs, and from which everything the worker registers and records
for retransmission can be read off.  A grant whose request was refused afterwards leaves a gap in
what is sent.
-/

namespace OpenRdma

/-! ## Runs -/

/-- The worker alternates between tasks and rounds of maintenance. -/
inductive RdmaWriteStep where
  | process (attrs : QpTable QpAttr) (task : RdmaWriteTask)
  | maintainance

/-- The step hands the worker a request for the queue pair, which then has the attributes `qp`. -/
def RdmaWriteStep.Asks (s : RdmaWriteStep) (qpn : UInt32) (qp : QpAttr) (wr : SendWrRdma) : Prop :=
  ∃ attrs q, s = .process attrs (.write q wr) ∧ qpnToIndex q = qpnToIndex qpn ∧
    attrs.getQp q = some qp

/-- The step tells the worker that message `msn` of the queue pair has completed. -/
def RdmaWriteStep.Tells (s : RdmaWriteStep) (qpn : UInt32) (msn : UInt16) : Prop :=
  ∃ attrs q, s = .process attrs (.newComplete q msn) ∧ qpnToIndex q = qpnToIndex qpn

def RdmaWriteWorker.step (w : RdmaWriteWorker) : RdmaWriteStep → Wrote
  | .process attrs task => w.process attrs task
  | .maintainance => w.maintainance

/-- A run: the state, and what each step sent. -/
structure RdmaWriteRun where
  worker : RdmaWriteWorker
  log : List (List Output)

def RdmaWriteWorker.run (w : RdmaWriteWorker) (steps : List RdmaWriteStep) : RdmaWriteRun :=
  steps.foldl (fun acc s => ⟨(acc.worker.step s).worker, acc.log ++ [(acc.worker.step s).outs]⟩)
    ⟨w, []⟩

lemma RdmaWriteWorker.run_append (w : RdmaWriteWorker) (steps : List RdmaWriteStep)
    (s : RdmaWriteStep) :
    w.run (steps ++ [s]) = ⟨((w.run steps).worker.step s).worker,
      (w.run steps).log ++ [((w.run steps).worker.step s).outs]⟩ := by
  simp [run, List.foldl_append]

/-- An accepted request: the element recorded for retransmission, and its event if it is
signaled. -/
structure Posted where
  elem : SendQueueElem
  event : Option SendEvent
deriving DecidableEq, Repr

/-- The elements recorded for a queue pair. -/
def newWrsOn (qpn : UInt32) (outs : List Output) : List SendQueueElem :=
  outs.filterMap fun o => match o with
    | .retransmit (.newWr q e) => if qpnToIndex q = qpnToIndex qpn then some e else none
    | _ => none

/-- The events registered for a queue pair. -/
def sendEventsOn (qpn : UInt32) (outs : List Output) : List SendEvent :=
  outs.filterMap fun o => match o with
    | .completion (.register q (.send e)) =>
      if qpnToIndex q = qpnToIndex qpn then some e else none
    | _ => none

/-- The request a step accepts for a queue pair. -/
def postedIn (qpn : UInt32) (outs : List Output) : List Posted :=
  (newWrsOn qpn outs).map fun e => ⟨e, (sendEventsOn qpn outs).head?⟩

/-- The requests accepted on a queue pair, in order. -/
def RdmaWriteRun.postedOn (r : RdmaWriteRun) (qpn : UInt32) : List Posted :=
  r.log.flatMap (postedIn qpn)

/-! ## One step -/

/-- How many PSNs a request is given. -/
def psnsNeeded (qp : QpAttr) (wr : SendWrRdma) : Option UInt32 :=
  if wr.opcode = .rdmaRead then some 1 else numPsn qp.pmtu wr.raddr wr.length

lemma psnsNeeded_pos {qp : QpAttr} {wr : SendWrRdma} {n : UInt32} (h : psnsNeeded qp wr = some n) :
    0 < n.toNat := by
  unfold psnsNeeded at h
  split at h
  · rw [← Option.some.inj h]
    decide
  · exact numPsn_pos h

/-- What a signaled request is registered as. -/
def eventOp (wr : SendWrRdma) : Option SendEventOp :=
  if wr.opcode = .rdmaRead then some .readSignaled else wr.opcode.signaledOp

/-- The worker takes only requests that carry data, and READs. -/
def WorkReqOpCode.supported (op : WorkReqOpCode) : Bool := op.needsPayload || op == .rdmaRead

/-- The context after a request was given `n` PSNs. -/
def SendQueueContext.advance (ctx : SendQueueContext) (n : UInt32) : SendQueueContext :=
  { ctx with msn := ctx.msn + 1, psn := ctx.psn + n }

/-- Sequence numbers given to a request: `numPsn` PSNs, and what was made of the request. -/
structure Grant where
  qp : QpAttr
  wr : SendWrRdma
  numPsn : UInt32
  posted : Option Posted

/-- The completion registered for the request. -/
def Grant.event (g : Grant) : Option SendEvent := g.posted.bind Posted.event

/-- The grant that `ctx` makes to a request: the request needs this many PSNs; it is posted with the
numbers of the context; and it is not posted only if it is signaled and cannot be registered. -/
structure Grant.From (qpn : UInt32) (ctx : SendQueueContext) (g : Grant) : Prop where
  needed : psnsNeeded g.qp g.wr = some g.numPsn
  supported : g.wr.opcode.supported = true
  window : ctx.nextWr g.numPsn = some ((ctx.msn, ctx.psn), ctx.advance g.numPsn)
  elem : ∀ x ∈ g.posted, x.elem = ⟨ctx.psn, g.wr, g.qp.params ctx.msn⟩
  event : ∀ x ∈ g.posted, ∃ q, qpnToIndex q = qpnToIndex qpn ∧
    RdmaWriteWorker.signalEvent g.qp q g.wr (eventOp g.wr) ⟨ctx.msn, ctx.psn + g.numPsn⟩ =
      .ok x.event
  refused : g.posted = none →
    g.wr.isSignaled = true ∧ (g.qp.sendCq = none ∨ g.wr.opcode = .rdmaReadResp)

namespace RdmaWriteWorker

/-- **What `submit` can do**: refuse without a trace; take sequence numbers and then refuse; or take
them, record the request and launch its chunks. -/
lemma submit_cases (w : RdmaWriteWorker) (attrs : QpTable QpAttr) (qpn : UInt32) (wr : SendWrRdma)
    (numPsn : QpAttr → Option UInt32) (op : Option SendEventOp)
    (launch : RdmaWriteWorker → SendQueueElem → RdmaWriteWorker × List Output) :
    ((w.submit attrs qpn wr numPsn op launch).worker = w ∧
      (w.submit attrs qpn wr numPsn op launch).outs = []) ∨
    ∃ qp n ctx, attrs.getQp qpn = some qp ∧ numPsn qp = some n ∧
      w.sqCtxTable.getQp qpn = some ctx ∧
      ctx.nextWr n = some ((ctx.msn, ctx.psn), ctx.advance n) ∧
      let w' := { w with sqCtxTable := w.sqCtxTable.setQp qpn (ctx.advance n) }
      let elem : SendQueueElem := ⟨ctx.psn, wr, qp.params ctx.msn⟩
      (∃ e, signalEvent qp qpn wr op ⟨ctx.msn, ctx.psn + n⟩ = .error e ∧
        w.submit attrs qpn wr numPsn op launch = ⟨w', [], .error e⟩) ∨
      ∃ event, signalEvent qp qpn wr op ⟨ctx.msn, ctx.psn + n⟩ = .ok event ∧
        w.submit attrs qpn wr numPsn op launch
          = ⟨(launch w' elem).1, submitOuts qpn event elem ++ (launch w' elem).2, .ok ()⟩ := by
  unfold submit
  cases hqp : attrs.getQp qpn with
  | none => exact .inl ⟨rfl, rfl⟩
  | some qp =>
    cases hn : numPsn qp with
    | none => simp only [hn]; exact .inl ⟨trivial, trivial⟩
    | some n =>
      cases hctx : w.sqCtxTable.getQp qpn with
      | none => simp only [hn, Option.bind_none]; exact .inl ⟨trivial, trivial⟩
      | some ctx =>
        cases hnext : ctx.nextWr n with
        | none => simp only [hn, Option.bind_some, hnext]; exact .inl ⟨trivial, trivial⟩
        | some out =>
          obtain ⟨⟨msn, psn⟩, ctx'⟩ := out
          obtain ⟨rfl, rfl, rfl⟩ := SendQueueContext.nextWr_eq_some hnext
          refine .inr ⟨qp, n, ctx, rfl, hn, rfl, hnext, ?_⟩
          cases hev : signalEvent qp qpn wr op ⟨ctx.msn, ctx.psn + n⟩ with
          | error e =>
            exact .inl ⟨e, rfl, by
              simp only [hn, Option.bind_some, hnext, hev]
              rfl⟩
          | ok event =>
            exact .inr ⟨event, rfl, by
              simp only [hn, Option.bind_some, hnext, hev]
              rfl⟩

variable {wr : SendWrRdma} {qpn : UInt32}

/-- A signaled request is refused only without a send CQ, or as a READ response. -/
lemma signalEvent_eq_error {qp : QpAttr} {msgMeta : MessageMeta} {e : IoErrorKind}
    (hop : wr.opcode.supported = true) (h : signalEvent qp qpn wr (eventOp wr) msgMeta = .error e) :
    wr.isSignaled = true ∧ (qp.sendCq = none ∨ wr.opcode = .rdmaReadResp) := by
  unfold signalEvent at h
  split at h
  · next hsig =>
      refine ⟨hsig, ?_⟩
      cases hcq : qp.sendCq with
      | none => exact .inl rfl
      | some cq =>
        right
        cases hev : eventOp wr with
        | some op => simp [hcq, hev] at h
        | none =>
          cases hopc : wr.opcode <;>
            simp_all [eventOp, WorkReqOpCode.signaledOp, WorkReqOpCode.supported,
              WorkReqOpCode.needsPayload]
  · exact absurd h (by simp)

/-- A request is registered exactly if it is signaled. -/
lemma signalEvent_eq_ok {qp : QpAttr} {op : Option SendEventOp} {msgMeta : MessageMeta}
    {event : Option SendEvent} (h : signalEvent qp qpn wr op msgMeta = .ok event) :
    (wr.isSignaled = true ∧ ∃ o, op = some o ∧ event = some ⟨qpn, o, msgMeta, wr.wrId⟩) ∨
    (wr.isSignaled = false ∧ event = none) := by
  unfold signalEvent at h
  split at h
  · next hsig =>
      refine .inl ⟨hsig, ?_⟩
      cases hcq : qp.sendCq <;> cases op <;> simp only [hcq] at h
      all_goals simp at h
      exact ⟨_, rfl, h.symm⟩
  · next hsig =>
      refine .inr ⟨by simpa using hsig, ?_⟩
      simpa using h.symm

lemma newWrsOn_submitOuts (qpn q : UInt32) (event : Option SendEvent) (elem : SendQueueElem) :
    newWrsOn qpn (submitOuts q event elem)
      = if qpnToIndex q = qpnToIndex qpn then [elem] else [] := by
  by_cases h : qpnToIndex q = qpnToIndex qpn <;> cases event <;> simp [newWrsOn, submitOuts, h]

lemma sendEventsOn_submitOuts (qpn q : UInt32) (event : Option SendEvent) (elem : SendQueueElem) :
    sendEventsOn qpn (submitOuts q event elem)
      = if qpnToIndex q = qpnToIndex qpn then event.toList else [] := by
  by_cases h : qpnToIndex q = qpnToIndex qpn <;> cases event <;> simp [sendEventsOn, submitOuts, h]

lemma newWrsOn_append (qpn : UInt32) (a b : List Output) :
    newWrsOn qpn (a ++ b) = newWrsOn qpn a ++ newWrsOn qpn b := List.filterMap_append

lemma sendEventsOn_append (qpn : UInt32) (a b : List Output) :
    sendEventsOn qpn (a ++ b) = sendEventsOn qpn a ++ sendEventsOn qpn b := List.filterMap_append

/-- What a task can make the worker do: nothing, but perhaps panic; update the acknowledged numbers
of a queue pair; or submit a request. -/
inductive Processes (w : RdmaWriteWorker) (attrs : QpTable QpAttr) : RdmaWriteTask → Wrote → Prop
  | nothing {task : RdmaWriteTask} (panicked : Option String) (ret : Except IoErrorKind Unit)
      (unknown : w.panicked = none → ∀ q b, task = .ack q b → w.sqCtxTable.getQp q = none) :
      Processes w attrs task ⟨{ w with panicked }, [], ret⟩
  | ack {q : UInt32} {ctx : SendQueueContext} (b : Psn) (known : w.sqCtxTable.getQp q = some ctx) :
      Processes w attrs (.ack q b)
        ⟨{ w with sqCtxTable := w.sqCtxTable.setQp q (ctx.updatePsnAcked b) }, [], .ok ()⟩
  | newComplete {q : UInt32} {ctx : SendQueueContext} (msn : UInt16)
      (known : w.sqCtxTable.getQp q = some ctx) :
      Processes w attrs (.newComplete q msn)
        ⟨{ w with sqCtxTable := w.sqCtxTable.setQp q (ctx.updateMsnAcked msn) }, [], .ok ()⟩
  | submit (q : UInt32) {wr : SendWrRdma} {numPsn : QpAttr → Option UInt32}
      {launch : RdmaWriteWorker → SendQueueElem → RdmaWriteWorker × List Output}
      (supported : wr.opcode.supported = true) (needed : ∀ qp, numPsn qp = psnsNeeded qp wr)
      (launched : wr.opcode = .rdmaRead ∧ launch = launchRead ∨
        wr.opcode ≠ .rdmaRead ∧ launch = pushFragmenter) :
      Processes w attrs (.write q wr) (w.submit attrs q wr numPsn (eventOp wr) launch)

lemma write_processes (w : RdmaWriteWorker) (attrs : QpTable QpAttr) (q : UInt32)
    (hpay : wr.opcode.needsPayload = true) :
    Processes w attrs (.write q wr) (w.write attrs q wr) := by
  have hne : wr.opcode ≠ .rdmaRead := fun hr => by
    rw [hr] at hpay
    exact absurd hpay (by decide)
  have hop : wr.opcode.signaledOp = eventOp wr := by simp [eventOp, hne]
  unfold write
  split
  · exact .nothing _ _ nofun
  · rw [hop]
    exact .submit q (by simp [WorkReqOpCode.supported, hpay]) (fun qp => by simp [psnsNeeded, hne])
      (.inr ⟨hne, rfl⟩)

/-- **What processing a task can do.** -/
theorem process_processes (w : RdmaWriteWorker) (attrs : QpTable QpAttr) (task : RdmaWriteTask) :
    Processes w attrs task (w.process attrs task) := by
  unfold process
  split
  · next hdead =>
      refine .nothing w.panicked (.ok ()) fun halive => ?_
      rw [halive] at hdead
      exact absurd hdead (by simp)
  · cases task with
    | ack q b =>
      simp only [updateCtx]
      split
      · next hnone =>
          refine .nothing (some "invalid qpn") (.ok ()) fun _ q' b' h => ?_
          cases h
          exact hnone
      · next ctx hctx => exact .ack b hctx
    | newComplete q msn =>
      simp only [updateCtx]
      split
      · exact .nothing (some "invalid qpn") (.ok ()) nofun
      · next ctx hctx => exact .newComplete msn hctx
    | write q wr =>
      cases hop : wr.opcode with
      | rdmaRead =>
        have hread : some SendEventOp.readSignaled = eventOp wr := by simp [eventOp, hop]
        simp only [hop]
        rw [rdmaRead, hread]
        exact .submit q (by simp [WorkReqOpCode.supported, hop])
          (fun qp => by simp [psnsNeeded, hop]) (.inl ⟨hop, rfl⟩)
      | rdmaWrite | rdmaWriteWithImm | send | sendWithImm | rdmaReadResp =>
        simp only [hop]
        exact w.write_processes attrs q (by rw [hop]; rfl)
      | _ =>
        simp only [hop]
        exact .nothing _ _ nofun

/-- What a step does to one queue pair: nothing but, perhaps, an update of the acknowledged numbers,
the MSN to one that the step `tells`; or a grant to a request that the step `asks` for. -/
def QpStep (qpn : UInt32) (ctx : SendQueueContext) (asks : QpAttr → SendWrRdma → Prop)
    (tells : UInt16 → Prop) (r : Wrote) : Prop :=
  (∃ ctx', r.worker.sqCtxTable.getQp qpn = some ctx' ∧ ctx'.msn = ctx.msn ∧ ctx'.psn = ctx.psn ∧
    (ctx'.msnAcked = ctx.msnAcked ∨ tells ctx'.msnAcked) ∧
    newWrsOn qpn r.outs = [] ∧ sendEventsOn qpn r.outs = []) ∨
  ∃ g, Grant.From qpn ctx g ∧ asks g.qp g.wr ∧
    r.worker.sqCtxTable.getQp qpn = some (ctx.advance g.numPsn) ∧
    postedIn qpn r.outs = g.posted.toList ∧
    sendEventsOn qpn r.outs = g.event.toList

/-- Launching chunks leaves the contexts alone and sends nothing else. -/
def Launches (launch : RdmaWriteWorker → SendQueueElem → RdmaWriteWorker × List Output) : Prop :=
  ∀ w elem, (launch w elem).1.sqCtxTable = w.sqCtxTable ∧
    ∀ qpn, newWrsOn qpn (launch w elem).2 = [] ∧ sendEventsOn qpn (launch w elem).2 = []

variable {w : RdmaWriteWorker}

lemma submit_qpStep {ctx : SendQueueContext} (h : w.sqCtxTable.getQp qpn = some ctx)
    (attrs : QpTable QpAttr) (q : UInt32) (hop : wr.opcode.supported = true)
    {numPsn : QpAttr → Option UInt32} (hn : ∀ qp, numPsn qp = psnsNeeded qp wr)
    {launch : RdmaWriteWorker → SendQueueElem → RdmaWriteWorker × List Output}
    (hl : Launches launch) (tells : UInt16 → Prop) : QpStep qpn ctx
      (fun qp wr' => wr' = wr ∧ qpnToIndex q = qpnToIndex qpn ∧ attrs.getQp q = some qp) tells
      (w.submit attrs q wr numPsn (eventOp wr) launch) := by
  rcases w.submit_cases attrs q wr numPsn (eventOp wr) launch with
    ⟨hw, houts⟩ | ⟨qp, n, ctx', hqp, hnum, hctx', hnext, hrest⟩
  · exact .inl ⟨ctx, by rw [hw, h], rfl, rfl, .inl rfl, by rw [houts]; rfl, by rw [houts]; rfl⟩
  · by_cases hq : qpnToIndex q = qpnToIndex qpn
    · -- the request is for this queue pair
      obtain rfl : ctx' = ctx :=
        Option.some.inj (hctx'.symm.trans ((w.sqCtxTable.getQp_congr hq).trans h))
      have hset : (w.sqCtxTable.setQp q (ctx'.advance n)).getQp qpn = some (ctx'.advance n) := by
        rw [← QpTable.getQp_congr _ hq, QpTable.getQp_setQp_self hctx']
      rw [hn] at hnum
      rcases hrest with ⟨e, hev, hsub⟩ | ⟨event, hev, hsub⟩
      · refine .inr ⟨⟨qp, wr, n, none⟩, ⟨hnum, hop, hnext, by simp, by simp, fun _ =>
          signalEvent_eq_error hop hev⟩, ⟨rfl, hq, hqp⟩, ?_, ?_, ?_⟩
        · rw [hsub]; exact hset
        · rw [hsub]; rfl
        · rw [hsub]; rfl
      · obtain ⟨htable, hchunks⟩ :=
          hl { w with sqCtxTable := w.sqCtxTable.setQp q (ctx'.advance n) }
          ⟨ctx'.psn, wr, qp.params ctx'.msn⟩
        refine .inr ⟨⟨qp, wr, n, some ⟨⟨ctx'.psn, wr, qp.params ctx'.msn⟩, event⟩⟩,
          ⟨hnum, hop, hnext, ?_, ?_, by simp⟩, ⟨rfl, hq, hqp⟩, ?_, ?_, ?_⟩
        · intro x hx
          rw [← Option.mem_some.mp hx]
        · intro x hx
          rw [← Option.mem_some.mp hx]
          exact ⟨q, hq, hev⟩
        · rw [hsub, htable]; exact hset
        · rw [hsub, postedIn, newWrsOn_append, sendEventsOn_append, newWrsOn_submitOuts,
            sendEventsOn_submitOuts, if_pos hq, if_pos hq, (hchunks qpn).1, (hchunks qpn).2]
          cases event <;> rfl
        · rw [hsub, sendEventsOn_append, sendEventsOn_submitOuts, if_pos hq, (hchunks qpn).2]
          simp [Grant.event]
    · -- the request is for another queue pair
      have hother : (w.sqCtxTable.setQp q (ctx'.advance n)).getQp qpn = some ctx := by
        rw [QpTable.getQp_setQp_ne _ (Ne.symm hq), h]
      rcases hrest with ⟨e, -, hsub⟩ | ⟨event, -, hsub⟩
      · exact .inl ⟨ctx, by rw [hsub]; exact hother, rfl, rfl, .inl rfl, by rw [hsub]; rfl,
          by rw [hsub]; rfl⟩
      · obtain ⟨htable, hchunks⟩ :=
          hl { w with sqCtxTable := w.sqCtxTable.setQp q (ctx'.advance n) }
          ⟨ctx'.psn, wr, qp.params ctx'.msn⟩
        refine .inl ⟨ctx, by rw [hsub, htable]; exact hother, rfl, rfl, .inl rfl, ?_, ?_⟩
        · rw [hsub, newWrsOn_append, newWrsOn_submitOuts, if_neg hq, (hchunks qpn).1]
          rfl
        · rw [hsub, sendEventsOn_append, sendEventsOn_submitOuts, if_neg hq, (hchunks qpn).2]
          rfl

lemma launches_pushFragmenter : Launches pushFragmenter := by
  intro w elem
  unfold pushFragmenter
  cases wrChunkFragmenter elem.wr elem.qpParam elem.psn <;> exact ⟨rfl, fun _ => ⟨rfl, rfl⟩⟩

lemma updateCtx_qpStep {qpn q : UInt32} {ctx ctx' : SendQueueContext}
    (h : w.sqCtxTable.getQp qpn = some ctx) (hq : w.sqCtxTable.getQp q = some ctx')
    {f : SendQueueContext → SendQueueContext}
    (hf : ∀ ctx, (f ctx).msn = ctx.msn ∧ (f ctx).psn = ctx.psn)
    (asks : QpAttr → SendWrRdma → Prop) {tells : UInt16 → Prop}
    (ht : qpnToIndex q = qpnToIndex qpn → (f ctx).msnAcked = ctx.msnAcked ∨
      tells (f ctx).msnAcked) :
    QpStep qpn ctx asks tells
      ⟨{ w with sqCtxTable := w.sqCtxTable.setQp q (f ctx') }, [], .ok ()⟩ := by
  by_cases hidx : qpnToIndex q = qpnToIndex qpn
  · obtain rfl : ctx' = ctx :=
      Option.some.inj (hq.symm.trans ((w.sqCtxTable.getQp_congr hidx).trans h))
    refine .inl ⟨f ctx', ?_, (hf ctx').1, (hf ctx').2, ht hidx, rfl, rfl⟩
    rw [← QpTable.getQp_congr _ hidx, QpTable.getQp_setQp_self hq]
  · refine .inl ⟨ctx, ?_, rfl, rfl, .inl rfl, rfl, rfl⟩
    rw [QpTable.getQp_setQp_ne _ (Ne.symm hidx), h]

lemma launches_launchRead : Launches launchRead := fun _ _ => ⟨rfl, fun _ => ⟨rfl, rfl⟩⟩

/-- **One step, seen by one queue pair.** -/
theorem step_qpStep {ctx : SendQueueContext} (h : w.sqCtxTable.getQp qpn = some ctx)
    (s : RdmaWriteStep) : QpStep qpn ctx (s.Asks qpn) (s.Tells qpn) (w.step s) := by
  cases s with
  | maintainance =>
    simp only [step, maintainance]
    split
    · exact .inl ⟨ctx, h, rfl, rfl, .inl rfl, rfl, rfl⟩
    · refine .inl ⟨ctx, h, rfl, rfl, .inl rfl, ?_, ?_⟩
      · simp [newWrsOn, List.filterMap_map]
      · simp [sendEventsOn, List.filterMap_map]
  | process attrs task =>
    rw [step]
    generalize hr : w.process attrs task = r
    have hproc := hr ▸ w.process_processes attrs task
    cases hproc with
    | nothing => exact .inl ⟨ctx, h, rfl, rfl, .inl rfl, rfl, rfl⟩
    | @ack q _ b known =>
      exact updateCtx_qpStep h known (f := (·.updatePsnAcked b)) (fun _ => ⟨rfl, rfl⟩) _
        fun _ => .inl rfl
    | @newComplete q _ msn known =>
      exact updateCtx_qpStep h known (f := (·.updateMsnAcked msn)) (fun _ => ⟨rfl, rfl⟩) _
        fun hq => .inr ⟨attrs, q, rfl, hq⟩
    | @submit q wr numPsn launch supported needed launched =>
      have hl : Launches launch := by
        rcases launched with ⟨-, rfl⟩ | ⟨-, rfl⟩
        · exact launches_launchRead
        · exact launches_pushFragmenter
      rcases submit_qpStep h attrs q supported needed hl (RdmaWriteStep.Tells _ qpn) with
        hquiet | ⟨g, hg, ⟨hwr, hq, hqp⟩, hrest⟩
      · exact .inl hquiet
      · exact .inr ⟨g, hg, ⟨attrs, q, by rw [hwr], hq, hqp⟩, hrest⟩

end RdmaWriteWorker

/-! ## Runs, seen by one queue pair -/

/-- The stream position at which grant number `i` starts. -/
def grantPos (gs : List Grant) (i : ℕ) : ℕ := ((gs.take i).map fun g => g.numPsn.toNat).sum

lemma grantPos_append_of_le {gs gs' : List Grant} {i : ℕ} (hi : i ≤ gs.length) :
    grantPos (gs ++ gs') i = grantPos gs i := by
  rw [grantPos, grantPos, List.take_append_of_le_length hi]

lemma grantPos_snoc (gs : List Grant) (g : Grant) :
    grantPos (gs ++ [g]) (gs.length + 1) = grantPos gs gs.length + g.numPsn.toNat := by
  have h : gs.length + 1 = (gs ++ [g]).length := by simp
  rw [grantPos, h, List.take_length, grantPos, List.take_length, List.map_append, List.sum_append]
  simp

/-- The ledger of a queue pair: the context stands after the last grant; each grant was made with
the numbers after the ones before it; and the posted requests are those of the grants. -/
structure Ledger (qpn : UInt32) (steps : List RdmaWriteStep) (r : RdmaWriteRun)
    (ctx : SendQueueContext) (gs : List Grant) : Prop where
  ctx_eq : r.worker.sqCtxTable.getQp qpn = some ctx
  msn_eq : ctx.msn = msnAt 0 gs.length
  psn_eq : ctx.psn = Psn.ofPos (grantPos gs gs.length)
  grants : ∀ i g, gs[i]? = some g → ∃ ctx, Grant.From qpn ctx g ∧ ctx.msn = msnAt 0 i ∧
    ctx.psn = Psn.ofPos (grantPos gs i)
  asked : ∀ g ∈ gs, ∃ s ∈ steps, s.Asks qpn g.qp g.wr
  posted : r.postedOn qpn = gs.filterMap Grant.posted
  events : r.log.flatMap (sendEventsOn qpn) = gs.filterMap Grant.event

lemma msnAt_succ (m₀ : UInt16) (i : ℕ) : msnAt m₀ i + 1 = msnAt m₀ (i + 1) := by
  rw [msnAt, msnAt, UInt16.ofNat_add, UInt16.add_assoc]
  rfl

/-- A run with one more step. -/
def RdmaWriteRun.step (r : RdmaWriteRun) (s : RdmaWriteStep) : RdmaWriteRun :=
  ⟨(r.worker.step s).worker, r.log ++ [(r.worker.step s).outs]⟩

/-- A grant was made for the message after the last one, which was not too far ahead of the last one
known to be completed. -/
structure Grant.Next (qpn : UInt32) (ctx ctx' : SendQueueContext) (outs : List Output) (g : Grant) :
    Prop where
  msnAcked_eq : ctx'.msnAcked = ctx.msnAcked
  window : (ctx.msn - ctx.msnAcked).toNat < maxSendWr
  events : sendEventsOn qpn outs = g.event.toList

/-- **One step of the ledger**: at most one more grant. -/
theorem Ledger.step {qpn : UInt32} {steps : List RdmaWriteStep} {r : RdmaWriteRun}
    {ctx : SendQueueContext} {gs : List Grant} (h : Ledger qpn steps r ctx gs) (s : RdmaWriteStep) :
    (∃ ctx', Ledger qpn (steps ++ [s]) (r.step s) ctx' gs ∧
      (ctx'.msnAcked = ctx.msnAcked ∨ s.Tells qpn ctx'.msnAcked) ∧
      sendEventsOn qpn (r.worker.step s).outs = []) ∨
    ∃ ctx' g, Ledger qpn (steps ++ [s]) (r.step s) ctx' (gs ++ [g]) ∧
      Grant.Next qpn ctx ctx' (r.worker.step s).outs g := by
  have hasked : ∀ g ∈ gs, ∃ s' ∈ steps ++ [s], s'.Asks qpn g.qp g.wr := fun g hg => by
    obtain ⟨s', hs', ha⟩ := h.asked g hg
    exact ⟨s', List.mem_append_left _ hs', ha⟩
  rcases RdmaWriteWorker.step_qpStep h.ctx_eq s with
    ⟨ctx', hctx', hmsn', hpsn', hacked, hwrs, hevs⟩ | ⟨g, hg, hask, hctx', hpost, hevs⟩
  · refine .inl
      ⟨ctx', ⟨hctx', hmsn'.trans h.msn_eq, hpsn'.trans h.psn_eq, h.grants, hasked, ?_, ?_⟩,
      hacked, hevs⟩
    · rw [← h.posted]
      simp [RdmaWriteRun.postedOn, RdmaWriteRun.step, postedIn, hwrs]
    · rw [← h.events]
      simp [RdmaWriteRun.step, hevs]
  · refine .inr ⟨ctx.advance g.numPsn, g,
      ⟨hctx', ?_, ?_, fun i g' hi => ?_, fun g' hg' => ?_, ?_, ?_⟩, rfl, ?_, hevs⟩
    · rw [List.length_append, List.length_singleton, ← msnAt_succ, ← h.msn_eq]
      rfl
    · rw [List.length_append, List.length_singleton, grantPos_snoc, ← Psn.ofPos_add, ← h.psn_eq]
      rfl
    · rcases Nat.lt_or_ge i gs.length with hlt | hge
      · rw [List.getElem?_append_left hlt] at hi
        obtain ⟨c, hc⟩ := h.grants i g' hi
        exact ⟨c, by rwa [grantPos_append_of_le hlt.le]⟩
      · obtain ⟨rfl, rfl⟩ : i = gs.length ∧ g = g' := by
          rw [List.getElem?_append_right hge, List.getElem?_singleton] at hi
          split at hi
          · exact ⟨by omega, Option.some.inj hi⟩
          · exact absurd hi (by simp)
        exact ⟨ctx, hg, h.msn_eq, by rw [grantPos_append_of_le le_rfl, h.psn_eq]⟩
    · rcases List.mem_append.mp hg' with hg' | hg'
      · exact hasked g' hg'
      · rw [List.mem_singleton.mp hg']
        exact ⟨s, List.mem_append_right _ (List.mem_singleton_self s), hask⟩
    · rw [List.filterMap_append, ← h.posted]
      cases hp : g.posted <;> simp [RdmaWriteRun.postedOn, RdmaWriteRun.step, hpost, hp]
    · rw [List.filterMap_append, ← h.events]
      cases he : g.event <;> simp [RdmaWriteRun.step, hevs, he]
    · have hwin := hg.window
      rw [SendQueueContext.nextWr] at hwin
      by_contra hge
      rw [if_pos (.inr (Nat.le_of_not_lt hge))] at hwin
      exact absurd hwin (by simp)

/-- **The ledger of a run.** -/
theorem run_ledger {w : RdmaWriteWorker} {qpn : UInt32}
    (fresh : w.sqCtxTable.getQp qpn = some default) (steps : List RdmaWriteStep) :
    ∃ ctx gs, Ledger qpn steps (w.run steps) ctx gs := by
  induction steps using List.reverseRecOn with
  | nil => exact ⟨default, [], fresh, rfl, rfl, by simp, by simp, rfl, rfl⟩
  | append_singleton steps s ih =>
    obtain ⟨ctx, gs, h⟩ := ih
    rw [RdmaWriteWorker.run_append]
    rcases h.step s with ⟨ctx', h', -⟩ | ⟨ctx', g, h', -⟩
    · exact ⟨ctx', gs, h'⟩
    · exact ⟨ctx', gs ++ [g], h'⟩

end OpenRdma
