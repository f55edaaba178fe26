import OpenRdma.RdmaUtils.Fragmenter
import OpenRdma.Workers.Tasks

/-!
# The RDMA write worker

Posted requests arrive here.  A request gets an MSN and a range of PSNs from the send queue context
of its queue pair; a signaled one is registered for completion; it is kept for retransmission; and
its chunks go to the hardware — at once for a READ, one per round of `maintainance` for the others.

The source has two near-identical paths, `rdma_read` and `write`; both are `submit` here, with what
they differ in as parameters.  A request can still be refused after its sequence numbers were taken:
when it is signaled and the queue pair has no send CQ, or when it is a signaled READ response.
-/

namespace OpenRdma

/-- The worker that cuts requests. -/
structure RdmaWriteWorker where
  sqCtxTable : QpTable SendQueueContext
  pendingFragmenters : List IntoIterChunk
  /-- The panic that ended the worker's thread. -/
  panicked : Option String

instance : Inhabited RdmaWriteWorker := ⟨⟨default, [], none⟩⟩

/-- The `io::ErrorKind`s of the worker. -/
inductive IoErrorKind where
  | invalidInput
  | unsupported
deriving DecidableEq, Repr

/-- What handling one task does: the new state, what is sent, and the returned `io::Result<()>`. -/
structure Wrote where
  worker : RdmaWriteWorker
  outs : List Output
  ret : Except IoErrorKind Unit

/-- What a signaled request is registered as by `write`; READ responses are not supported. -/
def WorkReqOpCode.signaledOp : WorkReqOpCode → Option SendEventOp
  | rdmaWrite | rdmaWriteWithImm => some .writeSignaled
  | send | sendWithImm => some .sendSignaled
  | _ => none

namespace RdmaWriteWorker

/-- The registration of a request, if it is signaled. -/
def signalEvent (qp : QpAttr) (qpn : UInt32) (wr : SendWrRdma) (op : Option SendEventOp)
    (msgMeta : MessageMeta) : Except IoErrorKind (Option SendEvent) :=
  if wr.isSignaled then
    match qp.sendCq, op with
    | none, _ => .error .invalidInput
    | some _, none => .error .unsupported
    | some _, some op => .ok (some ⟨qpn, op, msgMeta, wr.wrId⟩)
  else .ok none

/-- What is sent for a request before its chunks. -/
def submitOuts (qpn : UInt32) (event : Option SendEvent) (elem : SendQueueElem) : List Output :=
  (event.map fun e => Output.completion (.register qpn (.send e))).toList
    ++ (event.map fun _ => Output.ackTimeout (.newAckReq qpn)).toList
    ++ [.retransmit (.newWr qpn elem)]

/-- Take sequence numbers for a request, register and record it, and `launch` its chunks. -/
def submit (w : RdmaWriteWorker) (attrs : QpTable QpAttr) (qpn : UInt32) (wr : SendWrRdma)
    (numPsn : QpAttr → Option UInt32) (op : Option SendEventOp)
    (launch : RdmaWriteWorker → SendQueueElem → RdmaWriteWorker × List Output) : Wrote :=
  match attrs.getQp qpn with
  | none => ⟨w, [], .error .invalidInput⟩
  | some qp =>
    match numPsn qp with
    | none => ⟨w, [], .error .invalidInput⟩
    | some n =>
      match (w.sqCtxTable.getQp qpn).bind (fun ctx => ctx.nextWr n) with
      | none => ⟨w, [], .error .invalidInput⟩
      | some ((msn, psn), ctx) =>
        let w := { w with sqCtxTable := w.sqCtxTable.setQp qpn ctx }
        match signalEvent qp qpn wr op ⟨msn, psn + n⟩ with
        | .error e => ⟨w, [], .error e⟩
        | .ok event =>
          let elem : SendQueueElem := ⟨psn, wr, qp.params msn⟩
          let (w, outs) := launch w elem
          ⟨w, submitOuts qpn event elem ++ outs, .ok ()⟩

/-- The one chunk of a READ. -/
def readChunk (elem : SendQueueElem) : WrChunk :=
  let wr := elem.wr
  (((WrChunk.newWithOpcode .rdmaRead).setQpParams elem.qpParam).setIbvParams wr.sendFlags.toUInt8
    wr.rkey wr.length wr.lkey wr.imm).setChunkMeta elem.psn wr.laddr wr.raddr wr.length .only

/-- The chunk of a READ is sent at once. -/
def launchRead (w : RdmaWriteWorker) (elem : SendQueueElem) : RdmaWriteWorker × List Output :=
  (w, [.chunk (readChunk elem)])

/-- A READ takes one PSN. -/
def rdmaRead (w : RdmaWriteWorker) (attrs : QpTable QpAttr) (qpn : UInt32)
    (wr : SendWrRdma) : Wrote :=
  w.submit attrs qpn wr (fun _ => some 1) (some .readSignaled) launchRead

/-- The chunks of a write are queued. -/
def pushFragmenter (w : RdmaWriteWorker) (elem : SendQueueElem) : RdmaWriteWorker × List Output :=
  match wrChunkFragmenter elem.wr elem.qpParam elem.psn with
  | .ok it => ({ w with pendingFragmenters := w.pendingFragmenters ++ [it] }, [])
  | .error msg => ({ w with panicked := some msg }, [])

def write (w : RdmaWriteWorker) (attrs : QpTable QpAttr) (qpn : UInt32) (wr : SendWrRdma) : Wrote :=
  if (attrs.getQp qpn).isSome ∧ wr.length = 0 ∧ wr.opcode = .rdmaWrite then
    ⟨{ w with panicked := some "assertion failed: wr.opcode() != WorkReqOpCode::RdmaWrite" }, [],
      .error .invalidInput⟩
  else
    w.submit attrs qpn wr (fun qp => numPsn qp.pmtu wr.raddr wr.length) wr.opcode.signaledOp
      pushFragmenter

/-- Update the send queue context of a queue pair. -/
def updateCtx (w : RdmaWriteWorker) (qpn : UInt32)
    (f : SendQueueContext → SendQueueContext) : Wrote :=
  match w.sqCtxTable.getQp qpn with
  | none => ⟨{ w with panicked := some "invalid qpn" }, [], .ok ()⟩
  | some ctx => ⟨{ w with sqCtxTable := w.sqCtxTable.setQp qpn (f ctx) }, [], .ok ()⟩

def process (w : RdmaWriteWorker) (attrs : QpTable QpAttr) (task : RdmaWriteTask) : Wrote :=
  if w.panicked.isSome then ⟨w, [], .ok ()⟩
  else
    match task with
    | .write qpn wr =>
      match wr.opcode with
      | .rdmaWrite | .rdmaWriteWithImm | .send | .sendWithImm | .rdmaReadResp =>
        w.write attrs qpn wr
      | .rdmaRead => w.rdmaRead attrs qpn wr
      | _ =>
        let msg := "internal error: entered unreachable code: opcode unsupported"
        ⟨{ w with panicked := some msg }, [], .ok ()⟩
    | .ack qpn basePsn => w.updateCtx qpn (fun ctx => ctx.updatePsnAcked basePsn)
    | .newComplete qpn msn => w.updateCtx qpn (fun ctx => ctx.updateMsnAcked msn)

/-- One chunk of every pending fragmenter, in turn; an exhausted one is dropped. -/
def maintainLoop : ℕ → List IntoIterChunk → Drained (List IntoIterChunk) WrChunk
  | 0, q => ⟨[], q, none⟩
  | n + 1, [] => maintainLoop n []
  | n + 1, it :: q =>
    match it.next with
    | .done => maintainLoop n q
    | .item chunk it =>
      let r := maintainLoop n (q ++ [it])
      { r with items := chunk :: r.items }
    | .crash msg => ⟨[], q, some msg⟩

def maintainance (w : RdmaWriteWorker) : Wrote :=
  if w.panicked.isSome then ⟨w, [], .ok ()⟩
  else
    let r := maintainLoop w.pendingFragmenters.length w.pendingFragmenters
    ⟨{ w with pendingFragmenters := r.state, panicked := r.crashed }, r.items.map .chunk, .ok ()⟩

end RdmaWriteWorker

end OpenRdma
