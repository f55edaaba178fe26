import OpenRdma.Core.Loop
import OpenRdma.RdmaUtils.Qp
import OpenRdma.Workers.Tasks

/-!
# The completion worker

Events are registered when a request is sent or a message's last packet arrives, and released when
the acknowledged base passes their last packet.  Released send events wait in the merge queue until
their turn comes — a READ also for a response — and released receive events are matched with the
posted receives.

`CompletionWorker.process` handles one task.  What its loops poll is kept in its result
(`Processed`), together with what it puts on the channels; a panic kills the worker's thread, so
from then on `process` does nothing.
-/

namespace OpenRdma

/-! ## The reorder buffer of one direction -/

/-- The events that wait for the base to pass them. -/
structure MessageTracker (E : Type) where
  inner : List E
  basePsn : Psn
deriving DecidableEq, Repr

namespace MessageTracker

variable {E : Type} [EventMeta E]

instance : Inhabited (MessageTracker E) := ⟨⟨[], default⟩⟩

/-- Insert by MSN, searching from the back; an MSN already queued is dropped. -/
def append (t : MessageTracker E) (event : E) : MessageTracker E :=
  let msn := (EventMeta.msgMeta event).msn
  let pos := (t.inner.reverse.findIdx?
    (fun e => decide ((⟨(EventMeta.msgMeta e).msn⟩ : Msn) < ⟨msn⟩))).getD t.inner.length
  let index := t.inner.length - pos
  -- `is_none_or`
  if (t.inner[index]?).all (fun e => (EventMeta.msgMeta e).msn != msn)
  then { t with inner := t.inner.insertIdx index event }
  else t

def ack (t : MessageTracker E) (basePsn : Psn) : MessageTracker E := { t with basePsn := basePsn }

/-- Release the front event once the base has reached its end. -/
def pop (t : MessageTracker E) : Turn (MessageTracker E) E :=
  match t.inner with
  | [] => .done
  | front :: rest =>
    if (EventMeta.msgMeta front).endPsn ≤ t.basePsn then .item front { t with inner := rest }
    else .done

/-- The loop over `pop`. -/
def popAll (t : MessageTracker E) : Drained (MessageTracker E) E := drain pop (t.inner.length + 1) t

end MessageTracker

/-! ## Merging a READ request with its response -/

/-- The events below the base, with READ responses apart. -/
structure MergeQueue where
  send : List SendEvent
  recv : List RecvEvent
  recvReadResp : List RecvEvent
deriving DecidableEq, Repr, Inhabited

namespace MergeQueue

def pushSend (m : MergeQueue) (event : SendEvent) : MergeQueue :=
  { m with send := m.send ++ [event] }

def pushRecv (m : MergeQueue) (event : RecvEvent) : MergeQueue :=
  match event.op with
  | .readResp => { m with recvReadResp := m.recvReadResp ++ [event] }
  | .write | .writeWithImm _ | .recv | .recvWithImm _ | .recvRead =>
    { m with recv := m.recv ++ [event] }

/-- A READ at the front takes one READ response with it, whichever comes first. -/
def popSend (m : MergeQueue) : Option (SendEvent × MergeQueue) :=
  match m.send with
  | [] => none
  | event :: send =>
    match event.op with
    | .writeSignaled | .sendSignaled => some (event, { m with send := send })
    | .readSignaled =>
      match m.recvReadResp with
      | [] => none
      | _ :: resps => some (event, { m with send := send, recvReadResp := resps })

def popRecv (m : MergeQueue) : Option (RecvEvent × MergeQueue) :=
  match m.recv with
  | [] => none
  | event :: recv => some (event, { m with recv := recv })

end MergeQueue

/-! ## One queue pair -/

/-- The events of a queue pair. -/
structure QueuePairMessageTracker where
  send : MessageTracker SendEvent
  recv : MessageTracker RecvEvent
  postRecvQueue : List PostRecvEvent
  merge : MergeQueue
deriving DecidableEq, Repr, Inhabited

/-- The completion of a signaled request. -/
def SendEvent.completion (event : SendEvent) : Completion :=
  match event.op with
  | .writeSignaled => .rdmaWrite event.wrId
  | .sendSignaled => .send event.wrId
  | .readSignaled => .rdmaRead event.wrId

/-- The completion of a received message, as a function of the receive it consumes; `none` for the
messages that consume none. -/
def RecvEventOp.completion : RecvEventOp → Option (UInt64 → Completion)
  | .writeWithImm imm => some (fun wrId => .recvRdmaWithImm wrId imm)
  | .recv => some (fun wrId => .recv wrId none)
  | .recvWithImm imm => some (fun wrId => .recv wrId (some imm))
  | .readResp | .recvRead | .write => none

namespace QueuePairMessageTracker

def append (t : QueuePairMessageTracker) : Event → QueuePairMessageTracker
  | .send x => { t with send := t.send.append x }
  | .recv x => { t with recv := t.recv.append x }
  | .postRecv x => { t with postRecvQueue := t.postRecvQueue ++ [x] }

def ackSend (t : QueuePairMessageTracker) (psn : Psn) : QueuePairMessageTracker :=
  let popped := (t.send.ack psn).popAll
  { t with send := popped.state, merge := popped.items.foldl MergeQueue.pushSend t.merge }

def ackRecv (t : QueuePairMessageTracker) (psn : Psn) : QueuePairMessageTracker :=
  let popped := (t.recv.ack psn).popAll
  { t with recv := popped.state, merge := popped.items.foldl MergeQueue.pushRecv t.merge }

def pollSendCompletion (t : QueuePairMessageTracker) :
    Turn QueuePairMessageTracker (SendEvent × Completion) :=
  match t.merge.popSend with
  | none => .done
  | some (event, merge) => .item (event, event.completion) { t with merge := merge }

def pollRecvCompletion (t : QueuePairMessageTracker) :
    Turn QueuePairMessageTracker (RecvEvent × Option Completion) :=
  match t.merge.popRecv with
  | none => .done
  | some (event, merge) =>
    match event.op with
    | .readResp => .crash "invalid branch"
    | .recvRead | .write => .item (event, none) { t with merge := merge }
    | .writeWithImm _ | .recv | .recvWithImm _ =>
      match t.postRecvQueue with
      | [] => .crash "no posted recv wr"
      | x :: posts =>
        .item (event, event.op.completion.map (fun c => c x.wrId))
          { t with merge := merge, postRecvQueue := posts }

/-- What the tracker of one queue pair does with one task: the events its two loops poll. -/
structure Polled where
  tracker : QueuePairMessageTracker
  sends : List (SendEvent × Completion)
  recvs : List (RecvEvent × Option Completion)
  crashed : Option String

/-- The loop over `poll_send_completion`. -/
def pollSends (t : QueuePairMessageTracker) :
    Drained QueuePairMessageTracker (SendEvent × Completion) :=
  drain pollSendCompletion (t.merge.send.length + 1) t

/-- The loop over `poll_recv_completion`. -/
def pollRecvs (t : QueuePairMessageTracker) :
    Drained QueuePairMessageTracker (RecvEvent × Option Completion) :=
  drain pollRecvCompletion (t.merge.recv.length + 1) t

def handle (t : QueuePairMessageTracker) : CompletionTask → Polled
  | .register _ event => ⟨t.append event, [], [], none⟩
  | .ackSend _ basePsn =>
    let s := (t.ackSend basePsn).pollSends
    ⟨s.state, s.items, [], none⟩
  | .ackRecv _ basePsn =>
    let s := (t.ackRecv basePsn).pollSends
    let r := s.state.pollRecvs
    ⟨r.state, s.items, r.items, r.crashed⟩

end QueuePairMessageTracker

/-! ## The worker -/

def maxCqCnt : ℕ := 1024

structure CompletionWorker where
  trackerTable : QpTable QueuePairMessageTracker
  /-- The panic that ended the worker's thread. -/
  panicked : Option String

instance : Inhabited CompletionWorker := ⟨⟨default, none⟩⟩

/-- What one task makes the worker do. -/
structure Processed where
  worker : CompletionWorker
  sends : List (SendEvent × Completion)
  recvs : List (RecvEvent × Option Completion)
  outs : List Output

/-- What the worker sends for each event `poll_send_completion` yields. -/
def sendOutputs (qpn sendCq : UInt32) (p : SendEvent × Completion) : List Output :=
  [.cq sendCq p.2, .ackTimeout (.ack qpn), .rdmaWrite (.newComplete qpn p.1.msgMeta.msn)]

/-- What the worker sends for each event `poll_recv_completion` yields. -/
def recvOutputs (qpn recvCq : UInt32) (p : RecvEvent × Option Completion) : List Output :=
  (if p.1.ackReq then [.ackResp (.ack qpn p.1.msgMeta.msn p.1.msgMeta.endPsn)] else [])
    ++ (p.2.map (Output.cq recvCq)).toList

namespace CompletionWorker

/-- `Option::expect`. -/
def expect {α : Type} (x : Option α) (msg : String) : Except String α :=
  match x with
  | some a => .ok a
  | none => .error msg

/-- `CompletionQueueTable::get_cq`: the queues themselves are shared with the pollers, so a queue is
its handle here. -/
def getCq (handle : UInt32) : Option UInt32 :=
  if handle.toNat < maxCqCnt then some handle else none

/-- The send and receive CQ a task pushes to, or the panic of a failed lookup.  A registration
pushes nothing and looks up none. -/
def lookupCqs (attr : QpAttr) : CompletionTask → Except String (UInt32 × UInt32)
  | .register _ _ => .ok (0, 0)
  | .ackSend _ _ => do
      let handle ← expect attr.sendCq "no associated cq"
      let sendCq ← expect (getCq handle) "invalid cq: {handle}"
      return (sendCq, 0)
  | .ackRecv _ _ => do
      let sendHandle ← expect attr.sendCq "no associated cq"
      let recvHandle ← expect attr.recvCq "no associated cq"
      let sendCq ← expect (getCq sendHandle) "invalid cq: {send_handle}"
      let recvCq ← expect (getCq recvHandle) "invalid cq: {send_handle}"
      return (sendCq, recvCq)

/-- Process one task, with the queue pair attributes as they are at that moment. -/
def process (w : CompletionWorker) (qpTable : QpTable QpAttr) (task : CompletionTask) : Processed :=
  if w.panicked.isSome then ⟨w, [], [], []⟩
  else
    match w.trackerTable.getQp task.qpn, qpTable.getQp task.qpn with
    | some tracker, some qpAttr =>
      match lookupCqs qpAttr task with
      | .error msg => ⟨{ w with panicked := some msg }, [], [], []⟩
      | .ok (sendCq, recvCq) =>
        let p := tracker.handle task
        ⟨⟨w.trackerTable.setQp task.qpn p.tracker, p.crashed⟩, p.sends, p.recvs,
          p.sends.flatMap (sendOutputs task.qpn sendCq)
            ++ p.recvs.flatMap (recvOutputs task.qpn recvCq)⟩
    | _, _ => ⟨{ w with panicked := some "invalid qpn: {qpn}" }, [], [], []⟩

end CompletionWorker

end OpenRdma
