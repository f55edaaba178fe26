import OpenRdma.RdmaUtils.Types

/-!
# What the workers tell each other

Each worker owns its state and is driven by a FIFO channel of tasks.  This module has the tasks,
the events that travel inside them, and the completions a user finally sees.  A record's `meta`
is called `msgMeta` here.
-/

namespace OpenRdma

/-! ## Events -/

/-- The number of a message, and where it ends. -/
structure MessageMeta where
  msn : UInt16
  endPsn : Psn
deriving DecidableEq, Repr, Inhabited

inductive SendEventOp where
  | writeSignaled
  | sendSignaled
  | readSignaled
deriving DecidableEq, Repr

/-- A signaled request. -/
structure SendEvent where
  qpn : UInt32
  op : SendEventOp
  msgMeta : MessageMeta
  wrId : UInt64
deriving DecidableEq, Repr

inductive RecvEventOp where
  | write
  | writeWithImm (imm : UInt32)
  | recv
  | recvWithImm (imm : UInt32)
  | readResp
  | recvRead
deriving DecidableEq, Repr, Inhabited

/-- A received message. -/
structure RecvEvent where
  qpn : UInt32
  op : RecvEventOp
  msgMeta : MessageMeta
  ackReq : Bool
deriving DecidableEq, Repr, Inhabited

/-- A posted receive. -/
structure PostRecvEvent where
  qpn : UInt32
  wrId : UInt64
deriving DecidableEq, Repr

/-- What is registered for completion: a signaled request, a received message, a posted receive. -/
inductive Event where
  | send (e : SendEvent)
  | recv (e : RecvEvent)
  | postRecv (e : PostRecvEvent)
deriving DecidableEq, Repr

/-- `trait EventMeta`. -/
class EventMeta (E : Type) where
  msgMeta : E → MessageMeta

instance : EventMeta SendEvent := ⟨SendEvent.msgMeta⟩
instance : EventMeta RecvEvent := ⟨RecvEvent.msgMeta⟩

/-- What a user polls. -/
inductive Completion where
  | send (wrId : UInt64)
  | rdmaWrite (wrId : UInt64)
  | rdmaRead (wrId : UInt64)
  | recv (wrId : UInt64) (imm : Option UInt32)
  | recvRdmaWithImm (wrId : UInt64) (imm : UInt32)
deriving DecidableEq, Repr

def Completion.wrId : Completion → UInt64
  | send wrId | rdmaWrite wrId | rdmaRead wrId | recv wrId _ | recvRdmaWithImm wrId _ => wrId

/-- Whether a completion is one of a send work request. -/
def Completion.isSend : Completion → Bool
  | send _ | rdmaWrite _ | rdmaRead _ => true
  | recv _ _ | recvRdmaWithImm _ _ => false

/-! ## Tasks -/

/-- A task of the completion worker. -/
inductive CompletionTask where
  | register (qpn : UInt32) (event : Event)
  | ackSend (qpn : UInt32) (basePsn : Psn)
  | ackRecv (qpn : UInt32) (basePsn : Psn)
deriving DecidableEq, Repr

def CompletionTask.qpn : CompletionTask → UInt32
  | register qpn _ | ackSend qpn _ | ackRecv qpn _ => qpn

/-- A task of the timer. -/
inductive AckTimeoutTask where
  | newAckReq (qpn : UInt32)
  | recvMeta (qpn : UInt32)
  | ack (qpn : UInt32)
deriving DecidableEq, Repr

/-- A task of the worker that cuts requests. -/
inductive RdmaWriteTask where
  | write (qpn : UInt32) (wr : SendWrRdma)
  | ack (qpn : UInt32) (basePsn : Psn)
  | newComplete (qpn : UInt32) (msn : UInt16)
deriving DecidableEq, Repr

/-- A request that may be sent again. -/
structure SendQueueElem where
  psn : Psn
  wr : SendWrRdma
  qpParam : QpParams
deriving DecidableEq, Repr

/-- A task of the worker that sends again. -/
inductive PacketRetransmitTask where
  | newWr (qpn : UInt32) (wr : SendQueueElem)
  | retransmitRange (qpn : UInt32) (psnLow psnHigh : Psn)
  | retransmitAll (qpn : UInt32)
  | ack (qpn : UInt32) (psn : Psn)
deriving DecidableEq, Repr

def PacketRetransmitTask.qpn : PacketRetransmitTask → UInt32
  | newWr qpn _ | retransmitRange qpn _ _ | retransmitAll qpn | ack qpn _ => qpn

/-- An answer to the sender. -/
inductive AckResponse where
  | ack (qpn : UInt32) (msn : UInt16) (lastPsn : Psn)
  | nak (qpn : UInt32) (basePsn ackReqPacketPsn : Psn)
deriving DecidableEq, Repr

/-- Everything a worker can put on a channel or a completion queue, in the order it does so. -/
inductive Output where
  | cq (handle : UInt32) (c : Completion)
  | completion (t : CompletionTask)
  | ackTimeout (t : AckTimeoutTask)
  | rdmaWrite (t : RdmaWriteTask)
  | retransmit (t : PacketRetransmitTask)
  | ackResp (r : AckResponse)
  | chunk (c : WrChunk)
deriving DecidableEq, Repr

namespace Output

/-- The tasks sent to the completion worker, in order. -/
def completionTasks (outs : List Output) : List CompletionTask :=
  outs.filterMap fun o => match o with
    | completion t => some t
    | _ => none

@[simp] lemma completionTasks_nil : completionTasks [] = [] := rfl

@[simp] lemma completionTasks_append (a b : List Output) :
    completionTasks (a ++ b) = completionTasks a ++ completionTasks b :=
  List.filterMap_append

/-- The completions pushed, in order, each with the handle of its queue. -/
def cqPushes (outs : List Output) : List (UInt32 × Completion) :=
  outs.filterMap fun o => match o with
    | cq handle c => some (handle, c)
    | _ => none

end Output

end OpenRdma
