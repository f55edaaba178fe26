import OpenRdma.RdmaUtils.PsnTracker
import OpenRdma.RdmaUtils.Qp
import OpenRdma.Workers.Tasks

/-!
# The meta report worker

The hardware reports the header of every packet it receives and the acknowledgements it generates or
receives; `MetaHandler.handleMeta` turns each report into tasks for the other workers.  It keeps two
acknowledgement trackers per queue pair: one for the packets received (`recvTable`) and one for the
packets sent (`sendTable`).

A handler returns `none` for an unknown queue pair (the worker logs it and goes on), possibly after
some tasks have been sent.  A congestion notification is not implemented and panics.
-/

namespace OpenRdma

/-! ## Reports -/

inductive PacketPos where
  | first
  | middle
  | last
  | only
deriving DecidableEq, Repr, Inhabited

/-- `matches!(pos, PacketPos::Last | PacketPos::Only)`. -/
def PacketPos.isEnd : PacketPos → Bool
  | last | only => true
  | first | middle => false

inductive HeaderType where
  | write
  | writeWithImm
  | send
  | sendWithImm
  | readResp
deriving DecidableEq, Repr, Inhabited

/-- A packet that carries data. -/
structure HeaderWriteMeta where
  pos : PacketPos
  msn : UInt16
  psn : Psn
  solicited : Bool
  ackReq : Bool
  isRetry : Bool
  dqpn : UInt32
  totalLen : UInt32
  raddr : UInt64
  rkey : UInt32
  imm : UInt32
  headerType : HeaderType
deriving DecidableEq, Repr, Inhabited

/-- A read request. -/
structure HeaderReadMeta where
  msn : UInt16
  psn : Psn
  dqpn : UInt32
  raddr : UInt64
  rkey : UInt32
  totalLen : UInt32
  laddr : UInt64
  lkey : UInt32
  ackReq : Bool
deriving DecidableEq, Repr, Inhabited

structure AckMetaLocalHw where
  qpn : UInt32
  psnNow : Psn
  nowBitmap : BitVec 128
deriving DecidableEq, Repr

structure AckMetaRemoteDriver where
  qpn : UInt32
  psnNow : Psn
deriving DecidableEq, Repr

structure NakMetaLocalHw where
  qpn : UInt32
  msn : UInt16
  psnNow : Psn
  nowBitmap : BitVec 128
  psnPre : Psn
  preBitmap : BitVec 128
deriving DecidableEq, Repr

structure NakMetaRemoteHw where
  qpn : UInt32
  msn : UInt16
  psnNow : Psn
  nowBitmap : BitVec 128
  psnPre : Psn
  preBitmap : BitVec 128
deriving DecidableEq, Repr

structure NakMetaRemoteDriver where
  qpn : UInt32
  psnNow : Psn
  psnPre : Psn
deriving DecidableEq, Repr

structure CnpMeta where
  qpn : UInt32
deriving DecidableEq, Repr

/-- A report of the hardware, parsed. -/
inductive ReportMeta where
  | headerWrite (x : HeaderWriteMeta)
  | headerRead (x : HeaderReadMeta)
  | ackLocalHw (x : AckMetaLocalHw)
  | ackRemoteDriver (x : AckMetaRemoteDriver)
  | nakLocalHw (x : NakMetaLocalHw)
  | nakRemoteHw (x : NakMetaRemoteHw)
  | nakRemoteDriver (x : NakMetaRemoteDriver)
  | cnp (x : CnpMeta)
deriving DecidableEq, Repr

def ReportMeta.qpn : ReportMeta → UInt32
  | headerWrite x => x.dqpn
  | headerRead x => x.dqpn
  | ackLocalHw x => x.qpn
  | ackRemoteDriver x => x.qpn
  | nakLocalHw x => x.qpn
  | nakRemoteHw x => x.qpn
  | nakRemoteDriver x => x.qpn
  | cnp x => x.qpn

/-! ## The handler -/

/-- The trackers of all queue pairs. -/
structure MetaHandler where
  sendTable : QpTable RemoteAckTracker
  recvTable : QpTable LocalAckTracker
  /-- The panic that ended the worker's thread. -/
  panicked : Option String

instance : Inhabited MetaHandler := ⟨⟨default, default, none⟩⟩

/-- What handling one report does: the new state, what is sent, and the returned `Option<()>`. -/
structure Handled where
  handler : MetaHandler
  outs : List Output
  ret : Option Unit

/-- The event of a received message whose last packet this is. -/
def HeaderWriteMeta.event (x : HeaderWriteMeta) : RecvEvent :=
  let op : RecvEventOp := match x.headerType with
    | .write => .write
    | .writeWithImm => .writeWithImm x.imm
    | .send => .recv
    | .sendWithImm => .recvWithImm x.imm
    | .readResp => .readResp
  ⟨x.dqpn, op, ⟨x.msn, x.psn + (1 : UInt32)⟩, x.ackReq⟩

/-- The write request that answers a READ. -/
def HeaderReadMeta.response (x : HeaderReadMeta) : SendWrRdma :=
  let flags := if x.ackReq then ibvSendSolicited else 0
  SendWrRdma.newFromBase ⟨0, flags, x.raddr, x.totalLen, x.rkey, 0, .rdmaReadResp⟩ x.laddr x.lkey

namespace MetaHandler

def senderUpdates (qpn : UInt32) (basePsn : Psn) : List Output :=
  [.completion (.ackSend qpn basePsn), .retransmit (.ack qpn basePsn),
    .rdmaWrite (.ack qpn basePsn)]

def receiverUpdates (qpn : UInt32) (basePsn : Psn) : List Output :=
  [.completion (.ackRecv qpn basePsn)]

/-- `if let Some(psn) = ..`: what is sent when the base moved. -/
def onMove (r : Option Psn) (f : Psn → List Output) : List Output := (r.map f).getD []

/-- Run an acknowledgement of received packets on the queue pair's tracker. -/
def updateRecv (h : MetaHandler) (qpn : UInt32)
    (f : LocalAckTracker → LocalAckTracker × Option Psn) : Handled :=
  match h.recvTable.getQp qpn with
  | none => ⟨h, [], none⟩
  | some tracker =>
    let (tracker, r) := f tracker
    ⟨{ h with recvTable := h.recvTable.setQp qpn tracker }, onMove r (receiverUpdates qpn),
      some ()⟩

/-- Run an acknowledgement of sent packets on the queue pair's tracker. -/
def updateSend (h : MetaHandler) (qpn : UInt32)
    (f : RemoteAckTracker → RemoteAckTracker × Option Psn) : Handled :=
  match h.sendTable.getQp qpn with
  | none => ⟨h, [], none⟩
  | some tracker =>
    let (tracker, r) := f tracker
    ⟨{ h with sendTable := h.sendTable.setQp qpn tracker }, onMove r (senderUpdates qpn), some ()⟩

def handleAckLocalHw (h : MetaHandler) (x : AckMetaLocalHw) : Handled :=
  h.updateRecv x.qpn (fun tracker => tracker.ackBitmap x.psnNow x.nowBitmap)

def handleNakLocalHw (h : MetaHandler) (x : NakMetaLocalHw) : Handled :=
  h.updateRecv x.qpn (fun tracker => tracker.nakBitmap x.psnPre x.preBitmap x.psnNow x.nowBitmap)

def handleAckRemoteDriver (h : MetaHandler) (x : AckMetaRemoteDriver) : Handled :=
  h.updateSend x.qpn (fun tracker => tracker.ackBefore x.psnNow)

def handleNakRemoteHw (h : MetaHandler) (x : NakMetaRemoteHw) : Handled :=
  h.updateSend x.qpn
    (fun tracker => tracker.nakBitmap x.msn x.psnPre x.preBitmap x.psnNow x.nowBitmap)

def handleNakRemoteDriver (h : MetaHandler) (x : NakMetaRemoteDriver) : Handled :=
  h.updateSend x.qpn (fun tracker => tracker.ackBefore x.psnPre)

/-- A READ request: its arrival is an event of its own, and the response is sent as a write. -/
def handleHeaderRead (h : MetaHandler) (x : HeaderReadMeta) : Handled :=
  let respond : List Output := [.rdmaWrite (.write x.dqpn x.response)]
  if x.ackReq then
    let event : RecvEvent := ⟨x.dqpn, .recvRead, ⟨x.msn, x.psn + (1 : UInt32)⟩, true⟩
    let registerOut : List Output := [.completion (.register x.dqpn (.recv event))]
    match h.recvTable.getQp x.dqpn with
    | none => ⟨h, registerOut, none⟩
    | some tracker =>
      let (tracker, r) := tracker.ackOne x.psn
      ⟨{ h with recvTable := h.recvTable.setQp x.dqpn tracker },
        registerOut ++ onMove r (receiverUpdates x.dqpn) ++ respond, some ()⟩
  else ⟨h, respond, some ()⟩

/-- A packet of a write, a send or a READ response: the last one registers the message, every one is
acknowledged, and a retransmitted last one that asks for an acknowledgement is answered at once. -/
def handleHeaderWrite (h : MetaHandler) (x : HeaderWriteMeta) : Handled :=
  match h.recvTable.getQp x.dqpn with
  | none => ⟨h, [], none⟩
  | some tracker =>
    let registerOut : List Output :=
      if x.pos.isEnd then [.completion (.register x.dqpn (.recv x.event))] else []
    let (tracker, r) := tracker.ackOne x.psn
    let nakOut : List Output :=
      if x.pos.isEnd && x.isRetry && x.ackReq
      then [.ackResp (.nak x.dqpn tracker.basePsn (x.psn - (1 : UInt32)))] else []
    ⟨{ h with recvTable := h.recvTable.setQp x.dqpn tracker },
      registerOut ++ onMove r (receiverUpdates x.dqpn) ++ nakOut, some ()⟩

/-- Handle one report; every report restarts the queue pair's retransmission timer first. -/
def handleMeta (h : MetaHandler) (m : ReportMeta) : Handled :=
  if h.panicked.isSome then ⟨h, [], none⟩
  else
    let r := match m with
      | .headerWrite x => h.handleHeaderWrite x
      | .headerRead x => h.handleHeaderRead x
      | .ackLocalHw x => h.handleAckLocalHw x
      | .ackRemoteDriver x => h.handleAckRemoteDriver x
      | .nakLocalHw x => h.handleNakLocalHw x
      | .nakRemoteHw x => h.handleNakRemoteHw x
      | .nakRemoteDriver x => h.handleNakRemoteDriver x
      | .cnp _ => ⟨{ h with panicked := some "not yet implemented" }, [], none⟩
    { r with outs := .ackTimeout (.recvMeta m.qpn) :: r.outs }

/-- Handle reports in order: the final state and everything sent. -/
def run (h : MetaHandler) (metas : List ReportMeta) : MetaHandler × List Output :=
  metas.foldl (fun acc m => ((acc.1.handleMeta m).handler, acc.2 ++ (acc.1.handleMeta m).outs))
    (h, [])

lemma run_append (h : MetaHandler) (metas : List ReportMeta) (m : ReportMeta) :
    h.run (metas ++ [m]) = (((h.run metas).1.handleMeta m).handler,
      (h.run metas).2 ++ ((h.run metas).1.handleMeta m).outs) := by
  simp [run, List.foldl_append]

end MetaHandler

end OpenRdma
