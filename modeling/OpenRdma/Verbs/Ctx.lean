import OpenRdma.RdmaUtils.Qp
import OpenRdma.Verbs.Matching
import OpenRdma.Workers.Tasks

/-!
# The device context

The state that the verbs work on, apart from that of the workers: which queue pair numbers are in
use, the attributes of the queue pairs, and the queues of requests and receives that wait, each in a
table by queue pair index.

A receive is announced to the peer over a TCP connection, one for each peer address; a connection is
named by that address here.  Connecting and writing can fail, which is up to the environment
(`TcpEnv`).  The random key of a new queue pair number is an argument.
-/

namespace OpenRdma

/-! ## Arguments and results -/

structure IbvQpInitAttr where
  qpType : UInt8
  sendCq : Option UInt32
  recvCq : Option UInt32
deriving DecidableEq, Repr

inductive QpState where
  | reset
  | init
  | rtr
  | rts
  | sqd
  | sqe
  | err
deriving DecidableEq, Repr

structure IbvQpAttr where
  qpState : Option QpState
  pathMtu : Option UInt8
  destQpNum : Option UInt32
  destQpIp : Option UInt32
deriving DecidableEq, Repr

/-- A receive, and its queue pair. -/
structure RecvWrQpn where
  wr : RecvWr
  qpn : UInt32
deriving DecidableEq, Repr

/-- The command that sets a queue pair up in the hardware. -/
structure UpdateQp where
  ipAddr : UInt32
  qpn : UInt32
  peerQpn : UInt32
  rqAccessFlags : UInt8
  qpType : UInt8
  pmtu : UInt8
  localUdpPort : UInt16
  peerMacAddr : UInt64
deriving DecidableEq, Repr, Inhabited

/-- What a verb does besides changing the context. -/
inductive CtxOutput where
  | updateQp (entry : UpdateQp)
  | tcp (ip : UInt32) (msg : RecvWrQpn)
  | completion (t : CompletionTask)
  | rdmaWrite (t : RdmaWriteTask)
deriving DecidableEq, Repr

/-- Why a verb does not return a value. -/
inductive CtxFailure where
  | error (e : RdmaError)
  | panic (msg : String)
deriving DecidableEq, Repr

/-- What connecting to an address and writing a message come to. -/
structure TcpEnv where
  connects : UInt32 → Bool
  writes : RecvWrQpn → Bool

def cardMacAddress : UInt64 := 0xAABBCCDDEE0A
def ibvMtu4096 : UInt8 := 5

/-! ## The context -/

/-- The device. -/
structure HwDeviceCtx where
  qpManager : QpManager
  qpAttrTable : QpTable QpAttr
  /-- The addresses to which there is a connection. -/
  ipTxTable : List UInt32
  /-- The connection that a queue pair announces its receives on. -/
  postRecvTxTable : QpTable (Option UInt32)
  recvWrQueueTable : QpTable (List RecvWr)
  pendingPostRecvQueue : QpTable (List RecvWr)
  pendingSendQueueTable : QpTable (List SendWr)

/-- A new state, what was done, and what is returned. -/
structure CtxResult (α : Type) where
  ctx : HwDeviceCtx
  outs : List CtxOutput
  ret : Except CtxFailure α

namespace HwDeviceCtx

def init (ip : UInt32) : HwDeviceCtx where
  qpManager := .new
  qpAttrTable := .newWith (.newWithIp ip)
  ipTxTable := []
  postRecvTxTable := .newWith none
  recvWrQueueTable := .newWith []
  pendingPostRecvQueue := .newWith []
  pendingSendQueueTable := .newWith []

def createQp (ctx : HwDeviceCtx) (attr : IbvQpInitAttr) (key : UInt32) : CtxResult UInt32 :=
  match ctx.qpManager.createQp key with
  | none => ⟨ctx, [], .error (.error (.resourceExhausted "No QP numbers available"))⟩
  | some (qpn, qpManager) =>
    let qpAttrTable := ctx.qpAttrTable.mapQpMut qpn fun current =>
      { current with
        qpn := qpn
        qpType := attr.qpType
        sendCq := attr.sendCq
        recvCq := attr.recvCq
        macAddr := cardMacAddress
        pmtu := ibvMtu4096 }
    let entry : UpdateQp :=
      { (default : UpdateQp) with
        ipAddr := 0
        peerMacAddr := 0
        localUdpPort := 0x100
        qpType := attr.qpType
        qpn := qpn }
    ⟨{ ctx with qpManager := qpManager, qpAttrTable := qpAttrTable }, [.updateQp entry], .ok qpn⟩

/-- `IBV_ACCESS_LOCAL_WRITE | IBV_ACCESS_REMOTE_READ | IBV_ACCESS_REMOTE_WRITE`. -/
def rqAccessFlags : UInt8 := 1 ||| 4 ||| 2

/-- The address of the peer after an update: a new one, or else the current one. -/
def peerIp (qpn : UInt32) (current : QpAttr) (attr : IbvQpAttr) : Except CtxFailure UInt32 :=
  match attr.destQpIp with
  | some ip => .ok ip
  | none =>
    if current.dqpIp ≠ 0 then .ok current.dqpIp
    else if attr.qpState = some .init then .ok 0
    else .error (.panic s!"QP {qpn} dest_qp_ip must be set")

/-- Announce the receives that were posted before the peer was known. -/
def flushPending (net : TcpEnv) (ip qpn : UInt32) (queue : List RecvWr) : List CtxOutput :=
  ((queue.map fun wr => (⟨wr, qpn⟩ : RecvWrQpn)).filter net.writes).map (.tcp ip)

/-- Connect to the peer once it is known, unless the queue pair has a connection. -/
def connectPeer (ctx : HwDeviceCtx) (net : TcpEnv) (qpn : UInt32) (qp : QpAttr) : CtxResult Unit :=
  if qp.dqpn ≠ 0 ∧ qp.dqpIp ≠ 0 ∧ ctx.postRecvTxTable.getQp qpn = some none then
    if qp.dqpIp ∈ ctx.ipTxTable ∨ net.connects qp.dqpIp then
      ⟨{ ctx with
          ipTxTable := if qp.dqpIp ∈ ctx.ipTxTable then ctx.ipTxTable else qp.dqpIp :: ctx.ipTxTable
          postRecvTxTable := ctx.postRecvTxTable.setQp qpn (some qp.dqpIp)
          pendingPostRecvQueue := ctx.pendingPostRecvQueue.setQp qpn [] },
        flushPending net qp.dqpIp qpn ((ctx.pendingPostRecvQueue.getQp qpn).getD []), .ok ()⟩
    else ⟨ctx, [], .error (.error (.ioError "connect"))⟩
  else ⟨ctx, [], .ok ()⟩

def updateQp (ctx : HwDeviceCtx) (net : TcpEnv) (qpn : UInt32) (attr : IbvQpAttr) :
    CtxResult Unit :=
  match ctx.qpAttrTable.getQp qpn with
  | none => ⟨ctx, [], .error (.error (.notFound s!"QP {qpn} not found"))⟩
  | some current =>
    match peerIp qpn current attr with
    | .error e => ⟨ctx, [], .error e⟩
    | .ok ip =>
      let entry : UpdateQp :=
        { qpn := qpn
          ipAddr := ip
          localUdpPort := 0x100
          peerMacAddr := cardMacAddress
          qpType := current.qpType
          peerQpn := attr.destQpNum.getD current.dqpn
          rqAccessFlags := rqAccessFlags
          pmtu := attr.pathMtu.getD current.pmtu }
      let qp : QpAttr :=
        { current with
          dqpn := entry.peerQpn
          accessFlags := rqAccessFlags
          pmtu := entry.pmtu
          dqpIp := ip }
      let r := connectPeer { ctx with qpAttrTable := ctx.qpAttrTable.setQp qpn qp } net qpn qp
      ⟨r.ctx, .updateQp entry :: r.outs, r.ret⟩

/-- Only the pending sends are cleared. -/
def destroyQp (ctx : HwDeviceCtx) (qpn : UInt32) : CtxResult Unit :=
  let ctx := { ctx with pendingSendQueueTable := ctx.pendingSendQueueTable.setQp qpn [] }
  match ctx.qpManager.destroyQp qpn with
  | .error msg => ⟨ctx, [], .error (.panic msg)⟩
  | .ok (present, qpManager) =>
    ⟨{ ctx with qpManager := qpManager }, [],
      if present then .ok () else .error (.error (.invalidInput s!"QPN {qpn} not present"))⟩

/-! ## Sends and receives -/

/-- Run `try_match_pendings` on the queues of a queue pair, and hand over the tasks. -/
def matchPendings (ctx : HwDeviceCtx) (qpn : UInt32) (q : MatchQueues) : CtxResult Unit :=
  let r := tryMatchPendings qpn q
  ⟨{ ctx with
      pendingSendQueueTable := ctx.pendingSendQueueTable.setQp qpn r.2.1.pending
      recvWrQueueTable := ctx.recvWrQueueTable.setQp qpn r.2.1.recvs },
    r.2.2.map fun m => .rdmaWrite (.write qpn m.task),
    match r.1 with
    | .done (.ok ()) => .ok ()
    | .done (.error e) => .error (.error e)
    | .panic msg => .error (.panic msg)
    | .goto _ => .error (.panic "the loop goes on")⟩

def postSend (ctx : HwDeviceCtx) (qpn : UInt32) (wr : SendWr) : CtxResult Unit :=
  match ctx.pendingSendQueueTable.getQp qpn, ctx.recvWrQueueTable.getQp qpn with
  | some pending, some recvs =>
    if pending.length < pendingSendQueueCapacity then
      ctx.matchPendings qpn ⟨pending ++ [wr], recvs⟩
    else
      ⟨ctx, [], .error (.error (pendingSendQueueFull qpn))⟩
  | _, _ => ⟨ctx, [], .error (.error (pendingSendQueueFull qpn))⟩

def postRecv (ctx : HwDeviceCtx) (net : TcpEnv) (qpn : UInt32) (wr : RecvWr) : CtxResult Unit :=
  match ctx.qpAttrTable.getQp qpn with
  | none => ⟨ctx, [], .error (.error (.qpError s!"QP {qpn} not found"))⟩
  | some _ =>
    let register : CtxOutput := .completion (.register qpn (.postRecv ⟨qpn, wr.wrId⟩))
    match (ctx.postRecvTxTable.getQp qpn).join with
    | some ip =>
      if net.writes ⟨wr, qpn⟩ then ⟨ctx, [register, .tcp ip ⟨wr, qpn⟩], .ok ()⟩
      else ⟨ctx, [register], .error (.error (.ioError "write"))⟩
    | none =>
      ⟨{ ctx with
          pendingPostRecvQueue := ctx.pendingPostRecvQueue.mapQpMut qpn (· ++ [wr]) },
        [register], .ok ()⟩

end HwDeviceCtx

/-- `QpTableShared::query`: the first entry that passes the test. -/
def QpTable.query {α : Type} (t : QpTable α) (p : α → Bool) : Option α :=
  (List.finRange maxQpCnt).findSome? fun i => if p (t.inner i) then some (t.inner i) else none

/-- A peer at `addr` announces a receive: it goes to the first queue pair with that peer. -/
def HwDeviceCtx.recvMsg (ctx : HwDeviceCtx) (addr : UInt32) (msg : RecvWrQpn) : CtxResult Unit :=
  match ctx.qpAttrTable.query fun current => msg.qpn == current.dqpn && addr == current.dqpIp with
  | none => ⟨ctx, [], .ok ()⟩
  | some attr =>
    let qpn := attr.qpn
    match ctx.pendingSendQueueTable.getQp qpn, ctx.recvWrQueueTable.getQp qpn with
    | some pending, some recvs => ctx.matchPendings qpn ⟨pending, recvs ++ [msg.wr]⟩
    | _, _ => ⟨ctx, [], .error (.panic s!"RecvWorker: Receive WR queue for QP {qpn} not found")⟩

end OpenRdma
