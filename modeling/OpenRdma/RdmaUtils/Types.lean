import OpenRdma.RdmaUtils.Psn

/-!
# Work requests, queue pair attributes and hardware chunks

The plain data of the driver.  Addresses (`VirtAddr`, `RemoteAddr`) are the `u64` they wrap; every
other field keeps the width it has in the source.

A `WrChunk` is one descriptor of the send ring.  The builder of the source is a typestate chain
around a `WrChunk`; here it is the chain of functions that fill the fields, in the same order
(`newWithOpcode`, `setQpParams`, `setIbvParams`, `setChunkMeta`).
-/

namespace OpenRdma

/-! ## Errors -/

/-- The errors of the driver's operations that are modelled. -/
inductive RdmaError where
  | invalidInput (msg : String)
  | notFound (msg : String)
  | resourceExhausted (msg : String)
  | memoryError (msg : String)
  | qpError (msg : String)
  | ioError (msg : String)
deriving DecidableEq, Repr

/-- The text of an error. -/
def RdmaError.text : RdmaError → String
  | invalidInput msg => s!"Invalid input: {msg}"
  | notFound msg => s!"Resource not found: {msg}"
  | resourceExhausted msg => s!"Resource exhausted: {msg}"
  | memoryError msg => s!"Memory registration error: {msg}"
  | qpError msg => s!"Queue pair error: {msg}"
  | ioError msg => s!"I/O error: {msg}"

/-! ## Work requests -/

inductive WorkReqOpCode where
  | rdmaWrite
  | rdmaWriteWithImm
  | send
  | sendWithImm
  | rdmaRead
  | atomicCmpAndSwp
  | atomicFetchAndAdd
  | localInv
  | bindMw
  | sendWithInv
  | tso
  | driver1
  | rdmaReadResp
  | rdmaAck
  | flush
  | atomicWrite
deriving DecidableEq, Repr, Inhabited

/-- What all requests have. -/
structure SendWrBase where
  wrId : UInt64
  sendFlags : UInt32
  laddr : UInt64
  length : UInt32
  lkey : UInt32
  immData : UInt32
  opcode : WorkReqOpCode
deriving DecidableEq, Repr

/-- A write or a read. -/
structure SendWrRdma where
  base : SendWrBase
  raddr : UInt64
  rkey : UInt32
deriving DecidableEq, Repr

namespace SendWrRdma

def newFromBase (base : SendWrBase) (raddr : UInt64) (rkey : UInt32) : SendWrRdma :=
  ⟨base, raddr, rkey⟩

def laddr (wr : SendWrRdma) : UInt64 := wr.base.laddr
def length (wr : SendWrRdma) : UInt32 := wr.base.length
def lkey (wr : SendWrRdma) : UInt32 := wr.base.lkey
def imm (wr : SendWrRdma) : UInt32 := wr.base.immData
def sendFlags (wr : SendWrRdma) : UInt32 := wr.base.sendFlags
def wrId (wr : SendWrRdma) : UInt64 := wr.base.wrId
def opcode (wr : SendWrRdma) : WorkReqOpCode := wr.base.opcode

end SendWrRdma

inductive SendWr where
  | rdma (wr : SendWrRdma)
  | send (wr : SendWrBase)
deriving DecidableEq, Repr

/-- A posted receive. -/
structure RecvWr where
  wrId : UInt64
  addr : UInt64
  length : UInt32
  lkey : UInt32
deriving DecidableEq, Repr

/-- `IBV_SEND_SIGNALED`. -/
def ibvSendSignaled : UInt32 := 2
/-- `IBV_SEND_SOLICITED`. -/
def ibvSendSolicited : UInt32 := 4

/-- Whether the flags of a work request ask for a completion. -/
def SendWrRdma.isSignaled (wr : SendWrRdma) : Bool := wr.sendFlags &&& ibvSendSignaled != 0

/-! ## Queue pair attributes -/

/-- The attributes of a queue pair. -/
structure QpAttr where
  qpType : UInt8
  qpn : UInt32
  dqpn : UInt32
  ip : UInt32
  dqpIp : UInt32
  macAddr : UInt64
  pmtu : UInt8
  accessFlags : UInt8
  sendCq : Option UInt32
  recvCq : Option UInt32
deriving DecidableEq, Repr, Inhabited

def QpAttr.newWithIp (ip : UInt32) : QpAttr := { (default : QpAttr) with ip := ip }

/-- What the packets of a queue pair carry. -/
structure QpParams where
  msn : UInt16
  qpType : UInt8
  sqpn : UInt32
  macAddr : UInt64
  dqpn : UInt32
  dqpIp : UInt32
  pmtu : UInt8
deriving DecidableEq, Repr, Inhabited

/-- The parameters the workers copy out of a queue pair's attributes for one message. -/
def QpAttr.params (qp : QpAttr) (msn : UInt16) : QpParams :=
  ⟨msn, qp.qpType, qp.qpn, qp.macAddr, qp.dqpn, qp.dqpIp, qp.pmtu⟩

/-! ## Chunks -/

/-- The place of a chunk in its request. -/
inductive ChunkPos where
  | first
  | middle
  | last
  | only
deriving DecidableEq, Repr

/-- A piece of a request, for the hardware. -/
structure WrChunk where
  opcode : WorkReqOpCode
  qpType : UInt8
  sqpn : UInt32
  macAddr : UInt64
  dqpn : UInt32
  dqpIp : UInt32
  pmtu : UInt8
  flags : UInt8
  raddr : UInt64
  rkey : UInt32
  totalLen : UInt32
  lkey : UInt32
  imm : UInt32
  laddr : UInt64
  len : UInt32
  isFirst : Bool
  isLast : Bool
  msn : UInt16
  psn : Psn
  isRetry : Bool
  enableEcn : Bool
deriving DecidableEq, Repr, Inhabited

namespace WrChunk

def newWithOpcode (opcode : WorkReqOpCode) : WrChunk :=
  { (default : WrChunk) with opcode := opcode }

def setQpParams (c : WrChunk) (qp : QpParams) : WrChunk :=
  { c with
    qpType := qp.qpType, sqpn := qp.sqpn, macAddr := qp.macAddr, dqpn := qp.dqpn,
    dqpIp := qp.dqpIp, pmtu := qp.pmtu, msn := qp.msn }

def setIbvParams (c : WrChunk) (flags : UInt8) (rkey totalLen lkey imm : UInt32) : WrChunk :=
  { c with flags := flags, rkey := rkey, totalLen := totalLen, lkey := lkey, imm := imm }

def setChunkMeta (c : WrChunk) (psn : Psn) (laddr raddr : UInt64) (len : UInt32)
    (pos : ChunkPos) : WrChunk :=
  let c := { c with psn := psn, laddr := laddr, raddr := raddr, len := len }
  match pos with
  | .first => { c with isFirst := true }
  | .last => { c with isLast := true }
  | .middle => c
  | .only => { c with isFirst := true, isLast := true }

def setIsRetry (c : WrChunk) : WrChunk := { c with isRetry := true }

/-- The builder of the chunks of one work request, before their position is filled in. -/
def ofWr (wr : SendWrRdma) (qp : QpParams) : WrChunk :=
  ((newWithOpcode wr.opcode).setQpParams qp).setIbvParams wr.sendFlags.toUInt8 wr.rkey wr.length
    wr.lkey wr.imm

end WrChunk

end OpenRdma
