import OpenRdma.Tx.Mvp
import OpenRdma.Tx.PacketAssembly

/-!
# From the submission pipeline to the packetizer

The adapter makes a chunk of every DMA read request, and of the first request of a message also the
context that the packetizer needs.  It checks that the PSNs reserved for the message are as many as
the packetizer will use.
-/

namespace OpenRdma

abbrev DmaWqeTag := BitVec 16
abbrev DmaChunkSeq := BitVec 16

/-- A read for the packetizer. -/
structure DmaChunkReq where
  physAddr : BitVec 64
  len : BitVec 32
  wqeTag : DmaWqeTag
  chunkSeq : DmaChunkSeq
  isFirst : Bool
  isLast : Bool
deriving DecidableEq, Repr

def TxLabel.isInput : TxLabel → Bool
  | .contextIn _ => true
  | _ => false

def PhaseA.packetCountForMessage (len : TxLength) (pmtu : TxPmtuCode) : TxPsnCount :=
  packetCountForProfile len pmtu .legacyPrivate

namespace Mvp

structure M0MessageAdapter where
  requestQ : Fifo TxDmaReadRequest 2
  chunkQ : Fifo DmaChunkReq 2
  contextQ : Fifo MessageContext 2

namespace M0MessageAdapter

def chunkOf (req : TxDmaReadRequest) : DmaChunkReq where
  physAddr := req.physicalAddr
  len := req.len.setWidth 32
  wqeTag := req.requestId
  chunkSeq := req.dmaSeq
  isFirst := req.isFirst
  isLast := req.isLast

/-- The context of the message that a request starts.  There is no destination queue pair before
this stage, so the message goes to its own. -/
def contextOf (req : TxDmaReadRequest) : MessageContext where
  requestId := req.requestId
  qpn := req.qpn
  destQpn := req.qpn
  slotId := req.slotId
  debugSeq := req.debugSeq
  pmtu := req.pmtu
  startPsn := req.startPsn
  psnCount := req.psnCount.setWidth 18
  remoteAddr := req.remoteAddr
  remoteKey := req.remoteKey
  len := req.messageLength
  wireProfile := .legacyPrivate
  evProfileId := 0
  mrcMsn := 0
  mrcMsnValid := false

/-- The assertions on a request that starts a message. -/
def starts (req : TxDmaReadRequest) : Bool :=
  req.messageLength != 0 && req.pmtu ≤ 4
    && req.psnCount.setWidth 18 = PhaseA.packetCountForMessage req.messageLength req.pmtu

def emitMessageStart (a : M0MessageAdapter) : Option M0MessageAdapter := do
  let (req, requestQ) ← a.requestQ.deq
  guard req.isFirst
  guard (starts req)
  return { a with
    requestQ
    chunkQ := ← a.chunkQ.enq (chunkOf req)
    contextQ := ← a.contextQ.enq (contextOf req) }

def emitContinuation (a : M0MessageAdapter) : Option M0MessageAdapter := do
  let (req, requestQ) ← a.requestQ.deq
  guard (!req.isFirst)
  return { a with requestQ, chunkQ := ← a.chunkQ.enq (chunkOf req) }

end M0MessageAdapter

/-! ## The chain -/

/-- The stages, one after another. -/
structure M0Chain where
  mvp : TxMvp
  adapter : M0MessageAdapter
  packetizer : PacketAssemblyEngine

/-- The rules of the parts, and the connections between them.  The chunks go to the DMA engine. -/
inductive ChainLabel where
  | mvp (l : MvpLabel)
  | connectRequest
  | emitMessageStart
  | emitContinuation
  | chunkOut
  | connectContext
  | packetizer (l : TxLabel)
deriving DecidableEq, Repr

namespace M0Chain

def initial : M0Chain := ⟨.initial, ⟨.empty, .empty, .empty⟩, .initial⟩

/-- What leaves the pipeline and what enters the packetizer does so through a connection. -/
def step (c : M0Chain) : ChainLabel → Option M0Chain
  | .mvp l => do
      guard (l ≠ .dmaReadReqOut)
      return { c with mvp := ← c.mvp.step l }
  | .connectRequest => do
      let (req, mvp) ← c.mvp.dmaReadReqOut
      return { c with
        mvp
        adapter := { c.adapter with requestQ := ← c.adapter.requestQ.enq req } }
  | .emitMessageStart => return { c with adapter := ← c.adapter.emitMessageStart }
  | .emitContinuation => return { c with adapter := ← c.adapter.emitContinuation }
  | .chunkOut => do
      let (_, chunkQ) ← c.adapter.chunkQ.deq
      return { c with adapter := { c.adapter with chunkQ } }
  | .connectContext => do
      let (ctx, contextQ) ← c.adapter.contextQ.deq
      return { c with
        adapter := { c.adapter with contextQ }
        packetizer := ← c.packetizer.contextIn ctx }
  | .packetizer l => do
      guard (!l.isInput)
      return { c with packetizer := ← c.packetizer.step l }

/-- The history of the pipeline. -/
def observe (c : M0Chain) (l : ChainLabel) (h : MvpHistory) : MvpHistory :=
  match l with
  | .mvp l => c.mvp.observe l h
  | .connectRequest => c.mvp.observe .dmaReadReqOut h
  | _ => h

end M0Chain

/-- The chain with the history of its pipeline. -/
def chainStep : M0Chain × MvpHistory → ChainLabel → Option (M0Chain × MvpHistory) :=
  watched M0Chain.step M0Chain.observe

end Mvp

end OpenRdma
