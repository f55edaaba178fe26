import OpenRdma.RdmaUtils.Types
import OpenRdma.Ring.Descriptors
import OpenRdma.Ring.ProducerRing

/-!
# The send worker

Chunks are handed to a global injector.  The worker polls them in batches of sixteen, through a
local FIFO deque, and pushes the two descriptors of each chunk to its ring; a chunk for which the
ring has no room goes to the back of the local deque.
-/

namespace OpenRdma

/-! ## The descriptors of a chunk -/

def WorkReqOpCode.toU8 : WorkReqOpCode → UInt8
  | .rdmaWrite => 0
  | .rdmaWriteWithImm => 1
  | .send => 2
  | .sendWithImm => 3
  | .rdmaRead => 4
  | .atomicCmpAndSwp => 5
  | .atomicFetchAndAdd => 6
  | .localInv => 7
  | .bindMw => 8
  | .sendWithInv => 9
  | .tso => 10
  | .driver1 => 11
  | .rdmaReadResp => 12
  | .rdmaAck => 13
  | .flush => 14
  | .atomicWrite => 15

/-- The common header of a send descriptor, which is always valid. -/
def sendDescHeader (opcode : WorkReqOpCode) (hasNext : Bool) : UInt64 :=
  opcode.toU8.toUInt64 ||| (hasNext.toUInt64 <<< 14) ||| 0x8000

/-- `SendQueueReqDescSeg0::new` -/
def WrChunk.seg0 (wr : WrChunk) : Desc where
  c0 := ((wr.flags.toUInt64 &&& 0x1f) <<< 3) ||| ((wr.dqpn.toUInt64 &&& 0xffffff) <<< 8) |||
    ((wr.qpType.toUInt64 &&& 0xf) <<< 36) ||| ((wr.psn.val.toUInt64 &&& 0xffffff) <<< 40)
  c1 := wr.raddr
  c2 := wr.dqpIp.toUInt64 ||| (wr.rkey.toUInt64 <<< 32)
  c3 := wr.totalLen.toUInt64 ||| (wr.msn.toUInt64 <<< 32) ||| (sendDescHeader wr.opcode true <<< 48)

/-- `SendQueueReqDescSeg1::new` -/
def WrChunk.seg1 (wr : WrChunk) : Desc where
  c0 := wr.laddr
  c1 := wr.len.toUInt64 ||| (wr.lkey.toUInt64 <<< 32)
  c2 := (wr.sqpn >>> 8).toUInt16.toUInt64 ||| ((wr.macAddr &&& 0xffffffffffff) <<< 16)
  c3 := wr.imm.toUInt64 ||| (wr.sqpn.toUInt8.toUInt64 <<< 32) ||| (wr.enableEcn.toUInt64 <<< 41) |||
    (wr.isRetry.toUInt64 <<< 42) ||| (wr.isLast.toUInt64 <<< 43) |||
    (wr.isFirst.toUInt64 <<< 44) |||
    ((wr.pmtu.toUInt64 &&& 0x7) <<< 45) ||| (sendDescHeader wr.opcode false <<< 48)

inductive SendQueueDesc where
  | seg0 (d : Desc)
  | seg1 (d : Desc)
deriving DecidableEq, Repr

def SendQueueDesc.toBytes : SendQueueDesc → Desc
  | .seg0 d => d
  | .seg1 d => d

/-- What `process` pushes for a chunk. -/
def WrChunk.descs (wr : WrChunk) : List SendQueueDesc := [.seg0 wr.seg0, .seg1 wr.seg1]

/-! ## The worker -/

/-- The ring of a send channel. -/
def sendRingSpec : RingSpec := ⟨12, RingSpec.twelve_fits⟩

/-- The worker with its queues and its ring.  `retVal` is what `poll` has collected so far, `wrs`
what `process` has yet to go through, and `push` the call that it is in for the first chunk of
`wrs`.  `putBack` counts the chunks of the batch that went back to the local deque. -/
structure SendWorker (spec : RingSpec) where
  injector : List WrChunk
  localQueue : List WrChunk
  retVal : List (Option WrChunk)
  wrs : List (Option WrChunk)
  push : Option (ProducerRing.ProducerM spec Desc (Except CsrError Bool))
  sq : ProducerState spec Desc
  panicked : Bool
  putBack : ℕ

namespace SendWorker

variable {spec : RingSpec}

def new (buffer : Fin spec.elementNum → Desc) : SendWorker spec where
  injector := []
  localQueue := []
  retVal := []
  wrs := []
  push := none
  sq := .new buffer
  panicked := false
  putBack := 0

/-- `ret_val.push(wqe)`; the sixteenth hands the batch to `process`. -/
def collect (s : SendWorker spec) (wqe : Option WrChunk) : SendWorker spec :=
  let retVal := s.retVal ++ [wqe]
  if retVal.length = 16 then { s with retVal := [], wrs := retVal, putBack := 0 } else
    { s with retVal }

/-- One pop of `poll`: from the local deque, or else a batch from the injector, of which the first
chunk is taken and `n` more go to the local deque.  There is no other worker to steal from. -/
def pollNext (n : ℕ) (s : SendWorker spec) : SendWorker spec :=
  match s.localQueue, s.injector with
  | wr :: rest, _ => { s with localQueue := rest }.collect (some wr)
  | [], wr :: rest =>
    { s with injector := rest.drop n, localQueue := rest.take n }.collect (some wr)
  | [], [] => s.collect none

/-- The next action of the push for `wr`, or its start: what is left of the call, and the ring
after. -/
def advance (s : SendWorker spec) (wr : WrChunk) :
    ProducerRing.ProducerM spec Desc (Except CsrError Bool) × ProducerState spec Desc :=
  Prog.advance (ProducerRing.tryPushAtomic SendQueueDesc.toBytes wr.descs) s.push s.sq

/-- `process` goes on with what is left of the push; an error is unwrapped. -/
def resume (s : SendWorker spec) (wr : WrChunk) (rest : List (Option WrChunk)) :
    ProducerRing.ProducerM spec Desc (Except CsrError Bool) → SendWorker spec
  | .act f k => { s with push := some (.act f k) }
  | .ret (.ok true) => { s with push := none, wrs := rest }
  | .ret (.ok false) =>
    { s with
      push := none, wrs := rest, localQueue := s.localQueue ++ [wr], putBack := s.putBack + 1 }
  | .ret (.error _) => { s with push := none, panicked := true }

/-- The worker's next action; `n` is how many chunks the injector gives should it be asked. -/
def work (n : ℕ) (s : SendWorker spec) : SendWorker spec :=
  if s.panicked then s
  else
    match s.wrs with
    | [] => s.pollNext n
    | none :: rest => { s with wrs := rest }
    | some wr :: rest => { s with sq := (s.advance wr).2 }.resume wr rest (s.advance wr).1

end SendWorker

/-- What happens next: `SendHandle::send`, an action of the worker, or a step of the card. -/
inductive SendAction where
  | send (wr : WrChunk)
  | work (n : ℕ)
  | card (e : CardStep)
deriving DecidableEq, Repr

/-- The chunk that the action injects. -/
def SendAction.sent : SendAction → List WrChunk
  | .send wr => [wr]
  | _ => []

namespace SendWorker

variable {spec : RingSpec}

def step (s : SendWorker spec) : SendAction → SendWorker spec
  | .send wr => { s with injector := s.injector ++ [wr] }
  | .work n => s.work n
  | .card e => { s with sq := e.run s.sq }

def run (buffer : Fin spec.elementNum → Desc) (acts : List SendAction) : SendWorker spec :=
  acts.foldl step (.new buffer)

lemma run_snoc (buffer : Fin spec.elementNum → Desc) (acts : List SendAction) (a : SendAction) :
    run buffer (acts ++ [a]) = (run buffer acts).step a := by
  rw [run, run, List.foldl_append]
  rfl

end SendWorker

end OpenRdma
