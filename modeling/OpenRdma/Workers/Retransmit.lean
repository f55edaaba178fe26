import OpenRdma.RdmaUtils.Fragmenter
import OpenRdma.Workers.Tasks

/-!
# The packet retransmit worker

Every accepted request is kept in a queue until the requests after it are acknowledged.  On demand
the packets of the queued requests are sent again, cut by the packet fragmenter: those of a range of
PSNs, or all from the acknowledged base on.

The queue is searched with the standard library's `partition_point`, whose result is specified only
for a queue that the test cuts in two.  It is a parameter here (`PartitionPoint`), so that nothing
is assumed of it in the other case.
-/

namespace OpenRdma

/-! ## Searching the queue -/

/-- `VecDeque::partition_point`: an index of the queue, and the end of its first part if the test
holds exactly on a first part. -/
structure PartitionPoint where
  point : (SendQueueElem → Bool) → List SendQueueElem → ℕ
  le_length : ∀ p l, point p l ≤ l.length
  eq_of_partitioned : ∀ p l, (∀ e ∈ l.dropWhile p, p e = false) → point p l = (l.takeWhile p).length

/-- Search from the front. -/
def PartitionPoint.linear : PartitionPoint where
  point p l := (l.takeWhile p).length
  le_length p _ := (List.takeWhile_prefix p).length_le
  eq_of_partitioned _ _ _ := rfl

/-- The requests that may be sent again. -/
structure IbvSendQueue where
  inner : List SendQueueElem
  basePsn : Psn
deriving DecidableEq, Repr, Inhabited

namespace IbvSendQueue

def push (sq : IbvSendQueue) (elem : SendQueueElem) : IbvSendQueue :=
  { sq with inner := sq.inner ++ [elem] }

/-- Drop what is acknowledged, but for the last request that starts before `psn`: it may reach past
it. -/
def popUntil (pp : PartitionPoint) (sq : IbvSendQueue) (psn : Psn) : IbvSendQueue :=
  let a := pp.point (fun x => x.psn < psn) sq.inner
  -- `saturating_sub`
  ⟨sq.inner.drop (a - 1), psn⟩

/-- The requests that start in `[psnLow, psnHigh)`. -/
def range (pp : PartitionPoint) (sq : IbvSendQueue) (psnLow psnHigh : Psn) : List SendQueueElem :=
  let a := pp.point (fun x => x.psn < psnLow) sq.inner
  let b := pp.point (fun x => x.psn < psnHigh) sq.inner
  if b ≤ a then [] else (sq.inner.drop a).take (b - a)

end IbvSendQueue

/-! ## Packets -/

/-- What a lazily evaluated stream of packets yields, and the panic that ends it. -/
structure Packets where
  items : List WrChunk
  crashed : Option String

/-- The packets of some requests, one request after the other. -/
def packetsOf : List SendQueueElem → Packets
  | [] => ⟨[], none⟩
  | sqe :: sqes =>
    match wrPacketFragmenter sqe.wr sqe.qpParam sqe.psn with
    | .error msg => ⟨[], some msg⟩
    | .ok it =>
      match it.collect.crashed with
      | some msg => ⟨it.collect.items, some msg⟩
      | none => ⟨it.collect.items ++ (packetsOf sqes).items, (packetsOf sqes).crashed⟩

namespace Packets

def skipWhile (ps : Packets) (p : WrChunk → Bool) : Packets :=
  { ps with items := ps.items.dropWhile p }

/-- A stream that is not taken to its end does not panic there. -/
def takeWhile (ps : Packets) (p : WrChunk → Bool) : Packets where
  items := ps.items.takeWhile p
  crashed := if ps.items.all p then ps.crashed else none

/-- The packets of a stream, marked as retransmissions. -/
def retries (ps : Packets) : List Output := (ps.items.map WrChunk.setIsRetry).map .chunk

end Packets

/-! ## The worker -/

/-- The requests of all queue pairs. -/
structure PacketRetransmitWorker where
  table : QpTable IbvSendQueue
  /-- The panic that ended the worker's thread. -/
  panicked : Option String

instance : Inhabited PacketRetransmitWorker := ⟨⟨default, none⟩⟩

namespace PacketRetransmitWorker

/-- The packets a task sends again. -/
def resends (pp : PartitionPoint) (sq : IbvSendQueue) : PacketRetransmitTask → Packets
  | .newWr _ _ | .ack _ _ => ⟨[], none⟩
  | .retransmitRange _ psnLow psnHigh =>
    ((packetsOf (sq.range pp psnLow psnHigh)).skipWhile fun x => x.psn < psnLow).takeWhile
      fun x => x.psn < psnHigh
  | .retransmitAll _ => (packetsOf sq.inner).skipWhile fun x => x.psn < sq.basePsn

/-- What a task does to the queue. -/
def updates (pp : PartitionPoint) (sq : IbvSendQueue) : PacketRetransmitTask → IbvSendQueue
  | .newWr _ wr => sq.push wr
  | .ack _ psn => sq.popUntil pp psn
  | .retransmitRange _ _ _ | .retransmitAll _ => sq

def process (pp : PartitionPoint) (w : PacketRetransmitWorker) (task : PacketRetransmitTask) :
    PacketRetransmitWorker × List Output :=
  if w.panicked.isSome then (w, [])
  else
    match w.table.getQp task.qpn with
    | none => (w, [])
    | some sq =>
      let packets := resends pp sq task
      (⟨w.table.setQp task.qpn (updates pp sq task), packets.crashed⟩, packets.retries)

end PacketRetransmitWorker

end OpenRdma
