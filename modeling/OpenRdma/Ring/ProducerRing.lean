import OpenRdma.Core.Program
import OpenRdma.Ring.RingPtr

/-!
# The producer ring

The driver writes descriptors into a DMA buffer and publishes the new head in a CSR; the card reads
the slots from its tail up to the published head.  The driver knows the card's tail only from the
last time it read that CSR.
-/

namespace OpenRdma

/-- The driver's side of the ring. -/
structure ProducerRing (spec : RingSpec) (β : Type) where
  buffer : Fin spec.elementNum → β
  cachedHead : RingPtr spec
  cachedHwTail : RingPtr spec

/-- The ring with its CSRs and what the card has read so far. -/
structure ProducerState (spec : RingSpec) (β : Type) where
  ring : ProducerRing spec β
  csr : RingCsr
  consumed : List β

variable {spec : RingSpec} {α β : Type}

namespace ProducerRing

/-- The free slots, by the cached tail. -/
def available (ring : ProducerRing spec β) : UInt32 :=
  let hwTail := ring.cachedHwTail
  if ring.cachedHead.hasSameIndex hwTail then
    if ring.cachedHead.hasSameRaw hwTail then RingPtr.bufSize spec else 0
  else
    let used :=
      (ring.cachedHead.index - hwTail.raw + RingPtr.bufSize spec) &&& RingPtr.bufSizeMask spec
    RingPtr.bufSize spec - used

end ProducerRing

namespace ProducerState

/-- A new ring over a buffer; the card has reset its pointers. -/
def new (buffer : Fin spec.elementNum → β) : ProducerState spec β where
  ring := { buffer, cachedHead := .zero, cachedHwTail := .zero }
  csr := { head := 0, tail := 0, ok := true }
  consumed := []

def available (s : ProducerState spec β) : UInt32 := s.ring.available

/-- `buffer.write` at the slot of a pointer; the index is always below the capacity. -/
def writeSlot (p : RingPtr spec) (b : β) (s : ProducerState spec β) : ProducerState spec β :=
  { s with ring := { s.ring with buffer := Function.update s.ring.buffer p.slot b } }

/-- Read the tail CSR into the cache. -/
def readTail (s : ProducerState spec β) : Except CsrError Unit × ProducerState spec β :=
  if s.csr.ok then (.ok (), { s with ring := { s.ring with cachedHwTail := .new s.csr.tail } })
  else (.error .failed, s)

/-- Write the head CSR, and keep the new head. -/
def writeHead (p : RingPtr spec) (s : ProducerState spec β) :
    Except CsrError Unit × ProducerState spec β :=
  if s.csr.ok then
    (.ok (),
      { s with ring := { s.ring with cachedHead := p }, csr := { s.csr with head := p.raw } })
  else (.error .failed, s)

end ProducerState

/-! ## The driver's calls -/

namespace ProducerRing

abbrev ProducerM (spec : RingSpec) (β : Type) := Prog (ProducerState spec β)

def syncTail : ProducerM spec β (Except CsrError Unit) := .atomic ProducerState.readTail

/-- Is there room for `len` descriptors?  The tail is read only if the cached one leaves too
little. -/
def reserve (len : ℕ) : ProducerM spec β (Except CsrError Bool) :=
  (Prog.get ProducerState.available).bind fun avai =>
    if avai.toNat < len then
      syncTail.tryBind fun _ =>
        (Prog.get ProducerState.available).bind fun avai => .ret (.ok (decide (len ≤ avai.toNat)))
    else .ret (.ok true)

/-- Write descriptors to the slots from `start` on, the first of them at offset `i`. -/
def writeFrom (start : RingPtr spec) : List β → UInt32 → ProducerM spec β Unit
  | [], _ => .ret ()
  | b :: bs, i =>
    (Prog.modify (ProducerState.writeSlot (start.wrappingAdd i) b)).bind fun _ =>
      writeFrom start bs (i + 1)

/-- Write the descriptors, then publish them all with one CSR write. -/
def commit (bytes : List β) : ProducerM spec β (Except CsrError Unit) :=
  (Prog.get fun s => s.ring.cachedHead).bind fun start =>
    (writeFrom start bytes 0).bind fun _ =>
      .atomic (ProducerState.writeHead (start.wrappingAdd (UInt32.ofNat bytes.length)))

variable (toBytes : α → β)

def tryPushAtomic (elements : List α) : ProducerM spec β (Except CsrError Bool) :=
  (reserve elements.length).tryBind fun room =>
    if room then (commit (elements.map toBytes)).tryBind fun _ => .ret (.ok true)
    else .ret (.ok false)

/-- The descriptors that the writer makes for the first `count` slots. -/
def batchOf (count : UInt32) (writer : UInt32 → α) : List β :=
  (List.range count.toNat).map fun i => toBytes (writer (UInt32.ofNat i))

def batchWrite (count : UInt32) (writer : UInt32 → α) : ProducerM spec β (Except CsrError UInt32) :=
  if count = 0 then .ret (.ok 0)
  else if RingPtr.bufSize spec < count then .ret (.ok 0)
  else
    (reserve count.toNat).tryBind fun room =>
      if room then (commit (batchOf toBytes count writer)).tryBind fun _ => .ret (.ok count)
      else .ret (.ok 0)

end ProducerRing

/-- The calls that push. -/
inductive PushCall (α : Type) where
  | tryPushAtomic (elements : List α)
  | batchWrite (count : UInt32) (writer : UInt32 → α)

/-- What they return. -/
inductive PushReturn where
  | pushed (r : Except CsrError Bool)
  | written (r : Except CsrError UInt32)

namespace PushCall

def body (toBytes : α → β) : PushCall α → ProducerRing.ProducerM spec β PushReturn
  | .tryPushAtomic elements =>
    (ProducerRing.tryPushAtomic toBytes elements).bind fun r => .ret (.pushed r)
  | .batchWrite count writer =>
    (ProducerRing.batchWrite toBytes count writer).bind fun r => .ret (.written r)

/-- The descriptors of the whole call. -/
def bytes (toBytes : α → β) : PushCall α → List β
  | .tryPushAtomic elements => elements.map toBytes
  | .batchWrite count writer => ProducerRing.batchOf toBytes count writer

end PushCall

/-- How many descriptors the return value says were pushed. -/
def PushReturn.count (len : ℕ) : PushReturn → ℕ
  | .pushed (.ok true) => len
  | .pushed _ => 0
  | .written (.ok n) => n.toNat
  | .written (.error _) => 0

/-- The descriptors that the calls so far report as pushed. -/
def pushedBy (toBytes : α → β) (done : List (PushCall α × PushReturn)) : List β :=
  done.flatMap fun d => (d.1.bytes toBytes).take (d.2.count (d.1.bytes toBytes).length)

/-! ## The card -/

/-- What the card does: read a descriptor, or have its CSR accesses succeed or fail from now on. -/
inductive CardStep where
  | consume
  | access (ok : Bool)
deriving DecidableEq, Repr

namespace CardStep

/-- The card reads the slot at its tail while that is not the published head, and moves on. -/
def consume1 (s : ProducerState spec β) : ProducerState spec β :=
  let tail : RingPtr spec := .new s.csr.tail
  if tail.hasSameRaw (.new s.csr.head) then s
  else
    { s with
      consumed := s.consumed ++ [s.ring.buffer tail.slot]
      csr := { s.csr with tail := (tail.wrappingAdd 1).raw } }

def run (e : CardStep) (s : ProducerState spec β) : ProducerState spec β :=
  match e with
  | .consume => consume1 s
  | .access ok => { s with csr := { s.csr with ok } }

end CardStep

/-- The driver's thread and the card. -/
abbrev ProducerSession (spec : RingSpec) (α β : Type) :=
  Session (ProducerState spec β) (PushCall α) PushReturn

def ProducerSession.run (toBytes : α → β) (buffer : Fin spec.elementNum → β)
    (acts : List (SessionAction (PushCall α) CardStep)) : ProducerSession spec α β :=
  Session.run (PushCall.body toBytes) CardStep.run (Session.init (.new buffer)) acts

end OpenRdma
