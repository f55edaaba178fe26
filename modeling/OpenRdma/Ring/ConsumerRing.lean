import OpenRdma.Core.Program
import OpenRdma.Ring.Descriptors
import OpenRdma.Ring.RingPtr

/-!
# The consumer ring

The card writes descriptors into a DMA buffer.  The driver finds them by their valid bit alone,
zeroes the slots that it has taken, and publishes its tail in a CSR, from which the card knows the
free slots.
-/

namespace OpenRdma

/-- The driver's side of the ring. -/
structure ConsumerRing (spec : RingSpec) (β : Type) where
  buffer : Fin spec.elementNum → β
  cachedTail : RingPtr spec

/-- What `try_pop` returns, or where it panics. -/
inductive PopReturn (α : Type) where
  | ok (r : Option α)
  | err (e : CsrError)
  | panic (p : DescPanic)
deriving DecidableEq, Repr

variable {spec : RingSpec} {α β : Type} [FromRingBytes α β]

/-- An element that the card writes: its descriptors are valid, the first one says whether a second
one follows, and they can be read. -/
structure CardElement (spec : RingSpec) (α : Type) {β : Type} [FromRingBytes α β] where
  first : β
  second : Option β
  value : α
  first_valid : FromRingBytes.isValid α first = true
  first_hasNext : FromRingBytes.hasNext α first = second.isSome
  second_valid : ∀ b ∈ second, FromRingBytes.isValid α b = true
  fromBytes_eq : FromRingBytes.fromBytes (first :: second.toList) = .ok (some value)
  fits : (first :: second.toList).length ≤ spec.elementNum

def CardElement.bytes (e : CardElement spec α) : List β := e.first :: e.second.toList

/-- The ring with its CSRs; the elements that the card has started, what it has yet to write of the
last one, and all descriptors that it has written. -/
structure ConsumerState (spec : RingSpec) (α : Type) {β : Type} [FromRingBytes α β] where
  ring : ConsumerRing spec β
  csr : RingCsr
  elements : List (CardElement spec α)
  pending : Option β
  written : List β

namespace ConsumerState

/-- A new ring: the buffer is zeroed, and the card has reset its pointers. -/
def new : ConsumerState spec α where
  ring := { buffer := fun _ => FromRingBytes.zeroed α, cachedTail := .zero }
  csr := { head := 0, tail := 0, ok := true }
  elements := []
  pending := none
  written := []

/-- `buffer.read` at the slot `offset` after the tail. -/
def read (offset : UInt32) (s : ConsumerState spec α) : β :=
  s.ring.buffer (s.ring.cachedTail.wrappingAdd offset).slot

/-- Zero the slot at the tail and move on. -/
def zeroAndAdvance (s : ConsumerState spec α) : ConsumerState spec α :=
  { s with ring :=
    { buffer := Function.update s.ring.buffer s.ring.cachedTail.slot (FromRingBytes.zeroed α)
      cachedTail := s.ring.cachedTail.wrappingAdd 1 } }

/-- `write_tail_csr` -/
def writeTail (s : ConsumerState spec α) : Except CsrError Unit × ConsumerState spec α :=
  if s.csr.ok then (.ok (), { s with csr := { s.csr with tail := s.ring.cachedTail.raw } })
  else (.error .failed, s)

end ConsumerState

/-! ## The driver's call -/

namespace ConsumerRing

abbrev ConsumerM (spec : RingSpec) (α : Type) {β : Type} [FromRingBytes α β] :=
  Prog (ConsumerState spec α)

def readAndAdvance : ConsumerM spec α β :=
  (Prog.get fun s => s.read 0).bind fun ret =>
    (Prog.modify ConsumerState.zeroAndAdvance).bind fun _ => .ret ret

/-- Publish the tail, then read the element from the descriptors. -/
def finish (bytes : List β) : ConsumerM spec α (PopReturn α) :=
  (Prog.atomic ConsumerState.writeTail).bind fun
    | .error e => .ret (.err e)
    | .ok _ =>
      match FromRingBytes.fromBytes bytes with
      | .error p => .ret (.panic p)
      | .ok r => .ret (.ok r)

def tryPop : ConsumerM spec α (PopReturn α) :=
  (Prog.get fun s => s.read 0).bind fun first =>
    if FromRingBytes.isValid α first then
      if FromRingBytes.hasNext α first then
        (Prog.get fun s => s.read 1).bind fun second =>
          if FromRingBytes.isValid α second then
            readAndAdvance.bind fun a => readAndAdvance.bind fun b => finish [a, b]
          else .ret (.ok none)
      else readAndAdvance.bind fun a => finish [a]
    else .ret (.ok none)

end ConsumerRing

/-! ## The card -/

/-- What the card does next. -/
inductive CardWrite (spec : RingSpec) (α : Type) {β : Type} [FromRingBytes α β] where
  | start (e : CardElement spec α)
  | second
  | access (ok : Bool)

namespace CardWrite

/-- Is the slot at the card's head free, by the published tail? -/
def hasRoom (s : ConsumerState spec α) : Bool :=
  (RingPtr.wrappingSub (.new s.csr.head : RingPtr spec) (.new s.csr.tail)).toNat < spec.elementNum

/-- Write a descriptor at the card's head. -/
def writeDesc (b : β) (s : ConsumerState spec α) : ConsumerState spec α :=
  let head : RingPtr spec := .new s.csr.head
  { s with
    ring := { s.ring with buffer := Function.update s.ring.buffer head.slot b }
    csr := { s.csr with head := (head.wrappingAdd 1).raw }
    written := s.written ++ [b] }

def run (e : CardWrite spec α) (s : ConsumerState spec α) : ConsumerState spec α :=
  match e with
  | .start e =>
    if hasRoom s && s.pending.isNone then
      { writeDesc e.first s with elements := s.elements ++ [e], pending := e.second }
    else s
  | .second =>
    match s.pending with
    | some b => if hasRoom s then { writeDesc b s with pending := none } else s
    | none => s
  | .access ok => { s with csr := { s.csr with ok } }

end CardWrite

/-- The driver's thread and the card; the only call is `try_pop`. -/
abbrev ConsumerSession (spec : RingSpec) (α : Type) {β : Type} [FromRingBytes α β] :=
  Session (ConsumerState spec α) Unit (PopReturn α)

def ConsumerSession.run (acts : List (SessionAction Unit (CardWrite spec α))) :
    ConsumerSession spec α :=
  Session.run (fun _ => ConsumerRing.tryPop) CardWrite.run (Session.init .new) acts

end OpenRdma
