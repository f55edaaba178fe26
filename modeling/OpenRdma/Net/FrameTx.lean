import OpenRdma.Ring.Descriptors
import OpenRdma.Ring.ProducerRing

/-!
# The transmit queue of the simple NIC

`send` copies a frame to the next slot of a buffer, and pushes a descriptor with the address of the
slot; it spins until the ring takes the descriptor.  The card reads the slot when it comes to the
descriptor.  The buffer has as many bytes as a ring of descriptors, and a slot is as large as four
of them.
-/

namespace OpenRdma

/-- `RING_BUF_LEN` -/
def ringBufLen : ℕ := 4096

/-- `DESC_SIZE` -/
def descSize : ℕ := 32

/-- The length that `DefaultDescRingBufAllocator::alloc` asks for. -/
def frameBufLen : ℕ := ringBufLen * descSize

/-- `FRAME_SLOT_SIZE` -/
def frameSlotSize : ℕ := 128

/-- The transmit ring. -/
def simpleNicTxSpec : RingSpec := ⟨12, RingSpec.twelve_fits⟩

/-- `SimpleNicTxQueueDesc::new`; of the header only the `valid` bit is set. -/
def simpleNicTxDesc (addr : UInt64) (len : UInt32) : Desc where
  c0 := 0
  c1 := 0
  c2 := addr
  c3 := len.toUInt64 ||| 0x8000000000000000

def Desc.txAddr (d : Desc) : UInt64 := d.c2

def Desc.txLen (d : Desc) : UInt32 := d.c3.toUInt32

/-- The bytes of a mapped buffer. -/
abbrev FrameBuf := ℕ → UInt8

/-- `MmapMut::get` -/
def FrameBuf.get (buf : FrameBuf) (offset len : ℕ) : List UInt8 :=
  (List.range len).map fun i => buf (offset + i)

/-- Where a call to `send` is: it has copied the first `i` bytes, or is about to push the descriptor
or in the middle of that. -/
inductive TxPhase (spec : RingSpec) where
  | idle
  | copying (data : List UInt8) (i : ℕ)
  | pushing (data : List UInt8) (desc : Desc)
      (push : Option (ProducerRing.ProducerM spec Desc (Except CsrError Bool)))

/-- The queue, with the frames whose descriptors it has pushed. -/
structure FrameTxQueue (spec : RingSpec) where
  inner : ProducerState spec Desc
  buf : FrameBuf
  bufBasePhysAddr : UInt64
  bufHead : ℕ
  phase : TxPhase spec
  panicked : Bool
  frames : List (List UInt8)

namespace FrameTxQueue

variable {spec : RingSpec}

def new (slots : Fin spec.elementNum → Desc) (buf : FrameBuf) (bufBasePhysAddr : UInt64) :
    FrameTxQueue spec where
  inner := .new slots
  buf := buf
  bufBasePhysAddr := bufBasePhysAddr
  bufHead := 0
  phase := .idle
  panicked := false
  frames := []

/-- The frame fits into a slot, the address does not overflow, and the copy stays inside the
buffer. -/
def Accepts (s : FrameTxQueue spec) (data : List UInt8) : Prop :=
  data.length ≤ frameSlotSize ∧ s.bufBasePhysAddr.toNat + s.bufHead < 2 ^ 64 ∧
    s.bufHead + data.length ≤ frameBufLen

instance (s : FrameTxQueue spec) (data : List UInt8) : Decidable (s.Accepts data) :=
  inferInstanceAs (Decidable (_ ∧ _ ∧ _))

/-- A call begins; where `write_next` or `copy_from` does not accept the frame, it panics. -/
def send (s : FrameTxQueue spec) (data : List UInt8) : FrameTxQueue spec :=
  match s.phase with
  | .idle =>
    if s.panicked then s
    else if s.Accepts data then { s with phase := .copying data 0 }
    else { s with panicked := true }
  | _ => s

/-- The call goes on with what is left of the push; a push that was refused is tried again. -/
def resume (s : FrameTxQueue spec) (data : List UInt8) (desc : Desc) :
    ProducerRing.ProducerM spec Desc (Except CsrError Bool) → FrameTxQueue spec
  | .act f k => { s with phase := .pushing data desc (some (.act f k)) }
  | .ret (.ok true) => { s with phase := .idle, frames := s.frames ++ [data] }
  | .ret (.ok false) => { s with phase := .pushing data desc none }
  | .ret (.error _) => { s with phase := .pushing data desc none, panicked := true }

/-- The next action of the call. -/
def work (s : FrameTxQueue spec) : FrameTxQueue spec :=
  if s.panicked then s
  else
    match s.phase with
    | .idle => s
    | .copying data i =>
      match data[i]? with
      | some b =>
        { s with buf := Function.update s.buf (s.bufHead + i) b, phase := .copying data (i + 1) }
      | none =>
        let addr := s.bufBasePhysAddr + UInt64.ofNat s.bufHead
        { s with
          bufHead := (s.bufHead + frameSlotSize) % frameBufLen
          phase := .pushing data (simpleNicTxDesc addr (UInt32.ofNat data.length)) none }
    | .pushing data desc push =>
      let (rest, inner) := Prog.advance (ProducerRing.tryPushAtomic id [desc]) push s.inner
      { s with inner }.resume data desc rest

end FrameTxQueue

/-- What happens at the queue. -/
inductive TxAction where
  | send (data : List UInt8)
  | work
  | card (e : CardStep)
deriving DecidableEq, Repr

namespace FrameTxQueue

variable {spec : RingSpec}

def step (s : FrameTxQueue spec) : TxAction → FrameTxQueue spec
  | .send data => s.send data
  | .work => s.work
  | .card e => { s with inner := e.run s.inner }

def run (s : FrameTxQueue spec) (acts : List TxAction) : FrameTxQueue spec := acts.foldl step s

lemma run_snoc (s : FrameTxQueue spec) (acts : List TxAction) (a : TxAction) :
    s.run (acts ++ [a]) = (s.run acts).step a := by
  rw [run, run, List.foldl_append]
  rfl

/-- The frames of which at least one byte may have been copied. -/
def started (s : FrameTxQueue spec) : ℕ :=
  match s.phase with
  | .idle => s.frames.length
  | _ => s.frames.length + 1

/-- Every descriptor that the card has not consumed points to the bytes of its frame. -/
def FramesIntact (s : FrameTxQueue spec) : Prop :=
  ∀ k frame, s.frames[k]? = some frame → s.inner.consumed.length ≤ k →
    let desc := s.inner.ring.buffer (slotOf spec.elementNum k)
    s.bufBasePhysAddr.toNat ≤ desc.txAddr.toNat ∧
      s.buf.get (desc.txAddr.toNat - s.bufBasePhysAddr.toNat) desc.txLen.toNat = frame

end FrameTxQueue

end OpenRdma
