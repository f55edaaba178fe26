import Mathlib.Tactic

/-!
# Descriptors that the card writes

A descriptor is 32 bytes, read as four little-endian words; the last two bytes are a common header
with the opcode and the `has_next` and `valid` bits.  `FromRingBytes` is what the consumer ring
needs to know about an element: how it is read from one or two descriptors, and when a descriptor is
there at all.

`MetaReportQueueDesc` is the element of the ring of reports.
-/

namespace OpenRdma

/-- A descriptor, as the four words that its bytes are cast to. -/
structure Desc where
  c0 : UInt64
  c1 : UInt64
  c2 : UInt64
  c3 : UInt64
deriving DecidableEq, Repr

namespace Desc

def zeroed : Desc := ⟨0, 0, 0, 0⟩

/-- Byte 30, the opcode of the common header. -/
def opCode (d : Desc) : UInt8 := (d.c3 >>> 48).toUInt8

/-- Byte 31, the flags of the common header. -/
def flags (d : Desc) : UInt8 := (d.c3 >>> 56).toUInt8

/-- Bit 7 of byte 31. -/
def isValid (d : Desc) : Bool := d.flags >>> 7 == 1

/-- Bit 6 of byte 31. -/
def hasNext (d : Desc) : Bool := (d.flags >>> 6) &&& 1 == 1

/-- `ecn_marked` of a packet info descriptor. -/
def ecnMarked (d : Desc) : Bool := (d.c3 >>> 7) &&& 1 == 1

end Desc

/-- Where reading an element gives up. -/
inductive DescPanic where
  | tooManyDescriptors
  | invalidOpcode (d : Option Desc)
  | opcodeUnsupported
  | invalidFormat
deriving DecidableEq, Repr

/-- An element that is read from descriptors of type `β`.  A zeroed descriptor is not valid. -/
class FromRingBytes (α : Type) (β : outParam Type) where
  zeroed : β
  fromBytes : List β → Except DescPanic (Option α)
  isValid : β → Bool
  hasNext : β → Bool
  zeroed_invalid : isValid zeroed = false

/-! ## Meta reports -/

inductive RdmaOpCode where
  | sendFirst | sendMiddle | sendLast | sendLastWithImmediate | sendOnly | sendOnlyWithImmediate
  | rdmaWriteFirst | rdmaWriteMiddle | rdmaWriteLast | rdmaWriteLastWithImmediate | rdmaWriteOnly
  | rdmaWriteOnlyWithImmediate | rdmaReadRequest | rdmaReadResponseFirst | rdmaReadResponseMiddle
  | rdmaReadResponseLast | rdmaReadResponseOnly | acknowledge | atomicAcknowledge | compareSwap
  | fetchAdd | resync | sendLastWithInvalidate | sendOnlyWithInvalidate
deriving DecidableEq, Repr

namespace RdmaOpCode

def fromU8 : UInt8 → Option RdmaOpCode
  | 0x00 => some sendFirst
  | 0x01 => some sendMiddle
  | 0x02 => some sendLast
  | 0x03 => some sendLastWithImmediate
  | 0x04 => some sendOnly
  | 0x05 => some sendOnlyWithImmediate
  | 0x06 => some rdmaWriteFirst
  | 0x07 => some rdmaWriteMiddle
  | 0x08 => some rdmaWriteLast
  | 0x09 => some rdmaWriteLastWithImmediate
  | 0x0a => some rdmaWriteOnly
  | 0x0b => some rdmaWriteOnlyWithImmediate
  | 0x0c => some rdmaReadRequest
  | 0x0d => some rdmaReadResponseFirst
  | 0x0e => some rdmaReadResponseMiddle
  | 0x0f => some rdmaReadResponseLast
  | 0x10 => some rdmaReadResponseOnly
  | 0x11 => some acknowledge
  | 0x12 => some atomicAcknowledge
  | 0x13 => some compareSwap
  | 0x14 => some fetchAdd
  | 0x15 => some resync
  | 0x16 => some sendLastWithInvalidate
  | 0x17 => some sendOnlyWithInvalidate
  | _ => none

def isPacket : RdmaOpCode → Bool
  | sendFirst | sendMiddle | sendLast | sendLastWithImmediate | sendOnly | sendOnlyWithImmediate
  | rdmaWriteFirst | rdmaWriteMiddle | rdmaWriteLast | rdmaWriteLastWithImmediate | rdmaWriteOnly
  | rdmaWriteOnlyWithImmediate | rdmaReadRequest | rdmaReadResponseFirst | rdmaReadResponseMiddle
  | rdmaReadResponseLast | rdmaReadResponseOnly => true
  | _ => false

def isAck : RdmaOpCode → Bool
  | acknowledge | atomicAcknowledge => true
  | _ => false

end RdmaOpCode

/-- The two kinds of descriptor that a meta report starts or goes on with. -/
inductive DescKind where
  | packet
  | ack
deriving DecidableEq, Repr

/-- The dispatch on the opcode; `shown` is the descriptor that the message of a bad one shows. -/
def Desc.kind (d : Desc) (shown : Option Desc) : Except DescPanic DescKind :=
  match RdmaOpCode.fromU8 d.opCode with
  | none => .error (.invalidOpcode shown)
  | some op =>
    if op.isPacket then .ok .packet
    else if op.isAck then .ok .ack
    else .error .opcodeUnsupported

/-- `MetaReportQueueDescFirst::deserialize` -/
def Desc.first (d : Desc) : Except DescPanic DescKind := d.kind (some d)

/-- `MetaReportQueueDescNext::deserialize` -/
def Desc.next (d : Desc) : Except DescPanic DescKind := d.kind none

/-- A report of the hardware, by its kind. -/
inductive MetaReportQueueDesc where
  | writePacketInfo (d : Desc)
  | readPacketInfo (f n : Desc)
  | cnpPacketInfo (d : Desc)
  | ack (d : Desc)
  | nak (f n : Desc)
deriving DecidableEq, Repr

namespace MetaReportQueueDesc

def fromBytes : List Desc → Except DescPanic (Option MetaReportQueueDesc)
  | [] => .ok none
  | [d] => do
    match ← d.first with
    | .packet => return some (if d.ecnMarked then .cnpPacketInfo d else .writePacketInfo d)
    | .ack => return some (.ack d)
  | [f, n] => do
    match ← f.first, ← n.next with
    | .packet, .packet => return some (.readPacketInfo f n)
    | .ack, .ack => return some (.nak f n)
    | _, _ => .error .invalidFormat
  | _ => .error .tooManyDescriptors

instance : FromRingBytes MetaReportQueueDesc Desc where
  zeroed := .zeroed
  fromBytes := fromBytes
  isValid := Desc.isValid
  hasNext := Desc.hasNext
  zeroed_invalid := by decide

end MetaReportQueueDesc

end OpenRdma
