import OpenRdma.Core.Fifo
import OpenRdma.Core.Rules
import OpenRdma.Tx.Types

/-!
# The packetizer of the transmit path

A message is cut into packets one after the other.  For each packet the engine emits a descriptor
and then the payload, at most 128 bytes at a time, and keeps count of what is left of the packet and
of the message; the next packet starts where this one ended.

The bytes themselves come from a byte aligner, which is not modelled: `emitPayload` may fire
whenever the packet has bytes left, as if the aligner had them.  An assertion that fails stops the
engine, so a rule fires only if its assertions hold.
-/

namespace OpenRdma

/-- The format of the headers. -/
inductive TxWireProfile where
  | legacyPrivate
  | mrcIpv4EcmpNoIcrc
  | reserved2
  | reserved3
deriving DecidableEq, Repr, Inhabited

abbrev TxPsnCount := BitVec 18

/-- A message. -/
structure MessageContext where
  requestId : BitVec 16
  qpn : TxQpn
  destQpn : TxQpn
  slotId : BitVec 18
  debugSeq : BitVec 4
  pmtu : TxPmtuCode
  startPsn : TxPsn
  psnCount : TxPsnCount
  remoteAddr : BitVec 64
  remoteKey : BitVec 32
  len : TxLength
  wireProfile : TxWireProfile
  evProfileId : BitVec 2
  mrcMsn : BitVec 16
  mrcMsnValid : Bool
deriving DecidableEq, Repr, Inhabited

inductive TxTrafficClass where
  | first
  | retry
  | ordered
  | control
deriving DecidableEq, Repr, Inhabited

inductive PktOpcode where
  | writeFirst
  | writeMiddle
  | writeLast
  | writeOnly
  | mrcWriteFirst
  | mrcWriteMiddle
  | mrcWriteLast
  | mrcWriteOnly
deriving DecidableEq, Repr, Inhabited

/-- The header of a packet. -/
structure PacketDescriptor where
  requestId : BitVec 16
  qpn : TxQpn
  destQpn : TxQpn
  slotId : BitVec 18
  debugSeq : BitVec 4
  pmtu : TxPmtuCode
  psn : TxPsn
  packetIndex : TxPsnCount
  packetCount : TxPsnCount
  opcode : PktOpcode
  remoteAddr : BitVec 64
  remoteKey : BitVec 32
  messageOffset : TxLength
  payloadLength : BitVec 13
  messageLength : TxLength
  isFirst : Bool
  isLast : Bool
  trafficClass : TxTrafficClass
  wireProfile : TxWireProfile
  evProfileId : BitVec 2
  mrcMsn : BitVec 16
  mrcMsnValid : Bool
deriving DecidableEq, Repr, Inhabited

/-- A beat of payload, without its data. -/
structure PacketPayloadBeat where
  requestId : BitVec 16
  psn : TxPsn
  keep : BitVec 128
  sop : Bool
  eop : Bool
deriving DecidableEq, Repr

/-! ## Limits -/

def isSupportedWireProfile (profile : TxWireProfile) : Bool :=
  profile == .legacyPrivate || profile == .mrcIpv4EcmpNoIcrc

def packetPayloadLimitForProfile (profile : TxWireProfile) (pmtu : TxPmtuCode) (isFirst : Bool) :
    BitVec 13 :=
  if profile = .mrcIpv4EcmpNoIcrc then txPmtuBytes pmtu
  else if isFirst then firstPayloadLimit pmtu else contPayloadLimit pmtu

def packetCountForProfile (len : TxLength) (pmtu : TxPmtuCode)
    (profile : TxWireProfile) : TxPsnCount :=
  let firstLimit := packetPayloadLimitForProfile profile pmtu true
  let contLimit := packetPayloadLimitForProfile profile pmtu false
  if len = 0 ∨ firstLimit = 0 ∨ contLimit = 0 then 0
  else if len ≤ firstLimit.setWidth 25 then 1
  else
    let remaining : BitVec 26 := (len - firstLimit.setWidth 25).setWidth 26
    let divisor : BitVec 26 := contLimit.setWidth 26
    let continuation := (remaining + divisor - 1) / divisor
    1 + continuation.setWidth 18

def packetCountForContext (ctx : MessageContext) : TxPsnCount :=
  packetCountForProfile ctx.len ctx.pmtu ctx.wireProfile

def packetOpcode (isFirst isLast : Bool) : PktOpcode :=
  if isFirst && isLast then .writeOnly
  else if isFirst then .writeFirst
  else if isLast then .writeLast
  else .writeMiddle

def packetOpcodeForProfile (profile : TxWireProfile) (isFirst isLast : Bool) : PktOpcode :=
  if profile = .mrcIpv4EcmpNoIcrc then
    if isFirst && isLast then .mrcWriteOnly
    else if isFirst then .mrcWriteFirst
    else if isLast then .mrcWriteLast
    else .mrcWriteMiddle
  else packetOpcode isFirst isLast

def byteMask128 (n : BitVec 8) : BitVec 128 := ((1 : BitVec 129) <<< n.toNat - 1).setWidth 128

/-! ## The engine -/

inductive PacketizerState where
  | idle
  | descriptor
  | payload
  | flush
deriving DecidableEq, Repr

/-- The packetizer. -/
structure PacketAssemblyEngine where
  state : PacketizerState
  ctxLatch : MessageContext
  packetIndex : TxPsnCount
  packetCount : TxPsnCount
  messageRemaining : TxLength
  messageOffset : TxLength
  packetRemaining : BitVec 13
  packetPayloadLength : BitVec 13
  contextQ : Fifo MessageContext 8
  descriptorQ : Fifo PacketDescriptor 2
  payloadQ : Fifo PacketPayloadBeat 2

namespace PacketAssemblyEngine

def initial : PacketAssemblyEngine where
  state := .idle
  ctxLatch := default
  packetIndex := 0
  packetCount := 0
  messageRemaining := 0
  messageOffset := 0
  packetRemaining := 0
  packetPayloadLength := 0
  contextQ := .empty
  descriptorQ := .empty
  payloadQ := .empty

/-- The assertions on a message. -/
def accepts (ctx : MessageContext) : Bool :=
  let count := packetCountForContext ctx
  let remoteEnd : BitVec 65 := ctx.remoteAddr.setWidth 65 + ctx.len.setWidth 65 - 1
  ctx.len != 0 && !remoteEnd.msb && ctx.pmtu ≤ 4 && isSupportedWireProfile ctx.wireProfile
    && (ctx.wireProfile != .mrcIpv4EcmpNoIcrc || ctx.mrcMsnValid)
    && (if ctx.wireProfile = .mrcIpv4EcmpNoIcrc then ctx.psnCount == count
      else decide (count ≤ ctx.psnCount))

def startMessage (e : PacketAssemblyEngine) : Option PacketAssemblyEngine := do
  guard (e.state = .idle)
  let (ctx, contextQ) ← e.contextQ.deq
  guard (accepts ctx)
  let firstLimit := packetPayloadLimitForProfile ctx.wireProfile ctx.pmtu true
  let firstLength := if ctx.len < firstLimit.setWidth 25 then ctx.len else firstLimit.setWidth 25
  return { e with
    contextQ
    ctxLatch := ctx
    packetIndex := 0
    packetCount := packetCountForContext ctx
    messageRemaining := ctx.len
    messageOffset := 0
    packetRemaining := firstLength.setWidth 13
    packetPayloadLength := firstLength.setWidth 13
    state := .descriptor }

/-- The descriptor of the packet that is next. -/
def descriptor (e : PacketAssemblyEngine) : PacketDescriptor :=
  let isFirst := decide (e.packetIndex = 0)
  let isLast := decide (e.packetIndex + 1 = e.packetCount)
  { requestId := e.ctxLatch.requestId
    qpn := e.ctxLatch.qpn
    destQpn := e.ctxLatch.destQpn
    slotId := e.ctxLatch.slotId
    debugSeq := e.ctxLatch.debugSeq
    pmtu := e.ctxLatch.pmtu
    psn := e.ctxLatch.startPsn + e.packetIndex.setWidth 24
    packetIndex := e.packetIndex
    packetCount := e.packetCount
    opcode := packetOpcodeForProfile e.ctxLatch.wireProfile isFirst isLast
    remoteAddr := (e.ctxLatch.remoteAddr.setWidth 65 + e.messageOffset.setWidth 65).setWidth 64
    remoteKey := e.ctxLatch.remoteKey
    messageOffset := e.messageOffset
    payloadLength := e.packetPayloadLength
    messageLength := e.ctxLatch.len
    isFirst := isFirst
    isLast := isLast
    trafficClass := .first
    wireProfile := e.ctxLatch.wireProfile
    evProfileId := e.ctxLatch.evProfileId
    mrcMsn := e.ctxLatch.mrcMsn
    mrcMsnValid := e.ctxLatch.mrcMsnValid }

def emitDescriptor (e : PacketAssemblyEngine) : Option PacketAssemblyEngine := do
  guard (e.state = .descriptor)
  guard (!(e.ctxLatch.remoteAddr.setWidth 65 + e.messageOffset.setWidth 65).msb)
  return { e with descriptorQ := ← e.descriptorQ.enq e.descriptor, state := .payload }

/-- How many bytes of the packet are taken next. -/
def requested (e : PacketAssemblyEngine) : BitVec 8 :=
  (if e.packetRemaining < 128 then e.packetRemaining else 128).setWidth 8

def emitPayload (e : PacketAssemblyEngine) : Option PacketAssemblyEngine := do
  guard (e.state = .payload)
  guard (e.requested ≠ 0)
  let packetEnd := decide (e.packetRemaining = e.requested.setWidth 13)
  let messageLeft := e.messageRemaining - e.requested.setWidth 25
  let payloadQ ← e.payloadQ.enq
    { requestId := e.ctxLatch.requestId
      psn := e.ctxLatch.startPsn + e.packetIndex.setWidth 24
      keep := byteMask128 e.requested
      sop := decide (e.packetRemaining = e.packetPayloadLength)
      eop := packetEnd }
  let e' := { e with
    payloadQ
    messageRemaining := messageLeft
    messageOffset := e.messageOffset + e.requested.setWidth 25 }
  if packetEnd then
    if messageLeft = 0 then return { e' with state := .flush }
    else
      let limit := packetPayloadLimitForProfile e.ctxLatch.wireProfile e.ctxLatch.pmtu false
      let nextLength := if messageLeft < limit.setWidth 25 then messageLeft else limit.setWidth 25
      return { e' with
        packetIndex := e.packetIndex + 1
        packetRemaining := nextLength.setWidth 13
        packetPayloadLength := nextLength.setWidth 13
        state := .descriptor }
  else return { e' with packetRemaining := e.packetRemaining - e.requested.setWidth 13 }

def finishMessage (e : PacketAssemblyEngine) : Option PacketAssemblyEngine := do
  guard (e.state = .flush)
  return { e with state := .idle }

def contextIn (e : PacketAssemblyEngine) (ctx : MessageContext) : Option PacketAssemblyEngine :=
  return { e with contextQ := ← e.contextQ.enq ctx }

def descriptorOut (e : PacketAssemblyEngine) : Option (PacketDescriptor × PacketAssemblyEngine) :=
  do
  let (d, descriptorQ) ← e.descriptorQ.deq
  return (d, { e with descriptorQ })

def payloadOut (e : PacketAssemblyEngine) : Option (PacketPayloadBeat × PacketAssemblyEngine) := do
  let (b, payloadQ) ← e.payloadQ.deq
  return (b, { e with payloadQ })

end PacketAssemblyEngine

/-- The rules and methods of the engine. -/
inductive TxLabel where
  | contextIn (ctx : MessageContext)
  | startMessage
  | emitDescriptor
  | emitPayload
  | finishMessage
  | descriptorOut
  | payloadOut
deriving DecidableEq, Repr

namespace PacketAssemblyEngine

def step (e : PacketAssemblyEngine) : TxLabel → Option PacketAssemblyEngine
  | .contextIn ctx => e.contextIn ctx
  | .startMessage => e.startMessage
  | .emitDescriptor => e.emitDescriptor
  | .emitPayload => e.emitPayload
  | .finishMessage => e.finishMessage
  | .descriptorOut => e.descriptorOut.map (·.2)
  | .payloadOut => e.payloadOut.map (·.2)

end PacketAssemblyEngine

end OpenRdma
