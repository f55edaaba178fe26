import OpenRdma.Core.Fifo
import OpenRdma.Core.Rules
import OpenRdma.Rx.Types

/-!
# The receive bitmap manager

Parsed packets of four lanes are merged into one queue and judged one at a time.  For each of four
queue pairs the manager keeps the last contiguous sequence number that was received (`ackPsn`), a
bitmap of the sixteen after it, and the message in progress.  A packet that is in the window, new
and part of that message is admitted: it gets the next global sequence number and goes on to be
written to memory.  A packet of a message that has not been opened yet is parked in a ring of
sixteen entries, from where it comes back to the queue or is dropped when it has been looked at too
often.

Judging and acting are one rule of the source, `processCandidate`; here the decision is `judge` and
the rule carries it out.  A rule fires only if every queue that its branch uses has room.
-/

namespace OpenRdma

open Function (update)

/-- The window of a queue pair, and its open message. -/
structure RxRqState where
  ackPsn : TxPsn
  receiveBitmap : BitVec 16
  oooCount : BitVec 7
  contextValid : Bool
  startPsn : TxPsn
  lastPsn : TxPsn
  remoteAddr : BitVec 64
  rkey : BitVec 32
  messageBytes : TxLength
deriving DecidableEq, Repr, Inhabited

def rxFeedbackSnapshot (cfg : RxQpConfig) (state : RxRqState) (triggerPsn : TxPsn) (nak : Bool) :
    RxFeedback where
  qpn := cfg.qpn
  kind := if nak then .nack else if state.receiveBitmap ≠ 0 then .sack else .ack
  ackPsn := state.ackPsn
  sackBase := state.ackPsn + 1
  sackBitmap := state.receiveBitmap.setWidth 64
  oooCount := state.oooCount
  triggerPsn := triggerPsn

/-- Write one bit: `bits[i] = v`. -/
def withBit (bits : BitVec 16) (i : RxWindowIndex) (v : Bool) : BitVec 16 :=
  if v then bits ||| BitVec.twoPow 16 i else bits &&& ~~~BitVec.twoPow 16 i

/-- Where a packet is parked: the low bits of its sequence number. -/
def ringIndex (psn : TxPsn) : RxWindowIndex := Fin.ofNat 16 psn.toNat

/-- The bit of a packet, relative to the next sequence number expected. -/
def bitmapIndex (ackPsn psn : TxPsn) : RxWindowIndex := Fin.ofNat 16 (psn - (ackPsn + 1)).toNat

/-! ## Messages -/

/-- The message a packet is judged by. -/
structure RxMessageContext where
  start : TxPsn
  last : TxPsn
  addr : BitVec 64
  rkey : BitVec 32
  bytes : TxLength
deriving DecidableEq, Repr

namespace RxRqState

/-- A queue pair that has received nothing. -/
def init (initialPsn : TxPsn) : RxRqState := { (default : RxRqState) with ackPsn := initialPsn - 1 }

/-- The packet opens a message. -/
def establishing (state : RxRqState) (packet : RxParsedPacket) : Bool :=
  !state.contextValid && packet.first && packet.psn == state.ackPsn + 1

/-- The message the packet opens, or the one in progress. -/
def context (state : RxRqState) (cfg : RxQpConfig) (packet : RxParsedPacket) : RxMessageContext :=
  if state.establishing packet then
    { start := packet.psn
      last := packet.psn + (packetCountForMessage packet.messageBytes cfg.pmtu).setWidth 24 - 1
      addr := packet.remoteAddr
      rkey := packet.rkey
      bytes := packet.messageBytes }
  else
    { start := state.startPsn
      last := state.lastPsn
      addr := state.remoteAddr
      rkey := state.rkey
      bytes := state.messageBytes }

def belongs (state : RxRqState) (cfg : RxQpConfig) (packet : RxParsedPacket) : Bool :=
  (state.contextValid || state.establishing packet)
    && !(packet.psn - (state.context cfg packet).start).msb
    && rxPsnAtOrAfter (state.context cfg packet).last packet.psn

end RxRqState

namespace RxMessageContext

/-- Where the packet with a given index starts in the message. -/
def messageOffset (cfg : RxQpConfig) (packetIndex : TxPsn) : BitVec 38 :=
  if packetIndex = 0 then 0
  else (firstPayloadLimit cfg.pmtu).setWidth 38
    + (packetIndex.setWidth 38 - 1) * (contPayloadLimit cfg.pmtu).setWidth 38

def packetLimit (cfg : RxQpConfig) (packetIndex : TxPsn) : BitVec 38 :=
  (if packetIndex = 0 then firstPayloadLimit cfg.pmtu else contPayloadLimit cfg.pmtu).setWidth 38

/-- The number of bytes the packet with a given index has to carry. -/
def expectedBytes (ctx : RxMessageContext) (cfg : RxQpConfig) (packetIndex : TxPsn) : BitVec 38 :=
  let messageWide : BitVec 38 := ctx.bytes.setWidth 38
  let offset := messageOffset cfg packetIndex
  let remaining := if offset < messageWide then messageWide - offset else 0
  if remaining < packetLimit cfg packetIndex then remaining else packetLimit cfg packetIndex

def expectedLast (ctx : RxMessageContext) (cfg : RxQpConfig) (packetIndex : TxPsn) : Bool :=
  messageOffset cfg packetIndex + ctx.expectedBytes cfg packetIndex == ctx.bytes.setWidth 38

def regionEnd (cfg : RxQpConfig) : BitVec 65 :=
  cfg.virtualBase.setWidth 65 + cfg.regionBytes.setWidth 65

def messageEnd (ctx : RxMessageContext) : BitVec 65 := ctx.addr.setWidth 65 + ctx.bytes.setWidth 65

def mrOffset (ctx : RxMessageContext) (cfg : RxQpConfig) : BitVec 65 :=
  ctx.addr.setWidth 65 - cfg.virtualBase.setWidth 65

def physicalMessageStart (ctx : RxMessageContext) (cfg : RxQpConfig) : BitVec 66 :=
  cfg.physicalBase.setWidth 66 + (ctx.mrOffset cfg).setWidth 66

/-- The whole message may be written: the key is the region's, and the message is inside the
region. -/
def access (ctx : RxMessageContext) (cfg : RxQpConfig) : Bool :=
  cfg.pmtu ≤ 4 && cfg.remoteWrite && cfg.rkey == ctx.rkey && ctx.bytes != 0
    && cfg.virtualBase ≤ ctx.addr
    && ctx.messageEnd ≤ regionEnd cfg
    && ctx.messageEnd ≤ 0x10000000000000000
    && ctx.physicalMessageStart cfg + ctx.bytes.setWidth 66 ≤ 0x10000000000000000

/-- The packet is the one the message has at this place. -/
def segment (ctx : RxMessageContext) (cfg : RxQpConfig) (packet : RxParsedPacket) : Bool :=
  let packetIndex := packet.psn - ctx.start
  packet.first == decide (packetIndex = 0)
    && packet.last == ctx.expectedLast cfg packetIndex
    && (!packet.first || (packet.remoteAddr == ctx.addr && packet.rkey == ctx.rkey
      && packet.messageBytes == ctx.bytes))
    && ctx.expectedBytes cfg packetIndex != 0
    && packet.payloadBytes.setWidth 38 == ctx.expectedBytes cfg packetIndex

/-- The address the packet is written to. -/
def physical (ctx : RxMessageContext) (cfg : RxQpConfig) (packet : RxParsedPacket) : BitVec 64 :=
  (ctx.physicalMessageStart cfg + (messageOffset cfg (packet.psn - ctx.start)).setWidth 66).setWidth
    64

end RxMessageContext

/-! ## The window -/

/-- One turn of the loop that moves the window past what has been received. -/
def mergeStep : BitVec 16 × TxPsn → BitVec 16 × TxPsn
  | (merged, mergedAck) =>
    if merged.getLsbD 0 then (merged >>> 1, mergedAck + 1) else (merged, mergedAck)

namespace RxRqState

/-- The bitmap and the acknowledged sequence number with one more packet received. -/
def merge (state : RxRqState) (psn : TxPsn) : BitVec 16 × TxPsn :=
  mergeStep^[16] (withBit state.receiveBitmap (bitmapIndex state.ackPsn psn) true, state.ackPsn)

def ackValid (state : RxRqState) (psn : TxPsn) : Bool := (state.merge psn).2 != state.ackPsn

def messageComplete (state : RxRqState) (cfg : RxQpConfig) (packet : RxParsedPacket) : Bool :=
  state.ackValid packet.psn
    && rxPsnAtOrAfter (state.merge packet.psn).2 (state.context cfg packet).last

/-- The state with the message open that the packet belongs to. -/
def opened (state : RxRqState) (cfg : RxQpConfig) (packet : RxParsedPacket) : RxRqState :=
  if state.establishing packet then
    { state with
      contextValid := true
      startPsn := (state.context cfg packet).start
      lastPsn := (state.context cfg packet).last
      remoteAddr := (state.context cfg packet).addr
      rkey := (state.context cfg packet).rkey
      messageBytes := (state.context cfg packet).bytes }
  else state

/-- The state after the packet is admitted. -/
def accept (state : RxRqState) (cfg : RxQpConfig) (packet : RxParsedPacket) : RxRqState :=
  { state.opened cfg packet with
    ackPsn := (state.merge packet.psn).2
    receiveBitmap := (state.merge packet.psn).1
    oooCount := BitVec.ofNat 7 ((List.range 16).countP (state.merge packet.psn).1.getLsbD)
    contextValid := (state.opened cfg packet).contextValid && !state.messageComplete cfg packet }

/-- What an admitted packet is passed on as. -/
def admitted (state : RxRqState) (cfg : RxQpConfig) (packet : RxParsedPacket) (qp : RxQpIndex)
    (globalSeq : RxGlobalSeq) : RxAdmittedPacket where
  globalSeq := globalSeq
  payloadTag := packet.payloadTag
  lane := packet.lane
  qp := qp
  qpn := packet.qpn
  psn := packet.psn
  dmaAddr := (state.context cfg packet).physical cfg packet
  payloadStart := packet.payloadStart
  payloadBytes := packet.payloadBytes
  messageBytes := (state.context cfg packet).bytes
  first := packet.first
  last := packet.last
  ackValid := state.ackValid packet.psn
  ackPsnAfterMerge := (state.merge packet.psn).2
  messageComplete := state.messageComplete cfg packet
  messageLastPsn := (state.context cfg packet).last

end RxRqState

/-! ## The manager -/

/-- The windows of all queue pairs. -/
structure RxRqBitmapManager where
  running : Bool
  failed : Bool
  cfgs : RxQpIndex → RxQpConfig
  states : RxQpIndex → RxRqState
  pendingValid : RxQpIndex → BitVec 16
  pendingPackets : RxQpIndex → RxWindowIndex → RxParsedPacket
  pendingAge : RxQpIndex → RxWindowIndex → BitVec 8
  inputQ : RxLaneId → Fifo RxParsedPacket 4
  ingressQ : Fifo RxParsedPacket 8
  admittedRouteQ : Fifo RxAdmittedPacket 32
  releaseRouteQ : Fifo RxBufferRelease 32
  admittedQ : RxLaneId → Fifo RxAdmittedPacket 4
  releaseQ : RxLaneId → Fifo RxBufferRelease 8
  feedbackQ : Fifo RxFeedback 32
  errorQ : Fifo RxError 16
  globalSeq : RxGlobalSeq
  ingressCursor : RxLaneId
  pendingScanQp : RxQpIndex
  pendingScanIndex : RxWindowIndex
  resolvePhase : Bool

/-- What is done with a packet. -/
inductive RqVerdict where
  | unknownQp
  | replacePending (qp : RxQpIndex)
  | duplicate (qp : RxQpIndex)
  | outOfWindow (qp : RxQpIndex)
  | park (qp : RxQpIndex)
  | reject (code : RxErrorCode)
  | accept (qp : RxQpIndex)
deriving DecidableEq, Repr

namespace RxRqBitmapManager

/-- After reset.  The two register files hold anything. -/
def initial (pendingPackets : RxQpIndex → RxWindowIndex → RxParsedPacket)
    (pendingAge : RxQpIndex → RxWindowIndex → BitVec 8) : RxRqBitmapManager where
  running := false
  failed := false
  cfgs := fun _ => default
  states := fun _ => default
  pendingValid := fun _ => 0
  pendingPackets := pendingPackets
  pendingAge := pendingAge
  inputQ := fun _ => .empty
  ingressQ := .empty
  admittedRouteQ := .empty
  releaseRouteQ := .empty
  admittedQ := fun _ => .empty
  releaseQ := fun _ => .empty
  feedbackQ := .empty
  errorQ := .empty
  globalSeq := 0
  ingressCursor := 0
  pendingScanQp := 0
  pendingScanIndex := 0
  resolvePhase := false

def pendingExists (m : RxRqBitmapManager) : Bool := decide (∃ qp, m.pendingValid qp ≠ 0)

/-- How many configured queue pairs have a number, and the last of them. -/
def matchCount (m : RxRqBitmapManager) (qpn : TxQpn) : ℕ × RxQpIndex :=
  countMatches fun i => (m.cfgs i).valid && (m.cfgs i).qpn == qpn

def release (m : RxRqBitmapManager) (tag : RxPayloadTag) : Option RxRqBitmapManager :=
  return { m with releaseRouteQ := ← m.releaseRouteQ.enq ⟨tag⟩ }

def feedback (m : RxRqBitmapManager) (value : RxFeedback) : Option RxRqBitmapManager :=
  return { m with feedbackQ := ← m.feedbackQ.enq value }

def report (m : RxRqBitmapManager) (packet : RxParsedPacket) (code : RxErrorCode) :
    Option RxRqBitmapManager :=
  return { m with errorQ := ← m.errorQ.enq ⟨packet.qpn, packet.psn, code⟩ }

/-- Put a packet into its ring entry. -/
def keep (m : RxRqBitmapManager) (qp : RxQpIndex) (packet : RxParsedPacket) : RxRqBitmapManager :=
  { m with
    pendingPackets := update m.pendingPackets qp
      (update (m.pendingPackets qp) (ringIndex packet.psn) packet)
    pendingAge := update m.pendingAge qp
      (update (m.pendingAge qp) (ringIndex packet.psn) 0) }

def setPending (m : RxRqBitmapManager) (qp : RxQpIndex) (i : RxWindowIndex)
    (v : Bool) : RxRqBitmapManager :=
  { m with pendingValid := update m.pendingValid qp (withBit (m.pendingValid qp) i v) }

/-! ### Rules -/

def mergeIngressLane (m : RxRqBitmapManager) (i : RxLaneId) : Option RxRqBitmapManager := do
  guard (!m.resolvePhase && rxPickReadyLane (fun i => (m.inputQ i).notEmpty) m.ingressCursor ==
    some i)
  let (packet, inputQ) ← (m.inputQ i).deq
  let ingressQ ← m.ingressQ.enq packet
  return { m with inputQ := update m.inputQ i inputQ, ingressQ, ingressCursor := i + 1 }

/-- Look at one ring entry: its packet goes back to the queue if its message is now open, is dropped
if it has waited too long, and else gets older. -/
def resolvePending (m : RxRqBitmapManager) : Option RxRqBitmapManager := do
  guard (m.running && !m.failed && m.resolvePhase && m.pendingExists)
  let qp := m.pendingScanQp
  let index := m.pendingScanIndex
  let state := m.states qp
  let packet := m.pendingPackets qp index
  let belongs := state.contextValid && !(packet.psn - state.startPsn).msb
    && rxPsnAtOrAfter state.lastPsn packet.psn
  let starts := !state.contextValid && packet.first && packet.psn == state.ackPsn + 1
  let validPending := (m.pendingValid qp).getLsbD index
  let m := { m with
    pendingScanIndex := index + 1
    pendingScanQp := if index = 15 then qp + 1 else qp
    resolvePhase := false }
  if validPending && (belongs || starts) then
    return { m.setPending qp index false with ingressQ := ← m.ingressQ.enq packet }
  else if validPending && m.pendingAge qp index == 15 then
    let m ← (m.setPending qp index false).release packet.payloadTag
    let m ← m.feedback (rxFeedbackSnapshot (m.cfgs qp) state packet.psn true)
    m.report packet .pendingTimeout
  else if validPending then
    return { m with
      pendingAge := update m.pendingAge qp
        (update (m.pendingAge qp) index (m.pendingAge qp index + 1)) }
  else return m

def advanceIdleToResolve (m : RxRqBitmapManager) : Option RxRqBitmapManager := do
  guard (m.running && !m.failed && !m.resolvePhase && m.pendingExists && !m.ingressQ.notEmpty)
  return { m with resolvePhase := true }

/-- The decision of `processCandidate`. -/
def judge (m : RxRqBitmapManager) (packet : RxParsedPacket) : RqVerdict :=
  if (m.matchCount packet.qpn).1 ≠ 1 then .unknownQp
  else
    let qp := (m.matchCount packet.qpn).2
    let cfg := m.cfgs qp
    let state := m.states qp
    let oldPacket := rxPsnBefore packet.psn (state.ackPsn + 1)
    let inWindow := rxPsnInWindow state.ackPsn packet.psn
    let committedDuplicate := inWindow
      && state.receiveBitmap.getLsbD (bitmapIndex state.ackPsn packet.psn)
    let pendingDuplicate := inWindow && (m.pendingValid qp).getLsbD (ringIndex packet.psn)
    if pendingDuplicate && packet.first then .replacePending qp
    else if oldPacket || committedDuplicate || pendingDuplicate then .duplicate qp
    else if !inWindow then .outOfWindow qp
    else if !state.belongs cfg packet then .park qp
    else if !(state.context cfg packet).access cfg then .reject .accessDenied
    else if !(state.context cfg packet).segment cfg packet then .reject .badSegment
    else .accept qp

/-- Carry out a verdict. -/
def act (m : RxRqBitmapManager) (packet : RxParsedPacket) : RqVerdict → Option RxRqBitmapManager
  | .unknownQp => do
      let m ← m.release packet.payloadTag
      let m ← m.report packet .unknownQp
      return { m with failed := true }
  | .replacePending qp => do
      let m' ← m.release (m.pendingPackets qp (ringIndex packet.psn)).payloadTag
      return m'.keep qp packet
  | .duplicate qp => do
      let m ← m.release packet.payloadTag
      m.feedback (rxFeedbackSnapshot (m.cfgs qp) (m.states qp) packet.psn false)
  | .outOfWindow qp => do
      let m ← m.release packet.payloadTag
      let m ← m.feedback (rxFeedbackSnapshot (m.cfgs qp) (m.states qp) packet.psn true)
      m.report packet .outOfWindow
  | .park qp => return (m.keep qp packet).setPending qp (ringIndex packet.psn) true
  | .reject code => do
      let m ← m.release packet.payloadTag
      let m ← m.report packet code
      return { m with failed := true }
  | .accept qp => do
      let next := (m.states qp).accept (m.cfgs qp) packet
      let admittedRouteQ ← m.admittedRouteQ.enq
        ((m.states qp).admitted (m.cfgs qp) packet qp m.globalSeq)
      let m := { m with
        states := update m.states qp next
        admittedRouteQ
        globalSeq := m.globalSeq + 1 }
      m.feedback (rxFeedbackSnapshot (m.cfgs qp) next packet.psn false)

def processCandidate (m : RxRqBitmapManager) : Option RxRqBitmapManager := do
  guard (m.running && !m.failed && !m.resolvePhase)
  let (packet, ingressQ) ← m.ingressQ.deq
  let m := { m with ingressQ, resolvePhase := m.pendingExists }
  m.act packet (m.judge packet)

def routeAdmitted (m : RxRqBitmapManager) (i : RxLaneId) : Option RxRqBitmapManager := do
  let (packet, admittedRouteQ) ← m.admittedRouteQ.deq
  guard (packet.lane = i)
  let q ← (m.admittedQ i).enq packet
  return { m with admittedRouteQ, admittedQ := update m.admittedQ i q }

def routeRelease (m : RxRqBitmapManager) (i : RxLaneId) : Option RxRqBitmapManager := do
  let (value, releaseRouteQ) ← m.releaseRouteQ.deq
  guard (value.tag.lane = i)
  let q ← (m.releaseQ i).enq value
  return { m with releaseRouteQ, releaseQ := update m.releaseQ i q }

/-! ### Methods -/

def configure (m : RxRqBitmapManager) (index : RxQpIndex) (cfg : RxQpConfig) :
    Option RxRqBitmapManager := do
  guard (!m.running)
  return { m with
    cfgs := update m.cfgs index cfg
    states := update m.states index (.init cfg.initialPsn)
    pendingValid := update m.pendingValid index 0 }

def start (m : RxRqBitmapManager) : Option RxRqBitmapManager := do
  guard (!m.running)
  return { m with running := true }

def packetIn (m : RxRqBitmapManager) (i : RxLaneId) (packet : RxParsedPacket) :
    Option RxRqBitmapManager := do
  guard (m.running && !m.failed)
  return { m with inputQ := update m.inputQ i (← (m.inputQ i).enq packet) }

def admittedOut (m : RxRqBitmapManager) (i : RxLaneId) :
    Option (RxAdmittedPacket × RxRqBitmapManager) := do
  let (packet, q) ← (m.admittedQ i).deq
  return (packet, { m with admittedQ := update m.admittedQ i q })

def releaseOut (m : RxRqBitmapManager) (i : RxLaneId) :
    Option (RxBufferRelease × RxRqBitmapManager) := do
  let (value, q) ← (m.releaseQ i).deq
  return (value, { m with releaseQ := update m.releaseQ i q })

def feedbackOut (m : RxRqBitmapManager) : Option (RxFeedback × RxRqBitmapManager) := do
  let (value, feedbackQ) ← m.feedbackQ.deq
  return (value, { m with feedbackQ })

def errorOut (m : RxRqBitmapManager) : Option (RxError × RxRqBitmapManager) := do
  let (value, errorQ) ← m.errorQ.deq
  return (value, { m with errorQ })

end RxRqBitmapManager

/-- The rules and methods of the manager. -/
inductive RqLabel where
  | configure (index : RxQpIndex) (cfg : RxQpConfig)
  | start
  | packetIn (lane : RxLaneId) (packet : RxParsedPacket)
  | mergeIngressLane (lane : RxLaneId)
  | resolvePending
  | advanceIdleToResolve
  | processCandidate
  | routeAdmitted (lane : RxLaneId)
  | routeRelease (lane : RxLaneId)
  | admittedOut (lane : RxLaneId)
  | releaseOut (lane : RxLaneId)
  | feedbackOut
  | errorOut
deriving DecidableEq, Repr

namespace RxRqBitmapManager

def step (m : RxRqBitmapManager) : RqLabel → Option RxRqBitmapManager
  | .configure index cfg => m.configure index cfg
  | .start => m.start
  | .packetIn lane packet => m.packetIn lane packet
  | .mergeIngressLane lane => m.mergeIngressLane lane
  | .resolvePending => m.resolvePending
  | .advanceIdleToResolve => m.advanceIdleToResolve
  | .processCandidate => m.processCandidate
  | .routeAdmitted lane => m.routeAdmitted lane
  | .routeRelease lane => m.routeRelease lane
  | .admittedOut lane => (m.admittedOut lane).map (·.2)
  | .releaseOut lane => (m.releaseOut lane).map (·.2)
  | .feedbackOut => m.feedbackOut.map (·.2)
  | .errorOut => m.errorOut.map (·.2)

end RxRqBitmapManager

end OpenRdma
