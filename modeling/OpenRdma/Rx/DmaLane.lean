import OpenRdma.Core.Fifo
import OpenRdma.Core.Rules
import OpenRdma.Rx.Types

/-!
# A DMA lane of the receive path

A lane writes one admitted packet at a time.  It sends a descriptor, reads the payload word by word
from the packet buffer, aligns it and sends it in beats, and waits for the completion.  A completion
that is not the one of this packet, or that reports a failure, stops the lane for good; so does an
answer of the buffer that is not the one asked for.  When a packet is done its slot is given back,
whatever the outcome.
-/

namespace OpenRdma

/-- A write of the payload of a packet. -/
structure RxDmaWriteRequest where
  globalSeq : RxGlobalSeq
  epoch : RxEpoch
  lane : RxLaneId
  qpn : TxQpn
  psn : TxPsn
  addr : BitVec 64
  bytes : BitVec 13
deriving DecidableEq, Repr

/-- A beat of a payload. -/
structure RxDmaPayloadBeat where
  globalSeq : RxGlobalSeq
  epoch : RxEpoch
  data : BitVec 256
  be : BitVec 32
  sop : Bool
  eop : Bool
deriving DecidableEq, Repr

/-- What a write has come to. -/
structure RxDmaCompletion where
  globalSeq : RxGlobalSeq
  epoch : RxEpoch
  lane : RxLaneId
  success : Bool
deriving DecidableEq, Repr

/-- A packet that is done. -/
structure RxDmaRetire where
  globalSeq : RxGlobalSeq
  qp : RxQpIndex
  qpn : TxQpn
  psn : TxPsn
  success : Bool
  ackValid : Bool
  ackPsnAfterMerge : TxPsn
  messageComplete : Bool
  messageLastPsn : TxPsn
  messageBytes : TxLength
deriving DecidableEq, Repr

/-- A beat is asked for. -/
structure RxPayloadReadRequest where
  tag : RxPayloadTag
  wordIndex : BitVec 8
deriving DecidableEq, Repr

/-- A beat of a buffered payload. -/
structure RxPayloadReadResponse where
  tag : RxPayloadTag
  wordIndex : BitVec 8
  low : BitVec 256
  high : BitVec 256
  valid : Bool
deriving DecidableEq, Repr

/-- The mask of the first `n` bytes. -/
def byteMask32 (n : BitVec 6) : BitVec 32 := ((1 : BitVec 33) <<< n.toNat - 1).setWidth 32

/-- A lane, which places one packet after another. -/
structure RxDmaLane where
  admittedQ : Fifo RxAdmittedPacket 4
  requestQ : Fifo RxDmaWriteRequest 2
  payloadQ : Fifo RxDmaPayloadBeat 4
  completionQ : Fifo RxDmaCompletion 4
  readRequestQ : Fifo RxPayloadReadRequest 4
  readResponseQ : Fifo RxPayloadReadResponse 4
  releaseQ : Fifo RxBufferRelease 4
  completedQ : Fifo RxDmaRetire 4
  errorQ : Fifo RxError 8
  failed : Bool
  epochConfigured : Bool
  currentEpoch : RxEpoch
  active : Bool
  descriptorSent : Bool
  descriptorAccepted : Bool
  payloadAccepted : Bool
  waitingRead : Bool
  payloadDone : Bool
  current : RxAdmittedPacket
  payloadOffset : BitVec 13
  expectedWord : BitVec 8

/-- The rules and methods of a lane. -/
inductive DmaLaneLabel where
  | configureEpoch (value : RxEpoch)
  | admittedIn (packet : RxAdmittedPacket)
  | beginPacket
  | sendDescriptor
  | requestOut
  | requestPayload
  | readRequestOut
  | readResponseIn (response : RxPayloadReadResponse)
  | consumePayloadRead
  | payloadOut
  | completionIn (completion : RxDmaCompletion)
  | finishPacket
  | rejectUnexpectedCompletion
  | rejectUnexpectedRead
  | releaseOut
  | completedOut
  | errorOut
deriving DecidableEq, Repr

/-- The record a packet is retired by. -/
def RxAdmittedPacket.retire (packet : RxAdmittedPacket) : RxDmaRetire where
  globalSeq := packet.globalSeq
  qp := packet.qp
  qpn := packet.qpn
  psn := packet.psn
  success := true
  ackValid := packet.ackValid
  ackPsnAfterMerge := packet.ackPsnAfterMerge
  messageComplete := packet.messageComplete
  messageLastPsn := packet.messageLastPsn
  messageBytes := packet.messageBytes

namespace RxDmaLane

/-- After reset. -/
def initial : RxDmaLane where
  admittedQ := .empty
  requestQ := .empty
  payloadQ := .empty
  completionQ := .empty
  readRequestQ := .empty
  readResponseQ := .empty
  releaseQ := .empty
  completedQ := .empty
  errorQ := .empty
  failed := false
  epochConfigured := false
  currentEpoch := 0
  active := false
  descriptorSent := false
  descriptorAccepted := false
  payloadAccepted := false
  waitingRead := false
  payloadDone := false
  current := default
  payloadOffset := 0
  expectedWord := 0

variable (lane : RxLaneId) (s : RxDmaLane)

/-! ## Rules -/

/-- The lane with the next packet as the current one. -/
def begun (packet : RxAdmittedPacket) (admittedQ : Fifo RxAdmittedPacket 4) : RxDmaLane :=
  { s with
    admittedQ
    current := packet
    payloadOffset := 0
    descriptorSent := false
    descriptorAccepted := false
    payloadAccepted := false
    waitingRead := false
    payloadDone := false
    active := true }

/-- The next packet becomes the current one; a packet of another lane stops this one. -/
def beginPacket : Option RxDmaLane := do
  guard (!s.failed && s.epochConfigured && !s.active)
  let (packet, admittedQ) ← s.admittedQ.deq
  if packet.lane ≠ lane then
    return { s with
      admittedQ
      errorQ := ← s.errorQ.enq ⟨packet.qpn, packet.psn, .dmaBadPayload⟩
      releaseQ := ← s.releaseQ.enq ⟨packet.payloadTag⟩
      failed := true }
  else return s.begun packet admittedQ

/-- The descriptor of the current packet. -/
def descriptor : RxDmaWriteRequest where
  globalSeq := s.current.globalSeq
  epoch := s.currentEpoch
  lane := lane
  qpn := s.current.qpn
  psn := s.current.psn
  addr := s.current.dmaAddr
  bytes := s.current.payloadBytes

/-- The write of the packet goes out. -/
def sendDescriptor : Option RxDmaLane := do
  guard (!s.failed && s.active && !s.descriptorSent)
  return { s with requestQ := ← s.requestQ.enq (s.descriptor lane), descriptorSent := true }

/-- Where the next byte of payload is in the frame. -/
def bytePosition : BitVec 13 := s.current.payloadStart.setWidth 13 + s.payloadOffset

/-- The next beat of the payload is asked for. -/
def requestPayload : Option RxDmaLane := do
  guard (!s.failed && s.active && s.descriptorAccepted && !s.waitingRead && !s.payloadDone)
  let word : BitVec 8 := (s.bytePosition >>> 5).setWidth 8
  return { s with
    readRequestQ := ← s.readRequestQ.enq ⟨s.current.payloadTag, word⟩
    expectedWord := word
    waitingRead := true }

/-- How many bytes the next beat carries. -/
def take : BitVec 6 :=
  let remaining := s.current.payloadBytes - s.payloadOffset
  if remaining < 32 then remaining.setWidth 6 else 32

/-- The answer is the one that was asked for. -/
def accepts (response : RxPayloadReadResponse) : Bool :=
  response.valid && response.tag == s.current.payloadTag && response.wordIndex == s.expectedWord

/-- The beat that an answer is passed on as. -/
def beat (response : RxPayloadReadResponse) : RxDmaPayloadBeat :=
  let intraWord : BitVec 5 := s.bytePosition.setWidth 5
  let window : BitVec 512 := response.high ++ response.low
  { globalSeq := s.current.globalSeq
    epoch := s.currentEpoch
    data := (window >>> (intraWord.toNat * 8)).setWidth 256
    be := byteMask32 s.take
    sop := s.payloadOffset == 0
    eop := s.payloadOffset + s.take.setWidth 13 == s.current.payloadBytes }

/-- An answer of the buffer is passed on as a beat; one that was not asked for stops the lane. -/
def consumePayloadRead : Option RxDmaLane := do
  guard (!s.failed && s.active && s.waitingRead)
  let (response, readResponseQ) ← s.readResponseQ.deq
  if !s.accepts response then
    return { s with
      readResponseQ
      errorQ := ← s.errorQ.enq ⟨s.current.qpn, s.current.psn, .dmaBadPayload⟩
      releaseQ := ← s.releaseQ.enq ⟨s.current.payloadTag⟩
      waitingRead := false
      active := false
      failed := true }
  else
    return { s with
      readResponseQ
      payloadQ := ← s.payloadQ.enq (s.beat response)
      payloadOffset := s.payloadOffset + s.take.setWidth 13
      waitingRead := false
      payloadDone := s.payloadDone || (s.beat response).eop }

/-- The completion is the one of the current packet. -/
def identityOk (completion : RxDmaCompletion) : Bool :=
  completion.globalSeq == s.current.globalSeq && completion.epoch == s.currentEpoch
    && completion.lane == lane

/-- The write is completed: the packet is done, or the lane stops. -/
def finishPacket : Option RxDmaLane := do
  guard (!s.failed && s.active && s.payloadDone && s.payloadAccepted)
  let (completion, completionQ) ← s.completionQ.deq
  let s := { s with
    completionQ
    releaseQ := ← s.releaseQ.enq ⟨s.current.payloadTag⟩
    active := false
    payloadDone := false }
  if !s.identityOk lane completion || !completion.success then
    let code := if s.identityOk lane completion then .dmaFailed else .dmaBadCompletion
    return { s with
      errorQ := ← s.errorQ.enq ⟨s.current.qpn, s.current.psn, code⟩
      failed := true }
  else
    return { s with completedQ := ← s.completedQ.enq s.current.retire }

/-- The slot of the current packet, if there is one, is given back. -/
def releaseCurrent : Option (Fifo RxBufferRelease 4) :=
  if s.active then s.releaseQ.enq ⟨s.current.payloadTag⟩ else some s.releaseQ

/-- Stop with an error, and give the slot of the current packet back. -/
def abandon (code : RxErrorCode) : Option RxDmaLane := do
  let errorQ ← s.errorQ.enq
    ⟨if s.active then s.current.qpn else 0, if s.active then s.current.psn else 0, code⟩
  let releaseQ ← s.releaseCurrent
  return { s with errorQ, releaseQ, active := false, failed := true }

/-- A completion without a write stops the lane. -/
def rejectUnexpectedCompletion : Option RxDmaLane := do
  guard (!s.failed && (!s.active || !s.payloadDone))
  let (_, completionQ) ← s.completionQ.deq
  { s with completionQ }.abandon .dmaBadCompletion

/-- A beat that was not asked for stops the lane. -/
def rejectUnexpectedRead : Option RxDmaLane := do
  guard (!s.failed && !s.waitingRead)
  let (_, readResponseQ) ← s.readResponseQ.deq
  { s with readResponseQ }.abandon .dmaBadPayload

/-! ## Methods -/

def configureEpoch (value : RxEpoch) : Option RxDmaLane := do
  guard (!s.active)
  return { s with currentEpoch := value, epochConfigured := true }

/-- A packet comes in. -/
def admittedIn (packet : RxAdmittedPacket) : Option RxDmaLane := do
  guard (!s.failed && s.epochConfigured)
  return { s with admittedQ := ← s.admittedQ.enq packet }

/-- A write goes out. -/
def requestOut : Option (RxDmaWriteRequest × RxDmaLane) := do
  let (request, requestQ) ← s.requestQ.deq
  return (request, { s with requestQ, descriptorAccepted := true })

def payloadOut : Option (RxDmaPayloadBeat × RxDmaLane) := do
  let (beat, payloadQ) ← s.payloadQ.deq
  return (beat, { s with payloadQ, payloadAccepted := s.payloadAccepted || beat.eop })

/-- A write is completed. -/
def completionIn (completion : RxDmaCompletion) : Option RxDmaLane :=
  return { s with completionQ := ← s.completionQ.enq completion }

def readRequestOut : Option (RxPayloadReadRequest × RxDmaLane) := do
  let (request, readRequestQ) ← s.readRequestQ.deq
  return (request, { s with readRequestQ })

def readResponseIn (response : RxPayloadReadResponse) : Option RxDmaLane :=
  return { s with readResponseQ := ← s.readResponseQ.enq response }

/-- A buffer is released. -/
def releaseOut : Option (RxBufferRelease × RxDmaLane) := do
  let (value, releaseQ) ← s.releaseQ.deq
  return (value, { s with releaseQ })

/-- A packet is done. -/
def completedOut : Option (RxDmaRetire × RxDmaLane) := do
  let (value, completedQ) ← s.completedQ.deq
  return (value, { s with completedQ })

def errorOut : Option (RxError × RxDmaLane) := do
  let (value, errorQ) ← s.errorQ.deq
  return (value, { s with errorQ })

/-- The state after a rule or method, if it is ready. -/
def step : DmaLaneLabel → Option RxDmaLane
  | .configureEpoch value => s.configureEpoch value
  | .admittedIn packet => s.admittedIn packet
  | .beginPacket => s.beginPacket lane
  | .sendDescriptor => s.sendDescriptor lane
  | .requestOut => s.requestOut.map (·.2)
  | .requestPayload => s.requestPayload
  | .readRequestOut => s.readRequestOut.map (·.2)
  | .readResponseIn response => s.readResponseIn response
  | .consumePayloadRead => s.consumePayloadRead
  | .payloadOut => s.payloadOut.map (·.2)
  | .completionIn completion => s.completionIn completion
  | .finishPacket => s.finishPacket lane
  | .rejectUnexpectedCompletion => s.rejectUnexpectedCompletion
  | .rejectUnexpectedRead => s.rejectUnexpectedRead
  | .releaseOut => s.releaseOut.map (·.2)
  | .completedOut => s.completedOut.map (·.2)
  | .errorOut => s.errorOut.map (·.2)

/-! ## What a firing does -/

variable {lane s} {s' : RxDmaLane}

/-- A packet becomes the current one, or stops the lane. -/
lemma beginPacket_eq_some (h : s.beginPacket lane = some s') :
    s.failed = false ∧ s.active = false ∧ ∃ packet q, s.admittedQ.deq = some (packet, q) ∧
      ((∃ e r, packet.lane ≠ lane ∧ s.releaseQ.enq ⟨packet.payloadTag⟩ = some r ∧
          s' = { s with admittedQ := q, errorQ := e, releaseQ := r, failed := true }) ∨
        packet.lane = lane ∧ s' = s.begun packet q) := by
  obtain ⟨hguard, h⟩ := guard_bind_eq_some.1 h
  obtain ⟨⟨packet, q⟩, hq, h⟩ := bind_eq_some.1 h
  simp only [Bool.and_eq_true, Bool.not_eq_true'] at hguard
  refine ⟨hguard.1.1, hguard.2, packet, q, hq, ?_⟩
  dsimp only at h
  split at h
  · rename_i hlane
    obtain ⟨e, -, h⟩ := bind_eq_some.1 h
    obtain ⟨r, hr, h⟩ := bind_eq_some.1 h
    exact .inl ⟨e, r, hlane, hr, (Option.some.inj h).symm⟩
  · rename_i hlane
    exact .inr ⟨not_not.1 hlane, (Option.some.inj h).symm⟩

/-- An answer of the buffer is passed on as payload, or stops the lane. -/
lemma consumePayloadRead_eq_some (h : s.consumePayloadRead = some s') :
    s.failed = false ∧ s.active = true ∧ s.waitingRead = true ∧
    ∃ response q, s.readResponseQ.deq = some (response, q) ∧
      ((∃ e r, s.accepts response = false ∧ s.releaseQ.enq ⟨s.current.payloadTag⟩ = some r ∧
          s' = { s with
            readResponseQ := q, errorQ := e, releaseQ := r, waitingRead := false, active := false,
            failed := true }) ∨
        ∃ p, s.accepts response = true ∧ s.payloadQ.enq (s.beat response) = some p ∧ s' = { s with
          readResponseQ := q
          payloadQ := p
          payloadOffset := s.payloadOffset + s.take.setWidth 13
          waitingRead := false
          payloadDone := s.payloadDone || (s.beat response).eop }) := by
  obtain ⟨hguard, h⟩ := guard_bind_eq_some.1 h
  obtain ⟨⟨response, q⟩, hq, h⟩ := bind_eq_some.1 h
  simp only [Bool.and_eq_true, Bool.not_eq_true'] at hguard
  refine ⟨hguard.1.1, hguard.1.2, hguard.2, response, q, hq, ?_⟩
  dsimp only at h
  split at h
  · rename_i hbad
    obtain ⟨e, -, h⟩ := bind_eq_some.1 h
    obtain ⟨r, hr, h⟩ := bind_eq_some.1 h
    exact .inl ⟨e, r, Bool.not_eq_true' _ ▸ hbad, hr, (Option.some.inj h).symm⟩
  · rename_i hok
    obtain ⟨p, hp, h⟩ := bind_eq_some.1 h
    rw [Bool.not_eq_true, Bool.not_eq_false'] at hok
    exact .inr ⟨p, hok, hp, (Option.some.inj h).symm⟩

/-- The current packet is done: it is completed by its own completion, or stops the lane. -/
lemma finishPacket_eq_some (h : s.finishPacket lane = some s') :
    s.failed = false ∧ s.active = true ∧ s.payloadDone = true ∧
    ∃ completion q r, s.completionQ.deq = some (completion, q) ∧
      s.releaseQ.enq ⟨s.current.payloadTag⟩ = some r ∧
      ((∃ e, s' = { s with
          completionQ := q, releaseQ := r, active := false, payloadDone := false, errorQ := e,
          failed := true }) ∨
        s.identityOk lane completion = true ∧ completion.success = true ∧
        ∃ c, s.completedQ.enq s.current.retire = some c ∧
          s' = { s with
            completionQ := q, releaseQ := r, active := false, payloadDone := false,
            completedQ := c }) := by
  obtain ⟨hguard, h⟩ := guard_bind_eq_some.1 h
  obtain ⟨⟨completion, q⟩, hq, h⟩ := bind_eq_some.1 h
  obtain ⟨r, hr, h⟩ := bind_eq_some.1 h
  simp only [Bool.and_eq_true, Bool.not_eq_true'] at hguard
  refine ⟨hguard.1.1.1, hguard.1.1.2, hguard.1.2, completion, q, r, hq, hr, ?_⟩
  dsimp only at h
  split at h
  · obtain ⟨e, -, h⟩ := bind_eq_some.1 h
    exact .inl ⟨e, (Option.some.inj h).symm⟩
  · rename_i hok
    obtain ⟨c, hc, h⟩ := bind_eq_some.1 h
    simp only [Bool.not_eq_true, Bool.or_eq_false_iff, Bool.not_eq_false'] at hok
    exact .inr ⟨hok.1, hok.2, c, hc, (Option.some.inj h).symm⟩

/-- The lane stops, and the slot of the current packet is given back. -/
lemma abandon_eq_some {code : RxErrorCode} (h : s.abandon code = some s') :
    ∃ e r, s.releaseCurrent = some r ∧
      s' = { s with errorQ := e, releaseQ := r, active := false, failed := true } := by
  obtain ⟨e, -, h⟩ := bind_eq_some.1 h
  obtain ⟨r, hr, h⟩ := bind_eq_some.1 h
  exact ⟨e, r, hr, (Option.some.inj h).symm⟩

/-- The epoch is set while no packet is under way. -/
lemma configureEpoch_eq_some {value : RxEpoch} (h : s.configureEpoch value = some s') :
    s.active = false ∧ s' = { s with currentEpoch := value, epochConfigured := true } := by
  obtain ⟨hguard, h⟩ := guard_bind_eq_some.1 h
  exact ⟨by simpa using hguard, (Option.some.inj h).symm⟩

/-- A packet is queued. -/
lemma admittedIn_eq_some {packet : RxAdmittedPacket} (h : s.admittedIn packet = some s') :
    s.failed = false ∧ s.epochConfigured = true ∧
      ∃ q, s.admittedQ.enq packet = some q ∧ s' = { s with admittedQ := q } := by
  obtain ⟨hguard, h⟩ := guard_bind_eq_some.1 h
  obtain ⟨q, hq, h⟩ := bind_eq_some.1 h
  simp only [Bool.and_eq_true, Bool.not_eq_true'] at hguard
  exact ⟨hguard.1, hguard.2, q, hq, (Option.some.inj h).symm⟩

/-- The first write goes out. -/
lemma requestOut_eq_some {request : RxDmaWriteRequest} (h : s.requestOut = some (request, s')) :
    ∃ q, s.requestQ.deq = some (request, q) ∧
      s' = { s with requestQ := q, descriptorAccepted := true } := by
  obtain ⟨⟨r, q⟩, hq, h⟩ := bind_eq_some.1 h
  cases h
  exact ⟨q, hq, rfl⟩

/-- The first release goes out. -/
lemma releaseOut_eq_some {value : RxBufferRelease} (h : s.releaseOut = some (value, s')) :
    ∃ q, s.releaseQ.deq = some (value, q) ∧ s' = { s with releaseQ := q } := by
  obtain ⟨⟨r, q⟩, hq, h⟩ := bind_eq_some.1 h
  cases h
  exact ⟨q, hq, rfl⟩

/-- The first packet that is done goes out. -/
lemma completedOut_eq_some {value : RxDmaRetire} (h : s.completedOut = some (value, s')) :
    ∃ q, s.completedQ.deq = some (value, q) ∧ s' = { s with completedQ := q } := by
  obtain ⟨⟨r, q⟩, hq, h⟩ := bind_eq_some.1 h
  cases h
  exact ⟨q, hq, rfl⟩

/-! ## What a lane holds -/

/-- The packets of the lane that are not done: the current one, and those that wait. -/
def held (s : RxDmaLane) : List RxAdmittedPacket :=
  (if s.active then [s.current] else []) ++ s.admittedQ.elems

/-- A firing that concerns the payload of the current packet only. -/
structure Quiet (s s' : RxDmaLane) : Prop where
  admittedQ : s'.admittedQ = s.admittedQ
  requestQ : s'.requestQ = s.requestQ
  releaseQ : s'.releaseQ = s.releaseQ
  completedQ : s'.completedQ = s.completedQ
  failed : s'.failed = s.failed
  epochConfigured : s'.epochConfigured = s.epochConfigured
  currentEpoch : s'.currentEpoch = s.currentEpoch
  active : s'.active = s.active
  current : s'.current = s.current

/-- A firing that stops the lane. -/
structure Stops (s s' : RxDmaLane) : Prop where
  running : s.failed = false
  failed : s'.failed = true
  held : s'.held ⊆ s.held
  requestQ : s'.requestQ = s.requestQ
  completedQ : s'.completedQ = s.completedQ
  epochConfigured : s'.epochConfigured = s.epochConfigured
  currentEpoch : s'.currentEpoch = s.currentEpoch

/-- What a firing does with packets, descriptors and completed packets. -/
inductive Fires (lane : RxLaneId) (s s' : RxDmaLane) : DmaLaneLabel → Prop
  | quiet {l} (hl : l ≠ .finishPacket ∧ l ≠ .requestOut) (hs : s.Quiet s') : Fires lane s s' l
  | stops {l} (hs : s.Stops s') : Fires lane s s' l
  | configureEpoch {value} (hactive : s.active = false)
      (hs : s' = { s with currentEpoch := value, epochConfigured := true }) :
      Fires lane s s' (.configureEpoch value)
  | admittedIn {packet q}
      (hconfigured : s.epochConfigured = true) (hq : s.admittedQ.enq packet = some q)
      (hs : s' = { s with admittedQ := q }) : Fires lane s s' (.admittedIn packet)
  | beginPacket {packet q} (hactive : s.active = false)
      (hq : s.admittedQ.deq = some (packet, q)) (hs : s' = s.begun packet q) :
      Fires lane s s' .beginPacket
  | sendDescriptor {q} (hactive : s.active = true)
      (hq : s.requestQ.enq (s.descriptor lane) = some q)
      (hs : s' = { s with requestQ := q, descriptorSent := true }) : Fires lane s s' .sendDescriptor
  | requestOut {request q} (hq : s.requestQ.deq = some (request, q))
      (hs : s' = { s with requestQ := q, descriptorAccepted := true }) : Fires lane s s' .requestOut
  | finishPacket {completion q r c} (hactive : s.active = true)
      (hq : s.completionQ.deq = some (completion, q))
      (hr : s.releaseQ.enq ⟨s.current.payloadTag⟩ = some r)
      (hidentity : s.identityOk lane completion = true) (hsuccess : completion.success = true)
      (hc : s.completedQ.enq s.current.retire = some c) (hs : s' = { s with
        completionQ := q, releaseQ := r, active := false, payloadDone := false, completedQ := c }) :
      Fires lane s s' .finishPacket
  | releaseOut {value q}
      (hq : s.releaseQ.deq = some (value, q)) (hs : s' = { s with releaseQ := q }) :
      Fires lane s s' .releaseOut
  | completedOut {value q}
      (hq : s.completedQ.deq = some (value, q)) (hs : s' = { s with completedQ := q }) :
      Fires lane s s' .completedOut

/-- **Every firing of a lane is one of these.** -/
theorem step_fires {l : DmaLaneLabel} (h : s.step lane l = some s') : s.Fires lane s' l := by
  cases l with
  | configureEpoch value =>
    obtain ⟨hactive, rfl⟩ := configureEpoch_eq_some h
    exact .configureEpoch hactive rfl
  | admittedIn packet =>
    obtain ⟨-, hconfigured, q, hq, rfl⟩ := admittedIn_eq_some h
    exact .admittedIn hconfigured hq rfl
  | beginPacket =>
    obtain ⟨hfailed, hactive, packet, q, hq, ⟨e, r, -, -, rfl⟩ | ⟨-, rfl⟩⟩ := beginPacket_eq_some h
    · refine .stops ⟨hfailed, rfl, ?_, rfl, rfl, rfl, rfl⟩
      simp only [held, hactive, Fifo.deq_eq_some hq]
      exact List.subset_cons_self _ _
    · exact .beginPacket hactive hq rfl
  | sendDescriptor =>
    obtain ⟨hguard, h⟩ := guard_bind_eq_some.1 h
    obtain ⟨q, hq, h⟩ := bind_eq_some.1 h
    simp only [Bool.and_eq_true] at hguard
    exact .sendDescriptor hguard.1.2 hq (Option.some.inj h).symm
  | requestOut =>
    obtain ⟨⟨a, t⟩, hout, rfl⟩ := Option.map_eq_some_iff.1 h
    obtain ⟨q, hq, rfl⟩ := requestOut_eq_some hout
    exact .requestOut hq rfl
  | requestPayload =>
    obtain ⟨-, h⟩ := guard_bind_eq_some.1 h
    obtain ⟨q, -, h⟩ := bind_eq_some.1 h
    cases h
    exact .quiet ⟨nofun, nofun⟩ ⟨rfl, rfl, rfl, rfl, rfl, rfl, rfl, rfl, rfl⟩
  | readResponseIn | completionIn =>
    obtain ⟨q, -, h⟩ := bind_eq_some.1 h
    cases h
    exact .quiet ⟨nofun, nofun⟩ ⟨rfl, rfl, rfl, rfl, rfl, rfl, rfl, rfl, rfl⟩
  | readRequestOut | payloadOut | errorOut =>
    obtain ⟨⟨a, t⟩, hout, rfl⟩ := Option.map_eq_some_iff.1 h
    obtain ⟨⟨b, q⟩, -, hout⟩ := bind_eq_some.1 hout
    cases hout
    exact .quiet ⟨nofun, nofun⟩ ⟨rfl, rfl, rfl, rfl, rfl, rfl, rfl, rfl, rfl⟩
  | consumePayloadRead =>
    obtain ⟨hfailed, -, -, response, q, -, ⟨e, r, -, -, rfl⟩ | ⟨b, -, -, rfl⟩⟩ :=
      consumePayloadRead_eq_some h
    · exact .stops ⟨hfailed, rfl, List.subset_append_right _ _, rfl, rfl, rfl, rfl⟩
    · exact .quiet ⟨nofun, nofun⟩ ⟨rfl, rfl, rfl, rfl, rfl, rfl, rfl, rfl, rfl⟩
  | finishPacket =>
    obtain ⟨hfailed, hactive, -, completion, q, r, hq, hr,
      ⟨e, rfl⟩ | ⟨hidentity, hsuccess, c, hc, rfl⟩⟩ := finishPacket_eq_some h
    · exact .stops ⟨hfailed, rfl, List.subset_append_right _ _, rfl, rfl, rfl, rfl⟩
    · exact .finishPacket hactive hq hr hidentity hsuccess hc rfl
  | rejectUnexpectedCompletion | rejectUnexpectedRead =>
    obtain ⟨hguard, h⟩ := guard_bind_eq_some.1 h
    obtain ⟨⟨x, q⟩, -, h⟩ := bind_eq_some.1 h
    obtain ⟨e, r, -, rfl⟩ := abandon_eq_some h
    simp only [Bool.and_eq_true, Bool.not_eq_true'] at hguard
    exact .stops ⟨hguard.1, rfl, List.subset_append_right _ _, rfl, rfl, rfl, rfl⟩
  | releaseOut =>
    obtain ⟨⟨a, t⟩, hout, rfl⟩ := Option.map_eq_some_iff.1 h
    obtain ⟨q, hq, rfl⟩ := releaseOut_eq_some hout
    exact .releaseOut hq rfl
  | completedOut =>
    obtain ⟨⟨a, t⟩, hout, rfl⟩ := Option.map_eq_some_iff.1 h
    obtain ⟨q, hq, rfl⟩ := completedOut_eq_some hout
    exact .completedOut hq rfl

/-- The packet that begins was held before. -/
lemma held_begun {packet : RxAdmittedPacket} {q : Fifo RxAdmittedPacket 4}
    (hactive : s.active = false) (hq : s.admittedQ.deq = some (packet, q)) :
    (s.begun packet q).held = s.held := by
  rw [held, held, hactive, Fifo.deq_eq_some hq]
  rfl

/-- A quiet step leaves the packets alone. -/
lemma Quiet.held_eq (hs : s.Quiet s') : s'.held = s.held := by
  rw [held, held, hs.active, hs.current, hs.admittedQ]

/-- A packet comes into the lane by `admittedIn` only. -/
lemma mem_held_step {l : DmaLaneLabel} (h : s.step lane l = some s') {p : RxAdmittedPacket}
    (hp : p ∈ s'.held) : p ∈ s.held ∨ l = .admittedIn p := by
  cases step_fires h with
  | quiet hl hs =>
    rw [hs.held_eq] at hp
    exact .inl hp
  | stops hs => exact .inl (hs.held hp)
  | admittedIn hconfigured hq hs =>
    subst hs
    simp only [held, Fifo.enq_eq_some hq, ← List.append_assoc, List.mem_append,
      List.mem_singleton] at hp
    rcases hp with hp | rfl
    · exact .inl (List.mem_append.2 hp)
    · exact .inr rfl
  | beginPacket hactive hq hs =>
    rw [hs, held_begun hactive hq] at hp
    exact .inl hp
  | finishPacket hactive hq hr hidentity hsuccess hc hs =>
    subst hs
    exact .inl (List.mem_append_right _ hp)
  | _ =>
    subst_vars
    exact .inl hp

/-- A descriptor that joins the queue is that of the current packet. -/
lemma mem_requestQ_step {l : DmaLaneLabel} (h : s.step lane l = some s') {r : RxDmaWriteRequest}
    (hr : r ∈ s'.requestQ.elems) :
    r ∈ s.requestQ.elems ∨ s.current ∈ s.held ∧ r = s.descriptor lane := by
  cases step_fires h with
  | quiet hl hs =>
    rw [hs.requestQ] at hr
    exact .inl hr
  | stops hs =>
    rw [hs.requestQ] at hr
    exact .inl hr
  | sendDescriptor hactive hq hs =>
    subst hs
    simp only [Fifo.enq_eq_some hq, List.mem_append, List.mem_singleton] at hr
    refine hr.imp id fun hnew => ⟨?_, hnew⟩
    simp [held, hactive]
  | requestOut hq hs =>
    subst hs
    rw [Fifo.deq_eq_some hq]
    exact .inl (List.mem_cons_of_mem _ hr)
  | _ =>
    subst_vars
    exact .inl hr

end RxDmaLane

/-! ## The four lanes -/

/-- The lanes, and the queue of retired packets. -/
structure RxDmaPlacement where
  lanes : RxLaneId → RxDmaLane
  retireQ : Fifo RxDmaRetire 8
  head : RxGlobalSeq

namespace RxDmaPlacement

def initial : RxDmaPlacement := ⟨fun _ => .initial, .empty, 0⟩

variable (s : RxDmaPlacement)

/-- Some lane has stopped. -/
def faulted : Bool := decide (∃ i, (s.lanes i).failed = true)

/-- A completed packet is retired when its turn has come. -/
def retireCompletedLane (i : RxLaneId) : Option RxDmaPlacement := do
  guard (!s.faulted)
  let (value, lane) ← (s.lanes i).completedOut
  guard (value.globalSeq = s.head)
  return {
    lanes := Function.update s.lanes i lane
    retireQ := ← s.retireQ.enq value
    head := s.head + 1 }

/-- All lanes are in one epoch. -/
def configureEpoch (value : RxEpoch) : Option RxDmaPlacement := do
  guard (∀ i, (s.lanes i).active = false)
  return { s with lanes := fun i =>
    { s.lanes i with currentEpoch := value, epochConfigured := true } }

/-- A packet goes to its lane. -/
def admittedIn (i : RxLaneId) (packet : RxAdmittedPacket) : Option RxDmaPlacement := do
  guard (!s.faulted)
  return { s with lanes := Function.update s.lanes i (← (s.lanes i).admittedIn packet) }

/-- One of the lanes fires. -/
def lane (i : RxLaneId) (l : DmaLaneLabel) : Option RxDmaPlacement :=
  return { s with lanes := Function.update s.lanes i (← (s.lanes i).step i l) }

/-- A retired packet goes out. -/
def retireOut : Option (RxDmaRetire × RxDmaPlacement) := do
  let (value, retireQ) ← s.retireQ.deq
  return (value, { s with retireQ })

end RxDmaPlacement

end OpenRdma
