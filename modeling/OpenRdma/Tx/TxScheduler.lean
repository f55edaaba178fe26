import OpenRdma.Tx.EvPathManager

/-!
# The scheduler of the four transmit channels

Packets of four classes wait for one of four channels.  Control packets go before ordered ones,
these before retries, and retries before packets that are sent for the first time; but after a burst
of the others a first-class packet that is ready goes next.  A packet starts when its class is ready
— its descriptor and the first beat of its payload are there, and so is a channel or a path — and
the next one starts when its payload has been stored.

The encoders behind the channels are not modelled but for the queue of packets that each has: an
encoder may take a packet and may complete one at any time.  An assertion that fails stops the
scheduler, so a rule fires only if its assertions hold.

* **`first_class_not_starved`** — at most the configured burst.
-/

namespace OpenRdma

open Function (update)

structure MacIpConfig where
  srcMac : BitVec 48
  dstMac : BitVec 48
  srcIp : BitVec 32
  dstIp : BitVec 32
deriving DecidableEq, Repr, Inhabited

/-- The configuration of the scheduler. -/
structure MrcTxCfgReq where
  cfg : MacIpConfig
  channelEnable : BitVec 4
  maxHighBurst : BitVec 4
deriving DecidableEq, Repr

/-- The profiles of the traffic classes. -/
structure MrcSourceProfileConfig where
  mrcMask : BitVec 4
  firstProfileId : TxEvProfileId
  retryProfileId : TxEvProfileId
  orderedProfileId : TxEvProfileId
  controlProfileId : TxEvProfileId
deriving DecidableEq, Repr

/-- A packet for which there is no path. -/
structure MrcNoPathEvent where
  trafficClass : TxTrafficClass
  profileId : TxEvProfileId
deriving DecidableEq, Repr

/-- A packet that was sent. -/
structure TxCommit where
  requestId : BitVec 16
  qpn : TxQpn
  psn : TxPsn
  packetIndex : TxPsnCount
  channel : BitVec 2
  trafficClass : TxTrafficClass
deriving DecidableEq, Repr

/-- A packet with its path. -/
structure BufferedPacket where
  descriptor : PacketDescriptor
  portConfig : MacIpConfig
  path : MrcResolvedPath
  slot : Bool
  beatCount : BitVec 6
deriving DecidableEq, Repr

/-- The bit of a class in the masks. -/
def TxTrafficClass.bit : TxTrafficClass → ℕ
  | .first => 0
  | .retry => 1
  | .ordered => 2
  | .control => 3

namespace MrcSourceProfileConfig

/-- The profile of a traffic class. -/
def profileId (route : MrcSourceProfileConfig) : TxTrafficClass → TxEvProfileId
  | .first => route.firstProfileId
  | .retry => route.retryProfileId
  | .ordered => route.orderedProfileId
  | .control => route.controlProfileId

/-- The class is sent on paths of its profile. -/
def isMrc (route : MrcSourceProfileConfig) (c : TxTrafficClass) : Bool :=
  route.mrcMask.getLsbD c.bit

end MrcSourceProfileConfig

/-- The first eligible channel from `start` on. -/
def chooseChannel (start : BitVec 2) (eligible : BitVec 4) : BitVec 2 :=
  if eligible.getLsbD start.toNat then start
  else if eligible.getLsbD (start + 1).toNat then start + 1
  else if eligible.getLsbD (start + 2).toNat then start + 2
  else start + 3

/-- What is asserted of a descriptor. -/
def packetDescriptorIsWellFormed (d : PacketDescriptor) : Bool :=
  let payloadLimit := packetPayloadLimitForProfile d.wireProfile d.pmtu d.isFirst
  let payloadEnd : BitVec 26 := d.messageOffset.setWidth 26 + d.payloadLength.setWidth 26
  d.pmtu ≤ 4 && d.isFirst == decide (d.packetIndex = 0)
    && (d.packetCount != 0 && d.packetIndex < d.packetCount
      && d.isLast == decide (d.packetIndex + 1 = d.packetCount))
    && (isSupportedWireProfile d.wireProfile
      && d.opcode == packetOpcodeForProfile d.wireProfile d.isFirst d.isLast)
    && (d.payloadLength != 0 && d.payloadLength ≤ payloadLimit
      && (d.isLast || d.payloadLength == payloadLimit))
    && (d.messageLength != 0 && payloadEnd ≤ d.messageLength.setWidth 26
      && d.isFirst == decide (d.messageOffset = 0))

/-- The scheduler of the four channels. -/
structure FourChannelTxScheduler where
  descQ : TxTrafficClass → Fifo PacketDescriptor 2
  payloadQ : TxTrafficClass → Fifo PacketPayloadBeat 2
  selectedPayloadQ : Fifo PacketPayloadBeat 2
  commitQ : Fifo TxCommit 8
  noPathQ : Fifo MrcNoPathEvent 4
  configReqQ : Fifo MrcTxCfgReq 2
  configRespQ : Fifo Bool 2
  sourceRouteConfigQ : Fifo MrcSourceProfileConfig 2
  packetQ : BitVec 2 → Fifo BufferedPacket 2
  pathManager : EvPathManager
  portConfig : MacIpConfig
  channelEnable : BitVec 4
  sourceRoute : MrcSourceProfileConfig
  noPathReportedMask : BitVec 4
  maxHighBurst : BitVec 4
  highBurst : BitVec 4
  roundRobin : BitVec 2
  accepted : BitVec 2 → BitVec 3
  completed : BitVec 2 → BitVec 3
  active : Bool
  activeChannel : BitVec 2
  activePath : MrcResolvedPath
  activeSlot : Bool
  ingressDescriptor : PacketDescriptor
  ingressConfig : MacIpConfig
  ingressBeatIndex : BitVec 5
  ingressBytes : BitVec 13
  selectedEopQueued : Bool

namespace FourChannelTxScheduler

/-- After reset. -/
def initial : FourChannelTxScheduler where
  descQ := fun _ => .empty
  payloadQ := fun _ => .empty
  selectedPayloadQ := .empty
  commitQ := .empty
  noPathQ := .empty
  configReqQ := .empty
  configRespQ := .empty
  sourceRouteConfigQ := .empty
  packetQ := fun _ => .empty
  pathManager := .initial
  portConfig := default
  channelEnable := 0xF
  sourceRoute := ⟨0, 0, 0, 0, 0⟩
  noPathReportedMask := 0
  maxHighBurst := 4
  highBurst := 0
  roundRobin := 0
  accepted := fun _ => 0
  completed := fun _ => 0
  active := false
  activeChannel := 0
  activePath := default
  activeSlot := false
  ingressDescriptor := default
  ingressConfig := default
  ingressBeatIndex := 0
  ingressBytes := 0
  selectedEopQueued := false

/-! ## Who may start -/

/-- The encoder of a channel has room: at most two packets of a channel are outstanding. -/
def free (s : FourChannelTxScheduler) (channel : BitVec 2) : Bool :=
  (s.packetQ channel).notFull && decide (s.accepted channel - s.completed channel < 2)

/-- The free channels. -/
def freeMask (s : FourChannelTxScheduler) : BitVec 4 :=
  BitVec.ofBool (s.free 3) ++ BitVec.ofBool (s.free 2) ++ BitVec.ofBool (s.free 1) ++
    BitVec.ofBool (s.free 0)

/-- The channels that may be chosen. -/
def eligibleMask (s : FourChannelTxScheduler) : BitVec 4 := s.channelEnable &&& s.freeMask

/-- The path of a class. -/
def resolution (s : FourChannelTxScheduler) (c : TxTrafficClass) : MrcPathResolution :=
  s.pathManager.resolve (s.sourceRoute.profileId c) s.eligibleMask s.channelEnable

def routeUpdatePending (s : FourChannelTxScheduler) : Bool := s.sourceRouteConfigQ.notEmpty

def pathUpdatePending (s : FourChannelTxScheduler) : Bool :=
  s.pathManager.updatePending || s.routeUpdatePending

/-- `firstReady`, `retryReady`, `orderedReady` and `controlReady`. -/
def ready (s : FourChannelTxScheduler) (c : TxTrafficClass) : Bool :=
  !s.routeUpdatePending && (s.descQ c).notEmpty && (s.payloadQ c).notEmpty
    && ((!s.sourceRoute.isMrc c && s.eligibleMask != 0)
      || (s.sourceRoute.isMrc c && !s.pathUpdatePending && (s.resolution c).selected.isSome))

/-- A first-class packet has to go next. -/
def forceFirst (s : FourChannelTxScheduler) : Bool :=
  s.ready .first && decide (s.maxHighBurst ≤ s.highBurst)

def noSourceReady (s : FourChannelTxScheduler) : Bool :=
  !s.ready .control && !s.ready .ordered && !s.ready .retry && !s.ready .first

/-- A packet waits, no path of its profile is usable, and that has not been reported. -/
def needsNoPath (s : FourChannelTxScheduler) (c : TxTrafficClass) : Bool :=
  (s.descQ c).notEmpty && (s.payloadQ c).notEmpty && s.sourceRoute.isMrc c && !s.pathUpdatePending
    && !(s.resolution c).usable && !s.noPathReportedMask.getLsbD c.bit

/-! ## Rules -/

def applySourceRoute (s : FourChannelTxScheduler) : Option FourChannelTxScheduler := do
  let (sourceRoute, sourceRouteConfigQ) ← s.sourceRouteConfigQ.deq
  return { s with sourceRoute, sourceRouteConfigQ, noPathReportedMask := 0 }

def applyConfig (s : FourChannelTxScheduler) : Option FourChannelTxScheduler := do
  let (request, configReqQ) ← s.configReqQ.deq
  let configRespQ ← s.configRespQ.enq true
  return { s with
    configReqQ
    configRespQ
    portConfig := request.cfg
    channelEnable := request.channelEnable
    pathManager := s.pathManager.setAdminPortMask request.channelEnable
    maxHighBurst := request.maxHighBurst }

/-- Report that a class has no path, in a given situation. -/
def reportNoPath (s : FourChannelTxScheduler) (c : TxTrafficClass) (may : Bool) :
    Option FourChannelTxScheduler := do
  guard (!s.active && s.noSourceReady && may && s.needsNoPath c)
  let noPathQ ← s.noPathQ.enq ⟨c, s.sourceRoute.profileId c⟩
  return { s with noPathQ, noPathReportedMask := s.noPathReportedMask ||| BitVec.twoPow 4 c.bit }

def reportControlNoPath (s : FourChannelTxScheduler) : Option FourChannelTxScheduler :=
  s.reportNoPath .control true

def reportOrderedNoPath (s : FourChannelTxScheduler) : Option FourChannelTxScheduler :=
  s.reportNoPath .ordered (!s.needsNoPath .control)

def reportRetryNoPath (s : FourChannelTxScheduler) : Option FourChannelTxScheduler :=
  s.reportNoPath .retry (!s.needsNoPath .control && !s.needsNoPath .ordered)

def reportFirstNoPath (s : FourChannelTxScheduler) : Option FourChannelTxScheduler :=
  s.reportNoPath .first
    (!s.needsNoPath .control && !s.needsNoPath .ordered && !s.needsNoPath .retry)

/-- The assertions of the rules that start a packet: it is of its class, well formed, routed as
configured, and its payload begins. -/
def startAsserts (s : FourChannelTxScheduler) (c : TxTrafficClass) (descriptor : PacketDescriptor)
    (firstBeat : PacketPayloadBeat) : Bool :=
  descriptor.trafficClass == c && packetDescriptorIsWellFormed descriptor
    && (descriptor.wireProfile == .mrcIpv4EcmpNoIcrc) == s.sourceRoute.isMrc c
    && (!s.sourceRoute.isMrc c || descriptor.evProfileId == s.sourceRoute.profileId c)
    && (firstBeat.sop && firstBeat.requestId == descriptor.requestId &&
      firstBeat.psn == descriptor.psn)

/-- Start the next packet of a class, with the counter of the burst after it. -/
def startPacket (s : FourChannelTxScheduler) (c : TxTrafficClass) (may : Bool)
    (highBurst : BitVec 4) : Option FourChannelTxScheduler := do
  guard (!s.active && may)
  let (descriptor, descQ) ← (s.descQ c).deq
  let firstBeat ← (s.payloadQ c).first
  guard (s.startAsserts c descriptor firstBeat)
  let path := ((s.resolution c).selected).getD default
  let channel :=
    if s.sourceRoute.isMrc c then path.channel else chooseChannel s.roundRobin s.eligibleMask
  return { s with
    descQ := update s.descQ c descQ
    pathManager :=
      if s.sourceRoute.isMrc c then s.pathManager.commitSelection path else s.pathManager
    active := true
    activeChannel := channel
    activePath := path
    activeSlot := (s.accepted channel).getLsbD 0
    ingressDescriptor := descriptor
    ingressConfig := s.portConfig
    ingressBeatIndex := 0
    ingressBytes := 0
    noPathReportedMask := s.noPathReportedMask &&& ~~~BitVec.twoPow 4 c.bit
    highBurst }

/-- The burst goes on; the counter stops at its largest value. -/
def nextBurst (s : FourChannelTxScheduler) : BitVec 4 :=
  if s.highBurst = BitVec.allOnes 4 then s.highBurst else s.highBurst + 1

def startControl (s : FourChannelTxScheduler) : Option FourChannelTxScheduler :=
  s.startPacket .control (s.ready .control && !s.forceFirst) s.nextBurst

def startOrdered (s : FourChannelTxScheduler) : Option FourChannelTxScheduler :=
  s.startPacket .ordered (!s.ready .control && s.ready .ordered && !s.forceFirst) s.nextBurst

def startRetry (s : FourChannelTxScheduler) : Option FourChannelTxScheduler :=
  s.startPacket .retry (!s.ready .control && !s.ready .ordered && s.ready .retry && !s.forceFirst)
    s.nextBurst

def startFirst (s : FourChannelTxScheduler) : Option FourChannelTxScheduler :=
  s.startPacket .first (s.ready .first
    && (s.forceFirst || (!s.ready .control && !s.ready .ordered && !s.ready .retry))) 0

/-- `selectFirstPayload` and the like: a beat of the packet under way, of whichever class it is. -/
def selectPayload (s : FourChannelTxScheduler) (c : TxTrafficClass) :
    Option FourChannelTxScheduler := do
  guard (s.active && s.ingressDescriptor.trafficClass == c && !s.selectedEopQueued)
  let (beat, payloadQ) ← (s.payloadQ c).deq
  let selectedPayloadQ ← s.selectedPayloadQ.enq beat
  return { s with
    payloadQ := update s.payloadQ c payloadQ
    selectedPayloadQ
    selectedEopQueued := s.selectedEopQueued || beat.eop }

/-- A beat that is not the last one is stored. -/
def storePayload (s : FourChannelTxScheduler) : Option FourChannelTxScheduler := do
  guard s.active
  let (beat, selectedPayloadQ) ← s.selectedPayloadQ.deq
  guard (!beat.eop)
  guard (beat.requestId == s.ingressDescriptor.requestId && beat.psn == s.ingressDescriptor.psn
    && beat.sop == decide (s.ingressBeatIndex = 0) && beat.keep == BitVec.allOnes 128
    && s.ingressBeatIndex != 31)
  return { s with
    selectedPayloadQ
    ingressBeatIndex := s.ingressBeatIndex + 1
    ingressBytes := s.ingressBytes + 128 }

/-- The assertions of `finishPayload`. -/
def finishAsserts (s : FourChannelTxScheduler) (beat : PacketPayloadBeat) : Bool :=
  let finalBytesWide := s.ingressDescriptor.payloadLength - s.ingressBytes
  let finalBytes : BitVec 8 := finalBytesWide.setWidth 8
  s.ingressBytes < s.ingressDescriptor.payloadLength && finalBytesWide ≤ 128
    && (beat.requestId == s.ingressDescriptor.requestId && beat.psn == s.ingressDescriptor.psn)
    && beat.sop == decide (s.ingressBeatIndex = 0) && beat.keep == byteMask128 finalBytes
    && s.ingressBytes + finalBytes.setWidth 13 == s.ingressDescriptor.payloadLength

/-- The last beat is stored, and the packet with it. -/
def finishPayload (s : FourChannelTxScheduler) : Option FourChannelTxScheduler := do
  guard s.active
  let (beat, selectedPayloadQ) ← s.selectedPayloadQ.deq
  guard (beat.eop && s.finishAsserts beat)
  let packet : BufferedPacket :=
    { descriptor := s.ingressDescriptor
      portConfig := s.ingressConfig
      path := s.activePath
      slot := s.activeSlot
      beatCount := s.ingressBeatIndex.setWidth 6 + 1 }
  let packetQ ← (s.packetQ s.activeChannel).enq packet
  let commitQ ← s.commitQ.enq
    { requestId := s.ingressDescriptor.requestId
      qpn := s.ingressDescriptor.qpn
      psn := s.ingressDescriptor.psn
      packetIndex := s.ingressDescriptor.packetIndex
      channel := s.activeChannel
      trafficClass := s.ingressDescriptor.trafficClass }
  return { s with
    selectedPayloadQ
    packetQ := update s.packetQ s.activeChannel packetQ
    accepted := update s.accepted s.activeChannel (s.accepted s.activeChannel + 1)
    roundRobin := s.activeChannel + 1
    commitQ
    active := false
    selectedEopQueued := false }

/-- The encoder of a channel completes a packet. -/
def releaseChannel (s : FourChannelTxScheduler) (channel : BitVec 2) : FourChannelTxScheduler :=
  { s with completed := update s.completed channel (s.completed channel + 1) }

/-- The encoder of a channel takes a packet from its queue. -/
def loadPacket (s : FourChannelTxScheduler) (channel : BitVec 2) :
    Option FourChannelTxScheduler := do
  let (_, packetQ) ← (s.packetQ channel).deq
  return { s with packetQ := update s.packetQ channel packetQ }

end FourChannelTxScheduler

/-- The rules and methods of the scheduler.  The path manager fires on its own, but for the two
methods that rules of the scheduler call. -/
inductive SchedulerLabel where
  | applySourceRoute
  | applyConfig
  | reportControlNoPath
  | reportOrderedNoPath
  | reportRetryNoPath
  | reportFirstNoPath
  | startControl
  | startOrdered
  | startRetry
  | startFirst
  | selectPayload (c : TxTrafficClass)
  | storePayload
  | finishPayload
  | releaseChannel (channel : BitVec 2)
  | loadPacket (channel : BitVec 2)
  | path (l : PathLabel)
  | descriptorIn (c : TxTrafficClass) (descriptor : PacketDescriptor)
  | payloadIn (c : TxTrafficClass) (beat : PacketPayloadBeat)
  | sourceRouteConfigIn (route : MrcSourceProfileConfig)
  | configIn (request : MrcTxCfgReq)
  | configOut
  | commitOut
  | noPathOut
deriving DecidableEq, Repr

/-- The path manager may do this without the scheduler. -/
def PathLabel.isOwn : PathLabel → Bool
  | .commitSelection _ | .setAdminPortMask _ => false
  | _ => true

namespace FourChannelTxScheduler

/-- The state after a rule or method, if it is ready. -/
def step (s : FourChannelTxScheduler) : SchedulerLabel → Option FourChannelTxScheduler
  | .applySourceRoute => s.applySourceRoute
  | .applyConfig => s.applyConfig
  | .reportControlNoPath => s.reportControlNoPath
  | .reportOrderedNoPath => s.reportOrderedNoPath
  | .reportRetryNoPath => s.reportRetryNoPath
  | .reportFirstNoPath => s.reportFirstNoPath
  | .startControl => s.startControl
  | .startOrdered => s.startOrdered
  | .startRetry => s.startRetry
  | .startFirst => s.startFirst
  | .selectPayload c => s.selectPayload c
  | .storePayload => s.storePayload
  | .finishPayload => s.finishPayload
  | .releaseChannel channel => some (s.releaseChannel channel)
  | .loadPacket channel => s.loadPacket channel
  | .path l => do
      guard l.isOwn
      return { s with pathManager := ← s.pathManager.step l }
  | .descriptorIn c descriptor => do
      return { s with descQ := update s.descQ c (← (s.descQ c).enq descriptor) }
  | .payloadIn c beat => do
      return { s with payloadQ := update s.payloadQ c (← (s.payloadQ c).enq beat) }
  | .sourceRouteConfigIn route => do
      return { s with sourceRouteConfigQ := ← s.sourceRouteConfigQ.enq route }
  | .configIn request => do return { s with configReqQ := ← s.configReqQ.enq request }
  | .configOut => do
      let (_, configRespQ) ← s.configRespQ.deq
      return { s with configRespQ }
  | .commitOut => do
      let (_, commitQ) ← s.commitQ.deq
      return { s with commitQ }
  | .noPathOut => do
      let (_, noPathQ) ← s.noPathQ.deq
      return { s with noPathQ }

variable {s s' : FourChannelTxScheduler} {l : SchedulerLabel}

/-! ## Bursts -/

/-- A control, ordered or retry packet is started. -/
def isHighStart : SchedulerLabel → Bool
  | .startControl | .startOrdered | .startRetry => true
  | _ => false

/-- How many packets of the other classes were started while a first-class packet was ready, since
the last first-class packet was started. -/
def burst (s : FourChannelTxScheduler) (l : SchedulerLabel) (n : ℕ) : ℕ :=
  if l = .startFirst then 0 else if isHighStart l && s.ready .first then n + 1 else n

/-- The scheduler with that count. -/
def burstStep : FourChannelTxScheduler × ℕ → SchedulerLabel → Option (FourChannelTxScheduler × ℕ) :=
  watched step burst

/-- Packets are started under the limit `M` only. -/
def FixedBurst (M : BitVec 4) (s : FourChannelTxScheduler) (l : SchedulerLabel) : Prop :=
  isHighStart l = true → s.maxHighBurst = M

instance {M : BitVec 4} : Decidable (FixedBurst M s l) := by unfold FixedBurst; infer_instance

/-- Starting a packet sets the counter. -/
lemma startPacket_eq_some {c : TxTrafficClass} {may : Bool} {b : BitVec 4}
    (h : s.startPacket c may b = some s') : may = true ∧ s'.highBurst = b := by
  obtain ⟨hmay, h⟩ := guard_bind_eq_some.1 h
  obtain ⟨⟨descriptor, q⟩, -, h⟩ := bind_eq_some.1 h
  obtain ⟨beat, -, h⟩ := bind_eq_some.1 h
  obtain ⟨-, h⟩ := guard_bind_eq_some.1 h
  cases h
  rw [Bool.and_eq_true] at hmay
  exact ⟨hmay.2, rfl⟩

/-- A report leaves the counter alone. -/
lemma reportNoPath_eq_some {c : TxTrafficClass} {may : Bool} (h : s.reportNoPath c may = some s') :
    s'.highBurst = s.highBurst := by
  obtain ⟨-, h⟩ := guard_bind_eq_some.1 h
  obtain ⟨q, -, h⟩ := bind_eq_some.1 h
  cases h
  rfl

/-- A packet that goes before a first-class packet makes the burst longer, and is not started when
the first-class packet has to go next. -/
lemma highStart_eq_some (hl : isHighStart l = true) (hs : s.step l = some s') :
    s.forceFirst = false ∧ s'.highBurst = s.nextBurst := by
  cases l with
  | startControl | startOrdered | startRetry =>
    obtain ⟨hmay, hburst⟩ := startPacket_eq_some hs
    simp only [Bool.and_eq_true, Bool.not_eq_true'] at hmay
    exact ⟨hmay.2, hburst⟩
  | _ => cases hl

/-- Nothing else touches the length of the burst. -/
lemma step_highBurst (hl : isHighStart l = false) (hfirst : l ≠ .startFirst)
    (hs : s.step l = some s') : s'.highBurst = s.highBurst := by
  cases l with
  | startControl | startOrdered | startRetry => cases hl
  | startFirst => exact absurd rfl hfirst
  | reportControlNoPath | reportOrderedNoPath | reportRetryNoPath | reportFirstNoPath =>
    exact reportNoPath_eq_some hs
  | applySourceRoute | configOut | commitOut | noPathOut =>
    obtain ⟨⟨a, q⟩, -, hs⟩ := bind_eq_some.1 hs
    cases hs
    rfl
  | loadPacket channel =>
    obtain ⟨⟨a, q⟩, -, hs⟩ := bind_eq_some.1 hs
    cases hs
    rfl
  | applyConfig =>
    obtain ⟨⟨a, q⟩, -, hs⟩ := bind_eq_some.1 hs
    obtain ⟨r, -, hs⟩ := bind_eq_some.1 hs
    cases hs
    rfl
  | selectPayload c =>
    obtain ⟨-, hs⟩ := guard_bind_eq_some.1 hs
    obtain ⟨⟨beat, q⟩, -, hs⟩ := bind_eq_some.1 hs
    obtain ⟨r, -, hs⟩ := bind_eq_some.1 hs
    cases hs
    rfl
  | storePayload =>
    obtain ⟨-, hs⟩ := guard_bind_eq_some.1 hs
    obtain ⟨⟨beat, q⟩, -, hs⟩ := bind_eq_some.1 hs
    obtain ⟨-, hs⟩ := guard_bind_eq_some.1 hs
    obtain ⟨-, hs⟩ := guard_bind_eq_some.1 hs
    cases hs
    rfl
  | finishPayload =>
    obtain ⟨-, hs⟩ := guard_bind_eq_some.1 hs
    obtain ⟨⟨beat, q⟩, -, hs⟩ := bind_eq_some.1 hs
    obtain ⟨-, hs⟩ := guard_bind_eq_some.1 hs
    obtain ⟨r, -, hs⟩ := bind_eq_some.1 hs
    obtain ⟨t, -, hs⟩ := bind_eq_some.1 hs
    cases hs
    rfl
  | releaseChannel channel =>
    cases hs
    rfl
  | path l =>
    obtain ⟨-, hs⟩ := guard_bind_eq_some.1 hs
    obtain ⟨p, -, hs⟩ := bind_eq_some.1 hs
    cases hs
    rfl
  | descriptorIn c d | payloadIn c d | sourceRouteConfigIn d | configIn d =>
    obtain ⟨q, -, hs⟩ := bind_eq_some.1 hs
    cases hs
    rfl

/-- Below the limit the register counts. -/
lemma toNat_nextBurst (s : FourChannelTxScheduler) :
    s.highBurst.toNat ≤ s.nextBurst.toNat ∧
      (s.highBurst.toNat < 15 → s.nextBurst.toNat = s.highBurst.toNat + 1) := by
  have hlt := s.highBurst.isLt
  have hones : (BitVec.allOnes 4).toNat = 15 := rfl
  have hone : (1 : BitVec 4).toNat = 1 := rfl
  unfold nextBurst
  split
  · rename_i hfull
    rw [hfull, hones]
    omega
  · rename_i hfull
    have hne : s.highBurst.toNat ≠ 15 := fun h => hfull (BitVec.eq_of_toNat_eq (h.trans hones.symm))
    rw [BitVec.toNat_add, hone]
    omega

/-- **First-class packets are not starved.**  In every run in which packets are started under one
limit `M`, whatever packets arrive and whenever channels and paths are free, the number of control,
ordered and retry packets that were started while a first-class packet was ready, since the last
first-class packet was started or since reset, is at most `M`. -/
theorem first_class_not_starved {M : BitVec 4} {labels : List SchedulerLabel} {n : ℕ}
    (hfire : fire burstStep (initial, 0) labels = some (s, n))
    (hfixed : Meets burstStep (fun p l => FixedBurst M p.1 l) (initial, 0) labels) :
    n ≤ M.toNat := by
  -- the register is at least the count: it also counts starts with no first-class packet ready
  have hinv : n ≤ s.highBurst.toNat ∧ n ≤ M.toNat := by
    refine fire_rule_meets (P := fun p => p.2 ≤ p.1.highBurst.toNat ∧ p.2 ≤ M.toNat) ?_
      ⟨Nat.zero_le _, Nat.zero_le _⟩ hfixed hfire
    rintro ⟨s, n⟩ l ⟨s', n'⟩ ⟨hcount, hlimit⟩ hfixed hwatched
    obtain ⟨hs, hn'⟩ := watched_eq_some.1 hwatched
    dsimp only at hs hn' hcount hlimit ⊢
    rw [hn']
    by_cases hfirst : l = .startFirst
    · simp [burst, hfirst]
    rw [burst, if_neg hfirst]
    cases hhigh : isHighStart l with
    | false =>
      rw [step_highBurst hhigh hfirst hs]
      simpa [hhigh] using ⟨hcount, hlimit⟩
    | true =>
      obtain ⟨hforce, hburst⟩ := highStart_eq_some hhigh hs
      obtain ⟨hgrows, hnext⟩ := s.toNat_nextBurst
      have hM := M.isLt
      rw [hburst]
      cases hready : s.ready .first with
      | false =>
        simp only [Bool.and_false, Bool.false_eq_true, if_false]
        omega
      | true =>
        rw [forceFirst, hready, hfixed hhigh, Bool.true_and, decide_eq_false_iff_not,
          BitVec.le_def] at hforce
        simp only [Bool.and_self, if_true]
        omega
  exact hinv.2

/-- A packet of one beat of a class. -/
def samplePacket (c : TxTrafficClass) : PacketDescriptor :=
  { (default : PacketDescriptor) with
    packetCount := 1, opcode := .writeOnly, payloadLength := 64, messageLength := 64
    isFirst := true, isLast := true, trafficClass := c }

def sampleBeat : PacketPayloadBeat := ⟨0, 0, byteMask128 64, true, true⟩

/-- A packet arrives. -/
def arrival (c : TxTrafficClass) : List SchedulerLabel :=
  [.descriptorIn c (samplePacket c), .payloadIn c sampleBeat]

/-- The payload of the packet that was started is stored, and its encoder takes it and completes
it. -/
def sending (c : TxTrafficClass) (channel : BitVec 2) : List SchedulerLabel :=
  [.selectPayload c, .finishPayload, .loadPacket channel, .releaseChannel channel, .commitOut]

/-- The limit is set to two; a first-class packet waits from the beginning while control packets and
a retry come in. -/
def burstRun : List SchedulerLabel :=
  [.configIn ⟨default, 0xF, 2⟩, .applyConfig] ++ arrival .first ++ arrival .control ++
  [.startControl] ++ sending .control 0 ++ arrival .retry ++
  [.startRetry] ++ sending .retry 1 ++ arrival .control

/-- Two packets overtake a first-class one, not three. -/
theorem first_class_not_starved_two :
    ∃ s n, fire burstStep (initial, 0) burstRun = some (s, n) ∧ n = 2 ∧ n ≤ (2 : BitVec 4).toNat ∧
      (s.step .startControl).isSome = false ∧ (s.step .startFirst).isSome = true := by
  have hview : (fire burstStep (initial, 0) burstRun).map
      (fun p => (p.2, (p.1.step .startControl).isSome, (p.1.step .startFirst).isSome))
        = some (2, false, true) := by decide +kernel
  obtain ⟨⟨s, n⟩, hfire, hs⟩ := Option.map_eq_some_iff.1 hview
  simp only [Prod.mk.injEq] at hs
  obtain ⟨hn, hcontrol, hfirst⟩ := hs
  exact ⟨s, n, hfire, hn, first_class_not_starved hfire (by decide +kernel), hcontrol, hfirst⟩

end FourChannelTxScheduler

end OpenRdma
