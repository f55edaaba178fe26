import OpenRdma.Tx.PacketAssembly

/-!
# The path manager of the transmit path

A packet of the MRC wire profile goes out on a path: an entropy value and a channel.  The manager
keeps four profiles of eight paths each and learns about them from feedback.  A path that met
congestion is skipped for a while, one that lost packets is assumed bad and probed until a probe
comes back, and one that is not enabled is denied.  A scan looks at one entry at a time: a skip that
is over ends, and a bad path whose port can be reached is probed.

Skips and probes are timed with a free-running counter of sixteen bits, and a deadline is over when
the counter is at most half a turn past it.
-/

namespace OpenRdma

open Function (update)

abbrev TxEvProfileId := BitVec 2

/-- The state of a path. -/
inductive MrcEvState where
  | good
  | skip
  | denied
  | assumedBad
deriving DecidableEq, Repr

inductive MrcPathFeedbackKind where
  | ecn
  | skipOnce
  | trimmed
  | alwaysSkip
  | timeout
  | probeGood
  | probeSkip
  | clean
deriving DecidableEq, Repr

/-- A path is configured. -/
structure MrcEvEntryConfig where
  profileId : TxEvProfileId
  entryIndex : BitVec 3
  valid : Bool
  adminEnable : Bool
  entropy : BitVec 32
  channel : BitVec 2
deriving DecidableEq, Repr

/-- How long a path is skipped, and how often probed. -/
structure MrcEvPolicyConfig where
  skipHoldCycles : BitVec 16
  probeIntervalCycles : BitVec 16
deriving DecidableEq, Repr

/-- Which ports are reachable, here and at the peer. -/
structure MrcPortStatusUpdate where
  localReachable : BitVec 4
  peerReachable : BitVec 4
deriving DecidableEq, Repr

/-- What is heard of a path. -/
structure MrcPathFeedback where
  profileId : TxEvProfileId
  entryIndex : BitVec 3
  generation : BitVec 8
  kind : MrcPathFeedbackKind
  probeId : BitVec 16
deriving DecidableEq, Repr

/-- A path that was chosen. -/
structure MrcResolvedPath where
  profileId : TxEvProfileId
  entryIndex : BitVec 3
  generation : BitVec 8
  entropy : BitVec 32
  channel : BitVec 2
deriving DecidableEq, Repr, Inhabited

/-- A path is to be probed. -/
structure MrcProbeRequest where
  profileId : TxEvProfileId
  entryIndex : BitVec 3
  generation : BitVec 8
  entropy : BitVec 32
  channel : BitVec 2
  probeId : BitVec 16
deriving DecidableEq, Repr

/-- A path. -/
structure MrcEvEntry where
  valid : Bool
  adminEnable : Bool
  entropy : BitVec 32
  channel : BitVec 2
  generation : BitVec 8
  state : MrcEvState
deriving DecidableEq, Repr

/-- The choice of a path. -/
structure MrcPathResolution where
  selected : Option MrcResolvedPath
  usable : Bool
deriving DecidableEq, Repr

/-- Which of the 32 entries is meant. -/
def MrcEvEntryConfig.flatIndex (cfg : MrcEvEntryConfig) : BitVec 5 :=
  cfg.profileId ++ cfg.entryIndex

def MrcPathFeedback.flatIndex (feedback : MrcPathFeedback) : BitVec 5 :=
  feedback.profileId ++ feedback.entryIndex

def MrcResolvedPath.flatIndex (path : MrcResolvedPath) : BitVec 5 :=
  path.profileId ++ path.entryIndex

/-- The assertions of `applyPolicy`: an interval is at least one and at most half a turn. -/
def MrcEvPolicyConfig.inRange (cfg : MrcEvPolicyConfig) : Bool :=
  cfg.skipHoldCycles != 0 && !cfg.skipHoldCycles.msb && cfg.probeIntervalCycles != 0
    && !cfg.probeIntervalCycles.msb

/-- The counter is at most half a turn past the deadline. -/
def timeReached (now deadline : BitVec 16) : Bool := !(now - deadline).msb

/-- The paths of the profiles. -/
structure EvPathManager where
  entries : BitVec 5 → MrcEvEntry
  stateDeadline : BitVec 5 → BitVec 16
  nextProbeId : BitVec 5 → BitVec 16
  probeOutstanding : BitVec 5 → Bool
  profileCursor : TxEvProfileId → BitVec 3
  entryConfigQ : Fifo MrcEvEntryConfig 2
  policyConfigQ : Fifo MrcEvPolicyConfig 2
  portStatusQ : Fifo MrcPortStatusUpdate 2
  feedbackQ : Fifo MrcPathFeedback 4
  probeQ : Fifo MrcProbeRequest 4
  adminPortMask : BitVec 4
  localReachable : BitVec 4
  peerReachable : BitVec 4
  skipHoldCycles : BitVec 16
  probeIntervalCycles : BitVec 16
  cycleCounter : BitVec 16
  scanCursor : BitVec 5

namespace EvPathManager

def initial : EvPathManager where
  entries := fun _ => ⟨false, false, 0, 0, 0, .good⟩
  stateDeadline := fun _ => 0
  nextProbeId := fun _ => 0
  probeOutstanding := fun _ => false
  profileCursor := fun _ => 0
  entryConfigQ := .empty
  policyConfigQ := .empty
  portStatusQ := .empty
  feedbackQ := .empty
  probeQ := .empty
  adminPortMask := 0xF
  localReachable := 0xF
  peerReachable := 0xF
  skipHoldCycles := 1024
  probeIntervalCycles := 4096
  cycleCounter := 0
  scanCursor := 0

/-- The ports a path may use. -/
def pathPortMask (m : EvPathManager) : BitVec 4 :=
  m.adminPortMask &&& m.localReachable &&& m.peerReachable

/-! ## One entry -/

def setState (m : EvPathManager) (i : BitVec 5) (state : MrcEvState) : EvPathManager :=
  { m with entries := update m.entries i { m.entries i with state } }

def setDeadline (m : EvPathManager) (i : BitVec 5) (deadline : BitVec 16) : EvPathManager :=
  { m with stateDeadline := update m.stateDeadline i deadline }

def setOutstanding (m : EvPathManager) (i : BitVec 5) (outstanding : Bool) : EvPathManager :=
  { m with probeOutstanding := update m.probeOutstanding i outstanding }

/-- The feedback is about the path the entry holds now, and the path is in use. -/
def current (m : EvPathManager) (feedback : MrcPathFeedback) : Bool :=
  (m.entries feedback.flatIndex).valid
    && (m.entries feedback.flatIndex).generation == feedback.generation
    && (m.entries feedback.flatIndex).adminEnable
    && (m.entries feedback.flatIndex).state != .denied

/-- The feedback answers the last probe of its entry, which is still outstanding. -/
def matchingProbe (m : EvPathManager) (feedback : MrcPathFeedback) : Bool :=
  m.probeOutstanding feedback.flatIndex && m.nextProbeId feedback.flatIndex - 1 == feedback.probeId

/-- What current feedback does to its entry. -/
def learn (m : EvPathManager) (feedback : MrcPathFeedback) : EvPathManager :=
  let i := feedback.flatIndex
  match feedback.kind with
  | .ecn | .skipOnce | .trimmed =>
    (m.setState i .skip).setDeadline i (m.cycleCounter + m.skipHoldCycles)
  | .alwaysSkip | .timeout =>
    ((m.setState i .assumedBad).setDeadline i m.cycleCounter).setOutstanding i false
  | .probeGood =>
    if m.matchingProbe feedback then (m.setState i .good).setOutstanding i false else m
  | .probeSkip =>
    if m.matchingProbe feedback then
      ((m.setState i .skip).setDeadline i (m.cycleCounter + m.skipHoldCycles)).setOutstanding
        i false
    else m
  | .clean => m

/-- The probe of an entry. -/
def probe (m : EvPathManager) (i : BitVec 5) : MrcProbeRequest where
  profileId := (i >>> 3).setWidth 2
  entryIndex := i.setWidth 3
  generation := (m.entries i).generation
  entropy := (m.entries i).entropy
  channel := (m.entries i).channel
  probeId := m.nextProbeId i

/-- The entry is enabled and in a given state. -/
def isIn (m : EvPathManager) (i : BitVec 5) (state : MrcEvState) : Bool :=
  (m.entries i).valid && (m.entries i).adminEnable && (m.entries i).state == state

/-! ## Rules -/

def tick (m : EvPathManager) : EvPathManager := { m with cycleCounter := m.cycleCounter + 1 }

def applyPolicy (m : EvPathManager) : Option EvPathManager := do
  let (cfg, policyConfigQ) ← m.policyConfigQ.deq
  guard cfg.inRange
  return { m with
    policyConfigQ
    skipHoldCycles := cfg.skipHoldCycles
    probeIntervalCycles := cfg.probeIntervalCycles }

def applyPortStatus (m : EvPathManager) : Option EvPathManager := do
  let (status, portStatusQ) ← m.portStatusQ.deq
  return { m with
    portStatusQ
    localReachable := status.localReachable
    peerReachable := status.peerReachable }

def applyEntryConfig (m : EvPathManager) : Option EvPathManager := do
  let (cfg, entryConfigQ) ← m.entryConfigQ.deq
  let i := cfg.flatIndex
  let entry : MrcEvEntry :=
    { valid := cfg.valid
      adminEnable := cfg.adminEnable
      entropy := cfg.entropy
      channel := cfg.channel
      generation := (m.entries i).generation + 1
      state := if cfg.valid && cfg.adminEnable then .good else .denied }
  return ({ m with entryConfigQ, entries := update m.entries i entry }.setDeadline i
    m.cycleCounter).setOutstanding i false

def applyFeedback (m : EvPathManager) : Option EvPathManager := do
  let (feedback, feedbackQ) ← m.feedbackQ.deq
  let m := { m with feedbackQ }
  return if m.current feedback then m.learn feedback else m

/-- Look at the entry under the cursor. -/
def scanEntry (m : EvPathManager) : Option EvPathManager := do
  let i := m.scanCursor
  let reached := timeReached m.cycleCounter (m.stateDeadline i)
  let m := { m with scanCursor := i + 1 }
  if m.isIn i .skip && reached then return m.setState i .good
  else if m.isIn i .assumedBad && m.probeQ.notFull && reached
      && m.pathPortMask.getLsbD (m.entries i).channel.toNat then
    let probeQ ← m.probeQ.enq (m.probe i)
    return ({ m with
      probeQ
      nextProbeId := update m.nextProbeId i (m.nextProbeId i + 1) }.setDeadline i
        (m.cycleCounter + m.probeIntervalCycles)).setOutstanding i true
  else return m

/-! ## Methods -/

/-- A path that may be used, with the ports given. -/
def usableOn (m : EvPathManager) (ports : BitVec 4) (i : BitVec 5) : Bool :=
  m.isIn i .good && (ports &&& m.pathPortMask).getLsbD (m.entries i).channel.toNat

/-- The path for the next packet of a profile: the first good one from the cursor on whose channel
is available; and whether any is good on an allowed channel. -/
def resolve (m : EvPathManager) (profileId : TxEvProfileId)
    (availableChannels allowedChannels : BitVec 4) : MrcPathResolution :=
  let indices := (List.range 8).map fun offset => m.profileCursor profileId + BitVec.ofNat 3 offset
  let found := indices.find? fun index => m.usableOn availableChannels (profileId ++ index)
  { selected := found.map fun index =>
      { profileId
        entryIndex := index
        generation := (m.entries (profileId ++ index)).generation
        entropy := (m.entries (profileId ++ index)).entropy
        channel := (m.entries (profileId ++ index)).channel }
    usable := indices.any fun index => m.usableOn allowedChannels (profileId ++ index) }

def commitSelection (m : EvPathManager) (path : MrcResolvedPath) : EvPathManager :=
  { m with profileCursor := update m.profileCursor path.profileId (path.entryIndex + 1) }

def setAdminPortMask (m : EvPathManager) (mask : BitVec 4) : EvPathManager :=
  { m with adminPortMask := mask }

def updatePending (m : EvPathManager) : Bool :=
  m.entryConfigQ.notEmpty || m.policyConfigQ.notEmpty || m.portStatusQ.notEmpty ||
    m.feedbackQ.notEmpty

end EvPathManager

/-- The rules of the manager, and what is done to it from outside. -/
inductive PathLabel where
  | tick
  | applyPolicy
  | applyPortStatus
  | applyEntryConfig
  | applyFeedback
  | scanEntry
  | entryConfigIn (cfg : MrcEvEntryConfig)
  | policyConfigIn (cfg : MrcEvPolicyConfig)
  | portStatusIn (status : MrcPortStatusUpdate)
  | feedbackIn (feedback : MrcPathFeedback)
  | probeOut
  | commitSelection (path : MrcResolvedPath)
  | setAdminPortMask (mask : BitVec 4)
deriving DecidableEq, Repr

namespace EvPathManager

def step (m : EvPathManager) : PathLabel → Option EvPathManager
  | .tick => some m.tick
  | .applyPolicy => m.applyPolicy
  | .applyPortStatus => m.applyPortStatus
  | .applyEntryConfig => m.applyEntryConfig
  | .applyFeedback => m.applyFeedback
  | .scanEntry => m.scanEntry
  | .entryConfigIn cfg => do return { m with entryConfigQ := ← m.entryConfigQ.enq cfg }
  | .policyConfigIn cfg => do return { m with policyConfigQ := ← m.policyConfigQ.enq cfg }
  | .portStatusIn status => do return { m with portStatusQ := ← m.portStatusQ.enq status }
  | .feedbackIn feedback => do return { m with feedbackQ := ← m.feedbackQ.enq feedback }
  | .probeOut => do
      let (_, probeQ) ← m.probeQ.deq
      return { m with probeQ }
  | .commitSelection path => some (m.commitSelection path)
  | .setAdminPortMask mask => some (m.setAdminPortMask mask)

variable {m m' : EvPathManager}

/-! ## What the rules do -/

lemma applyEntryConfig_eq_some (h : m.applyEntryConfig = some m') :
    ∃ cfg q entry, m.entryConfigQ.deq = some (cfg, q) ∧
      m' = ({ m with
        entryConfigQ := q, entries := update m.entries cfg.flatIndex entry }.setDeadline
        cfg.flatIndex m.cycleCounter).setOutstanding cfg.flatIndex false := by
  obtain ⟨⟨cfg, q⟩, hdeq, h⟩ := bind_eq_some.1 h
  exact ⟨cfg, q, _, hdeq, (Option.some.inj h).symm⟩

lemma applyFeedback_eq_some (h : m.applyFeedback = some m') :
    ∃ feedback q, m.feedbackQ.deq = some (feedback, q) ∧
      m' = if m.current feedback = true then { m with feedbackQ := q }.learn feedback
        else { m with feedbackQ := q } := by
  obtain ⟨⟨feedback, q⟩, hdeq, h⟩ := bind_eq_some.1 h
  exact ⟨feedback, q, hdeq, (Option.some.inj h).symm⟩

/-- A skip ends, or a bad path is probed, or nothing happens to the entry. -/
lemma scanEntry_eq_some (h : m.scanEntry = some m') :
    (m.isIn m.scanCursor .skip = true ∧
      timeReached m.cycleCounter (m.stateDeadline m.scanCursor) = true ∧
      m' = { m with scanCursor := m.scanCursor + 1 }.setState m.scanCursor .good) ∨
    (m.isIn m.scanCursor .assumedBad = true ∧
      timeReached m.cycleCounter (m.stateDeadline m.scanCursor) = true ∧
      ∃ q, m.probeQ.enq (m.probe m.scanCursor) = some q ∧
        m' = ({ m with
          scanCursor := m.scanCursor + 1
          probeQ := q
          nextProbeId := update m.nextProbeId m.scanCursor
            (m.nextProbeId m.scanCursor + 1) }.setDeadline
            m.scanCursor (m.cycleCounter + m.probeIntervalCycles)).setOutstanding m.scanCursor
              true) ∨
    m' = { m with scanCursor := m.scanCursor + 1 } := by
  unfold scanEntry at h
  dsimp only at h
  split at h
  · rename_i hskip
    rw [Bool.and_eq_true] at hskip
    exact .inl ⟨hskip.1, hskip.2, (Option.some.inj h).symm⟩
  split at h
  · rename_i hbad
    simp only [Bool.and_eq_true] at hbad
    obtain ⟨q, hq, h⟩ := bind_eq_some.1 h
    exact .inr (.inl ⟨hbad.1.1.1, hbad.1.2, q, hq, (Option.some.inj h).symm⟩)
  · exact .inr (.inr (Option.some.inj h).symm)

/-- A path that is selected is good. -/
lemma resolve_selected {profileId : TxEvProfileId} {available allowed : BitVec 4}
    {path : MrcResolvedPath} (h : (m.resolve profileId available allowed).selected = some path) :
    (m.entries path.flatIndex).state = .good := by
  obtain ⟨index, hfind, rfl⟩ := Option.map_eq_some_iff.1 h
  have hgood := List.find?_some hfind
  simp only [usableOn, isIn, Bool.and_eq_true, beq_iff_eq] at hgood
  exact hgood.1.2

end EvPathManager

end OpenRdma
