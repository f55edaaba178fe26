import OpenRdma.Rx.DmaLane

/-!
# The ordered queue of the receive path

Packets are retired in the order of their global sequence numbers, and a retired packet moves the
DMA watermark of its queue pair (`dmaAck`) to where the receive window was when the packet was
admitted.  A flag is a word of memory that is written once the watermark has reached its barrier.
Flags are checked when they come in and wait in a queue of their queue pair; one flag is selected
and written at a time.

A flag is taken from its queue in the cycle in which its request is accepted: the method announces
the queue pair on a wire, and a rule of that cycle takes the flag.  Here the two are one firing.
-/

namespace OpenRdma

open Function (update update_self update_of_ne)

/-- A flag as it comes in. -/
structure RxOrderedFlagIngress where
  qpn : TxQpn
  barrierPsn : TxPsn
  flagAddr : BitVec 64
  rkey : BitVec 32
  value : BitVec 32
deriving DecidableEq, Repr

/-- A flag that was admitted. -/
structure RxOrderedEntry where
  orderedSeq : RxOrderedSeq
  qpn : TxQpn
  barrierPsn : TxPsn
  dmaAddr : BitVec 64
  value : BitVec 32
deriving DecidableEq, Repr, Inhabited

/-- The write of a flag. -/
structure RxFlagDmaRequest where
  orderedSeq : RxOrderedSeq
  epoch : RxEpoch
  qpn : TxQpn
  barrierPsn : TxPsn
  addr : BitVec 64
  value : BitVec 32
deriving DecidableEq, Repr

/-- What the write of a flag has come to. -/
structure RxFlagDmaResponse where
  orderedSeq : RxOrderedSeq
  epoch : RxEpoch
  success : Bool
deriving DecidableEq, Repr

/-- How many flags may be sent. -/
structure RxOrderedCredit where
  qpn : TxQpn
  orderedGrantLimit : BitVec 64
deriving DecidableEq, Repr

/-- The completion of a message. -/
structure RxCompletion where
  qpn : TxQpn
  lastPsn : TxPsn
  bytes : TxLength
  success : Bool
deriving DecidableEq, Repr

/-- The flag may be written: the key is the region's, and the four bytes are inside the region. -/
def rxOrderedFlagAccess (cfg : RxQpConfig) (flag : RxOrderedFlagIngress) : Bool :=
  let offset : BitVec 65 := flag.flagAddr.setWidth 65 - cfg.virtualBase.setWidth 65
  let endOffset := offset + 4
  let physical : BitVec 66 := cfg.physicalBase.setWidth 66 + offset.setWidth 66
  cfg.remoteWrite && cfg.rkey == flag.rkey
    && flag.flagAddr.setWidth 2 == (0 : BitVec 2) && cfg.virtualBase ≤ flag.flagAddr
    && endOffset ≤ cfg.regionBytes.setWidth 65
    && physical + 4 ≤ 0x10000000000000000

def rxOrderedFlagPhysical (cfg : RxQpConfig) (flag : RxOrderedFlagIngress) : BitVec 64 :=
  cfg.physicalBase + (flag.flagAddr - cfg.virtualBase)

/-- The queue of flags that wait for data. -/
structure RxOrderedQueueManager where
  running : Bool
  failed : Bool
  epochConfigured : Bool
  currentEpoch : RxEpoch
  cfgs : RxQpIndex → RxQpConfig
  dmaAck : RxQpIndex → TxPsn
  grantLimit : RxQpIndex → BitVec 64
  lastBarrierValid : RxQpIndex → Bool
  lastBarrier : RxQpIndex → TxPsn
  orderedQ : RxQpIndex → Fifo RxOrderedEntry 4
  retireQ : Fifo RxDmaRetire 8
  ingressQ : Fifo RxOrderedFlagIngress 8
  flagResponseQ : Fifo RxFlagDmaResponse 4
  creditQ : Fifo RxOrderedCredit 8
  completionQ : Fifo RxCompletion 8
  errorQ : Fifo RxError 16
  expectedRetire : RxGlobalSeq
  nextOrderedSeq : RxOrderedSeq
  selectionCursor : RxQpIndex
  selectedValid : Bool
  selectedQp : RxQpIndex
  selectedEntry : RxOrderedEntry
  flagOutstanding : Bool
  expectedFlagResponse : RxOrderedSeq

/-- The rules and methods of the manager. -/
inductive OrderedLabel where
  | configureEpoch (value : RxEpoch)
  | configure (index : RxQpIndex) (cfg : RxQpConfig)
  | start
  | retireIn (value : RxDmaRetire)
  | processRetire
  | orderedFlagIn (flag : RxOrderedFlagIngress)
  | rejectInvalidFlag
  | admitOrderedFlag (i : RxQpIndex)
  | rejectOrderedOverflow (i : RxQpIndex)
  | selectEligibleFlag (i : RxQpIndex)
  | skipEmptyQp (i : RxQpIndex)
  | skipBlockedQp (i : RxQpIndex)
  | flagRequestOut
  | flagResponseIn (response : RxFlagDmaResponse)
  | consumeFlagResponse
  | rejectStaleFlagResponse
  | creditOut
  | completionOut
  | errorOut
deriving DecidableEq, Repr

/-- The flag that a firing brings in. -/
def OrderedLabel.flags : OrderedLabel → List RxOrderedFlagIngress
  | .orderedFlagIn flag => [flag]
  | _ => []

namespace RxOrderedQueueManager

def initial : RxOrderedQueueManager where
  running := false
  failed := false
  epochConfigured := false
  currentEpoch := 0
  cfgs := fun _ => default
  dmaAck := fun _ => 0
  grantLimit := fun _ => 4
  lastBarrierValid := fun _ => false
  lastBarrier := fun _ => 0
  orderedQ := fun _ => .empty
  retireQ := .empty
  ingressQ := .empty
  flagResponseQ := .empty
  creditQ := .empty
  completionQ := .empty
  errorQ := .empty
  expectedRetire := 0
  nextOrderedSeq := 0
  selectionCursor := 0
  selectedValid := false
  selectedQp := 0
  selectedEntry := default
  flagOutstanding := false
  expectedFlagResponse := 0

variable (s : RxOrderedQueueManager)

/-! ## Retired packets -/

/-- A completion is reported for the last packet of a message. -/
def reportComplete (retired : RxDmaRetire) : Option (Fifo RxCompletion 8) :=
  if retired.messageComplete then
    s.completionQ.enq ⟨retired.qpn, retired.messageLastPsn, retired.messageBytes, true⟩
  else some s.completionQ

def processRetire : Option RxOrderedQueueManager := do
  guard (s.running && !s.failed)
  let (retired, retireQ) ← s.retireQ.deq
  if !retired.success || retired.globalSeq ≠ s.expectedRetire then
    return { s with
      retireQ
      errorQ := ← s.errorQ.enq ⟨retired.qpn, retired.psn, .orderedBadRetire⟩
      failed := true }
  else
    let completionQ ← s.reportComplete retired
    return { s with
      retireQ
      expectedRetire := s.expectedRetire + 1
      dmaAck := if retired.ackValid then
          update s.dmaAck retired.qp retired.ackPsnAfterMerge
        else s.dmaAck
      completionQ }

/-! ## Flags that come in -/

/-- The queue pair has the number of the flag. -/
def flagMatch (flag : RxOrderedFlagIngress) (i : RxQpIndex) : Bool :=
  (s.cfgs i).valid && (s.cfgs i).qpn == flag.qpn

def flagMatchCount (flag : RxOrderedFlagIngress) : ℕ := (countMatches (s.flagMatch flag)).1

/-- The barrier is not before the one of the flag before. -/
def flagOrder (flag : RxOrderedFlagIngress) (i : RxQpIndex) : Bool :=
  !s.lastBarrierValid i || rxPsnAtOrAfter flag.barrierPsn (s.lastBarrier i)

def flagHasAccess (flag : RxOrderedFlagIngress) : Bool :=
  decide (∃ i, s.flagMatch flag i && s.flagOrder flag i && rxOrderedFlagAccess (s.cfgs i) flag)

def rejectInvalidFlag : Option RxOrderedQueueManager := do
  guard (s.running && !s.failed)
  let (flag, ingressQ) ← s.ingressQ.deq
  guard (s.flagMatchCount flag ≠ 1 ∨ s.flagHasAccess flag = false)
  return { s with
    ingressQ
    errorQ := ← s.errorQ.enq ⟨flag.qpn, flag.barrierPsn, .orderedBadFlag⟩
    failed := true }

/-- The flag is one of the queue pair, in order, and may be written. -/
def flagAdmissible (flag : RxOrderedFlagIngress) (i : RxQpIndex) : Bool :=
  s.flagMatchCount flag == 1 && s.flagMatch flag i && s.flagOrder flag i
    && rxOrderedFlagAccess (s.cfgs i) flag

/-- A flag as it waits in the queue of its queue pair. -/
def entry (flag : RxOrderedFlagIngress) (i : RxQpIndex) : RxOrderedEntry where
  orderedSeq := s.nextOrderedSeq
  qpn := flag.qpn
  barrierPsn := flag.barrierPsn
  dmaAddr := rxOrderedFlagPhysical (s.cfgs i) flag
  value := flag.value

def admitOrderedFlag (i : RxQpIndex) : Option RxOrderedQueueManager := do
  guard (s.running && !s.failed)
  let (flag, ingressQ) ← s.ingressQ.deq
  guard (s.flagAdmissible flag i)
  return { s with
    ingressQ
    orderedQ := update s.orderedQ i (← (s.orderedQ i).enq (s.entry flag i))
    lastBarrier := update s.lastBarrier i flag.barrierPsn
    lastBarrierValid := update s.lastBarrierValid i true
    nextOrderedSeq := s.nextOrderedSeq + 1 }

def rejectOrderedOverflow (i : RxQpIndex) : Option RxOrderedQueueManager := do
  guard (s.running && !s.failed)
  let (flag, ingressQ) ← s.ingressQ.deq
  guard (s.flagAdmissible flag i && !(s.orderedQ i).notFull)
  return { s with
    ingressQ
    errorQ := ← s.errorQ.enq ⟨flag.qpn, flag.barrierPsn, .orderedQueueFull⟩
    failed := true }

/-! ## Flags that go out -/

/-- The next flag may be looked for, at this queue pair. -/
def selects (i : RxQpIndex) : Bool :=
  s.running && !s.failed && !s.selectedValid && !s.flagOutstanding && s.selectionCursor == i

def selectEligibleFlag (i : RxQpIndex) : Option RxOrderedQueueManager := do
  guard (s.selects i)
  let entry ← (s.orderedQ i).first
  guard (rxPsnAtOrAfter (s.dmaAck i) entry.barrierPsn)
  return { s with
    selectedEntry := entry, selectedQp := i, selectedValid := true, selectionCursor := i + 1 }

def skipEmptyQp (i : RxQpIndex) : Option RxOrderedQueueManager := do
  guard (s.selects i && !(s.orderedQ i).notEmpty)
  return { s with selectionCursor := i + 1 }

def skipBlockedQp (i : RxQpIndex) : Option RxOrderedQueueManager := do
  guard (s.selects i)
  let entry ← (s.orderedQ i).first
  guard (!rxPsnAtOrAfter (s.dmaAck i) entry.barrierPsn)
  return { s with selectionCursor := i + 1 }

/-- The request of the selected flag. -/
def flagRequest : RxFlagDmaRequest where
  orderedSeq := s.selectedEntry.orderedSeq
  epoch := s.currentEpoch
  qpn := s.selectedEntry.qpn
  barrierPsn := s.selectedEntry.barrierPsn
  addr := s.selectedEntry.dmaAddr
  value := s.selectedEntry.value

/-- A queue without its first element, if it has one. -/
def dropFirst {α : Type} {n : ℕ} (q : Fifo α n) : Fifo α n :=
  match q.deq with
  | some (_, rest) => rest
  | none => q

def flagRequestOut : Option (RxFlagDmaRequest × RxOrderedQueueManager) := do
  guard (s.running && !s.failed && s.selectedValid)
  let nextGrant := s.grantLimit s.selectedQp + 1
  return (s.flagRequest, { s with
    creditQ := ← s.creditQ.enq ⟨s.selectedEntry.qpn, nextGrant⟩
    orderedQ := update s.orderedQ s.selectedQp (dropFirst (s.orderedQ s.selectedQp))
    grantLimit := update s.grantLimit s.selectedQp nextGrant
    expectedFlagResponse := s.selectedEntry.orderedSeq
    flagOutstanding := true
    selectedValid := false })

def consumeFlagResponse : Option RxOrderedQueueManager := do
  guard (s.running && !s.failed && s.flagOutstanding)
  let (response, flagResponseQ) ← s.flagResponseQ.deq
  if response.orderedSeq ≠ s.expectedFlagResponse ∨ response.epoch ≠ s.currentEpoch
      ∨ response.success = false then
    let code := if response.success then .flagDmaBadResponse else .flagDmaFailed
    return { s with
      flagResponseQ
      errorQ := ← s.errorQ.enq ⟨s.selectedEntry.qpn, s.selectedEntry.barrierPsn, code⟩
      failed := true }
  else
    return { s with flagResponseQ, flagOutstanding := false }

def rejectStaleFlagResponse : Option RxOrderedQueueManager := do
  guard (s.running && !s.failed && !s.flagOutstanding)
  let (_, flagResponseQ) ← s.flagResponseQ.deq
  return { s with
    flagResponseQ
    errorQ := ← s.errorQ.enq ⟨0, 0, .flagDmaBadResponse⟩
    failed := true }

/-! ## Methods -/

def configureEpoch (value : RxEpoch) : Option RxOrderedQueueManager := do
  guard (!s.running)
  return { s with currentEpoch := value, epochConfigured := true }

def configure (index : RxQpIndex) (cfg : RxQpConfig) : Option RxOrderedQueueManager := do
  guard (!s.running)
  return { s with
    cfgs := update s.cfgs index cfg
    dmaAck := update s.dmaAck index (cfg.initialPsn - 1)
    grantLimit := update s.grantLimit index 4
    lastBarrierValid := update s.lastBarrierValid index false
    lastBarrier := update s.lastBarrier index 0 }

def start : Option RxOrderedQueueManager := do
  guard (!s.running && s.epochConfigured)
  return { s with running := true }

def retireIn (value : RxDmaRetire) : Option RxOrderedQueueManager := do
  guard (s.running && !s.failed)
  return { s with retireQ := ← s.retireQ.enq value }

def orderedFlagIn (flag : RxOrderedFlagIngress) : Option RxOrderedQueueManager := do
  guard (s.running && !s.failed)
  return { s with ingressQ := ← s.ingressQ.enq flag }

def flagResponseIn (response : RxFlagDmaResponse) : Option RxOrderedQueueManager :=
  return { s with flagResponseQ := ← s.flagResponseQ.enq response }

def creditOut : Option (RxOrderedCredit × RxOrderedQueueManager) := do
  let (value, creditQ) ← s.creditQ.deq
  return (value, { s with creditQ })

def completionOut : Option (RxCompletion × RxOrderedQueueManager) := do
  let (value, completionQ) ← s.completionQ.deq
  return (value, { s with completionQ })

def errorOut : Option (RxError × RxOrderedQueueManager) := do
  let (value, errorQ) ← s.errorQ.deq
  return (value, { s with errorQ })

def step : OrderedLabel → Option RxOrderedQueueManager
  | .configureEpoch value => s.configureEpoch value
  | .configure index cfg => s.configure index cfg
  | .start => s.start
  | .retireIn value => s.retireIn value
  | .processRetire => s.processRetire
  | .orderedFlagIn flag => s.orderedFlagIn flag
  | .rejectInvalidFlag => s.rejectInvalidFlag
  | .admitOrderedFlag i => s.admitOrderedFlag i
  | .rejectOrderedOverflow i => s.rejectOrderedOverflow i
  | .selectEligibleFlag i => s.selectEligibleFlag i
  | .skipEmptyQp i => s.skipEmptyQp i
  | .skipBlockedQp i => s.skipBlockedQp i
  | .flagRequestOut => s.flagRequestOut.map (·.2)
  | .flagResponseIn response => s.flagResponseIn response
  | .consumeFlagResponse => s.consumeFlagResponse
  | .rejectStaleFlagResponse => s.rejectStaleFlagResponse
  | .creditOut => s.creditOut.map (·.2)
  | .completionOut => s.completionOut.map (·.2)
  | .errorOut => s.errorOut.map (·.2)

/-! ## What a firing does -/

variable {s} {s' : RxOrderedQueueManager}

/-- The request of the selected flag is accepted. -/
def accepted (s : RxOrderedQueueManager) (c : Fifo RxOrderedCredit 8) : RxOrderedQueueManager :=
  { s with
    creditQ := c
    orderedQ := update s.orderedQ s.selectedQp (dropFirst (s.orderedQ s.selectedQp))
    grantLimit := update s.grantLimit s.selectedQp (s.grantLimit s.selectedQp + 1)
    expectedFlagResponse := s.selectedEntry.orderedSeq
    flagOutstanding := true
    selectedValid := false }

lemma mem_dropFirst {α : Type} {n : ℕ} {q : Fifo α n} {x : α} (h : x ∈ (dropFirst q).elems) :
    x ∈ q.elems := by
  unfold dropFirst at h
  split at h
  · rename_i rest hq
    rw [Fifo.deq_eq_some hq]
    exact List.mem_cons_of_mem _ h
  · exact h

/-- Accepting a request takes a flag out of a queue. -/
lemma mem_orderedQ_accepted {c : Fifo RxOrderedCredit 8} {i : RxQpIndex} {e : RxOrderedEntry}
    (h : e ∈ ((s.accepted c).orderedQ i).elems) : e ∈ (s.orderedQ i).elems := by
  dsimp only [accepted] at h
  by_cases hi : i = s.selectedQp
  · subst hi
    rw [update_self] at h
    exact mem_dropFirst h
  · rwa [update_of_ne hi] at h

/-- What the rules and methods do.  A retired packet moves the watermark of its queue pair, or stops
the manager, and so does an answer to a flag write. -/
inductive Fires (s s' : RxOrderedQueueManager) : OrderedLabel → Prop
  | configureEpoch {value} (hidle : s.running = false)
      (hs : s' = { s with currentEpoch := value, epochConfigured := true }) :
      Fires s s' (.configureEpoch value)
  | configure {index cfg} (hidle : s.running = false) (hs : s' = { s with
        cfgs := update s.cfgs index cfg
        dmaAck := update s.dmaAck index (cfg.initialPsn - 1)
        grantLimit := update s.grantLimit index 4
        lastBarrierValid := update s.lastBarrierValid index false
        lastBarrier := update s.lastBarrier index 0 }) : Fires s s' (.configure index cfg)
  | start (hs : s' = { s with running := true }) : Fires s s' .start
  | retireIn {value q} (hq : s.retireQ.enq value = some q)
      (hs : s' = { s with retireQ := q }) : Fires s s' (.retireIn value)
  | processRetire {retired q c}
      (hq : s.retireQ.deq = some (retired, q)) (hc : s.reportComplete retired = some c)
      (hs : s' = { s with
        retireQ := q
        expectedRetire := s.expectedRetire + 1
        dmaAck := if retired.ackValid then
            update s.dmaAck retired.qp retired.ackPsnAfterMerge
          else s.dmaAck
        completionQ := c }) : Fires s s' .processRetire
  | badRetire {retired q e} (hrun : s.running = true) (hq : s.retireQ.deq = some (retired, q))
      (hbad : ¬ (retired.success = true ∧ retired.globalSeq = s.expectedRetire))
      (hs : s' = { s with retireQ := q, errorQ := e, failed := true }) : Fires s s' .processRetire
  | orderedFlagIn {flag q} (hrun : s.running = true)
      (hfailed : s.failed = false) (hq : s.ingressQ.enq flag = some q)
      (hs : s' = { s with ingressQ := q }) : Fires s s' (.orderedFlagIn flag)
  | rejectInvalidFlag {flag q e} (hrun : s.running = true) (hq : s.ingressQ.deq = some (flag, q))
      (hs : s' = { s with ingressQ := q, errorQ := e, failed := true }) :
      Fires s s' .rejectInvalidFlag
  | admitOrderedFlag {i flag q o} (hrun : s.running = true) (hfailed : s.failed = false)
      (hq : s.ingressQ.deq = some (flag, q)) (hflag : s.flagAdmissible flag i = true)
      (ho : (s.orderedQ i).enq (s.entry flag i) = some o) (hs : s' = { s with
        ingressQ := q
        orderedQ := update s.orderedQ i o
        lastBarrier := update s.lastBarrier i flag.barrierPsn
        lastBarrierValid := update s.lastBarrierValid i true
        nextOrderedSeq := s.nextOrderedSeq + 1 }) : Fires s s' (.admitOrderedFlag i)
  | rejectOrderedOverflow {i flag q e} (hrun : s.running = true)
      (hq : s.ingressQ.deq = some (flag, q))
      (hs : s' = { s with ingressQ := q, errorQ := e, failed := true }) :
      Fires s s' (.rejectOrderedOverflow i)
  | selectEligibleFlag {i entry} (hfree : s.flagOutstanding = false)
      (hfirst : (s.orderedQ i).first = some entry)
      (hready : rxPsnAtOrAfter (s.dmaAck i) entry.barrierPsn = true) (hs : s' = { s with
        selectedEntry := entry, selectedQp := i, selectedValid := true,
        selectionCursor := i + 1 }) : Fires s s' (.selectEligibleFlag i)
  | skipEmptyQp {i} (hs : s' = { s with selectionCursor := i + 1 }) : Fires s s' (.skipEmptyQp i)
  | skipBlockedQp {i} (hs : s' = { s with selectionCursor := i + 1 }) :
      Fires s s' (.skipBlockedQp i)
  | flagRequestOut {c} (hrun : s.running = true) (hselected : s.selectedValid = true)
      (hc : s.creditQ.enq ⟨s.selectedEntry.qpn, s.grantLimit s.selectedQp + 1⟩ = some c)
      (hs : s' = s.accepted c) : Fires s s' .flagRequestOut
  | flagResponseIn {response q}
      (hs : s' = { s with flagResponseQ := q }) : Fires s s' (.flagResponseIn response)
  | consumeFlagResponse {q} (houtstanding : s.flagOutstanding = true)
      (hs : s' = { s with flagResponseQ := q, flagOutstanding := false }) :
      Fires s s' .consumeFlagResponse
  | badFlagResponse {q e} (hrun : s.running = true)
      (hs : s' = { s with flagResponseQ := q, errorQ := e, failed := true }) :
      Fires s s' .consumeFlagResponse
  | rejectStaleFlagResponse {q e} (hrun : s.running = true)
      (hs : s' = { s with flagResponseQ := q, errorQ := e, failed := true }) :
      Fires s s' .rejectStaleFlagResponse
  | creditOut {value q} (hq : s.creditQ.deq = some (value, q))
      (hs : s' = { s with creditQ := q }) : Fires s s' .creditOut
  | completionOut {value q}
      (hq : s.completionQ.deq = some (value, q)) (hs : s' = { s with completionQ := q }) :
      Fires s s' .completionOut
  | errorOut {q} (hs : s' = { s with errorQ := q }) : Fires s s' .errorOut

/-- The selected flag goes out. -/
lemma flagRequestOut_eq_some {request : RxFlagDmaRequest}
    (h : s.flagRequestOut = some (request, s')) :
    request = s.flagRequest ∧ s.selectedValid = true ∧ s.Fires s' .flagRequestOut := by
  obtain ⟨hguard, h⟩ := guard_bind_eq_some.1 h
  obtain ⟨c, hc, h⟩ := bind_eq_some.1 h
  simp only [Bool.and_eq_true] at hguard
  cases h
  exact ⟨rfl, hguard.2, .flagRequestOut hguard.1.1 hguard.2 hc rfl⟩

/-- **Every firing of the ordered queue is one of these.** -/
theorem step_fires {l : OrderedLabel} (h : s.step l = some s') : s.Fires s' l := by
  cases l with
  | configureEpoch value =>
    obtain ⟨hguard, h⟩ := guard_bind_eq_some.1 h
    exact .configureEpoch (by simpa using hguard) (Option.some.inj h).symm
  | configure index cfg =>
    obtain ⟨hguard, h⟩ := guard_bind_eq_some.1 h
    exact .configure (by simpa using hguard) (Option.some.inj h).symm
  | start =>
    obtain ⟨-, h⟩ := guard_bind_eq_some.1 h
    exact .start (Option.some.inj h).symm
  | retireIn value =>
    obtain ⟨-, h⟩ := guard_bind_eq_some.1 h
    obtain ⟨q, hq, h⟩ := bind_eq_some.1 h
    exact .retireIn hq (Option.some.inj h).symm
  | processRetire =>
    obtain ⟨hguard, h⟩ := guard_bind_eq_some.1 h
    obtain ⟨⟨retired, q⟩, hq, h⟩ := bind_eq_some.1 h
    dsimp only at h
    split at h
    · rename_i hbad
      obtain ⟨e, -, h⟩ := bind_eq_some.1 h
      refine .badRetire (Bool.and_eq_true_iff.1 hguard).1 hq ?_ (Option.some.inj h).symm
      rintro ⟨hsuccess, hseq⟩
      simp [hsuccess, hseq] at hbad
    · obtain ⟨c, hc, h⟩ := bind_eq_some.1 h
      exact .processRetire hq hc (Option.some.inj h).symm
  | orderedFlagIn flag =>
    obtain ⟨hguard, h⟩ := guard_bind_eq_some.1 h
    obtain ⟨q, hq, h⟩ := bind_eq_some.1 h
    simp only [Bool.and_eq_true, Bool.not_eq_true'] at hguard
    exact .orderedFlagIn hguard.1 hguard.2 hq (Option.some.inj h).symm
  | rejectInvalidFlag =>
    obtain ⟨hguard, h⟩ := guard_bind_eq_some.1 h
    obtain ⟨⟨flag, q⟩, hq, h⟩ := bind_eq_some.1 h
    obtain ⟨-, h⟩ := guard_bind_eq_some.1 h
    obtain ⟨e, -, h⟩ := bind_eq_some.1 h
    exact .rejectInvalidFlag (Bool.and_eq_true_iff.1 hguard).1 hq (Option.some.inj h).symm
  | admitOrderedFlag i =>
    obtain ⟨hguard, h⟩ := guard_bind_eq_some.1 h
    obtain ⟨⟨flag, q⟩, hq, h⟩ := bind_eq_some.1 h
    obtain ⟨hflag, h⟩ := guard_bind_eq_some.1 h
    obtain ⟨o, ho, h⟩ := bind_eq_some.1 h
    simp only [Bool.and_eq_true, Bool.not_eq_true'] at hguard
    exact .admitOrderedFlag hguard.1 hguard.2 hq hflag ho (Option.some.inj h).symm
  | rejectOrderedOverflow i =>
    obtain ⟨hguard, h⟩ := guard_bind_eq_some.1 h
    obtain ⟨⟨flag, q⟩, hq, h⟩ := bind_eq_some.1 h
    obtain ⟨-, h⟩ := guard_bind_eq_some.1 h
    obtain ⟨e, -, h⟩ := bind_eq_some.1 h
    exact .rejectOrderedOverflow (Bool.and_eq_true_iff.1 hguard).1 hq (Option.some.inj h).symm
  | selectEligibleFlag i =>
    obtain ⟨hselects, h⟩ := guard_bind_eq_some.1 h
    obtain ⟨entry, hfirst, h⟩ := bind_eq_some.1 h
    obtain ⟨hready, h⟩ := guard_bind_eq_some.1 h
    simp only [selects, Bool.and_eq_true, Bool.not_eq_true'] at hselects
    exact .selectEligibleFlag hselects.1.2 hfirst hready (Option.some.inj h).symm
  | skipEmptyQp i =>
    obtain ⟨-, h⟩ := guard_bind_eq_some.1 h
    exact .skipEmptyQp (Option.some.inj h).symm
  | skipBlockedQp i =>
    obtain ⟨-, h⟩ := guard_bind_eq_some.1 h
    obtain ⟨entry, -, h⟩ := bind_eq_some.1 h
    obtain ⟨-, h⟩ := guard_bind_eq_some.1 h
    exact .skipBlockedQp (Option.some.inj h).symm
  | flagRequestOut =>
    obtain ⟨⟨r, t⟩, hout, rfl⟩ := Option.map_eq_some_iff.1 h
    exact (flagRequestOut_eq_some hout).2.2
  | flagResponseIn response =>
    obtain ⟨q, -, h⟩ := bind_eq_some.1 h
    exact .flagResponseIn (Option.some.inj h).symm
  | consumeFlagResponse =>
    obtain ⟨hguard, h⟩ := guard_bind_eq_some.1 h
    obtain ⟨⟨response, q⟩, -, h⟩ := bind_eq_some.1 h
    simp only [Bool.and_eq_true] at hguard
    dsimp only at h
    split at h
    · obtain ⟨e, -, h⟩ := bind_eq_some.1 h
      exact .badFlagResponse hguard.1.1 (Option.some.inj h).symm
    · exact .consumeFlagResponse hguard.2 (Option.some.inj h).symm
  | rejectStaleFlagResponse =>
    obtain ⟨hguard, h⟩ := guard_bind_eq_some.1 h
    obtain ⟨⟨response, q⟩, -, h⟩ := bind_eq_some.1 h
    obtain ⟨e, -, h⟩ := bind_eq_some.1 h
    simp only [Bool.and_eq_true] at hguard
    exact .rejectStaleFlagResponse hguard.1.1 (Option.some.inj h).symm
  | creditOut =>
    obtain ⟨⟨r, t⟩, hout, rfl⟩ := Option.map_eq_some_iff.1 h
    obtain ⟨⟨value, q⟩, hq, hout⟩ := bind_eq_some.1 hout
    cases hout
    exact .creditOut hq rfl
  | completionOut =>
    obtain ⟨⟨r, t⟩, hout, rfl⟩ := Option.map_eq_some_iff.1 h
    obtain ⟨⟨value, q⟩, hq, hout⟩ := bind_eq_some.1 hout
    cases hout
    exact .completionOut hq rfl
  | errorOut =>
    obtain ⟨⟨r, t⟩, hout, rfl⟩ := Option.map_eq_some_iff.1 h
    obtain ⟨⟨value, q⟩, -, hout⟩ := bind_eq_some.1 hout
    cases hout
    exact .errorOut rfl

end RxOrderedQueueManager

end OpenRdma
