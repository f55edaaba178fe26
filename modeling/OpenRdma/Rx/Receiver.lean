import OpenRdma.Rx.OrderedQueue
import OpenRdma.Rx.RqWindow

/-!
# The receiver behind the parser

Parsed packets go through the receive bitmap manager, the DMA lanes and the ordered queue.  This is
`mkRxTop` without its packet buffers and parsers: what the parsers deliver, what the buffers answer,
and what the host does, may be anything.  Every connection between two modules is one firing of
both.

* `onWindow`, `onLane`, `onOrdered` — what a module does in a firing; **`step_parts`** says that it
  does so.
-/

namespace OpenRdma

open Function (update update_self update_of_ne)

/-- The window, the lanes and the ordered queue. -/
structure RxReceiver where
  window : RxRqBitmapManager
  dma : RxDmaPlacement
  ordered : RxOrderedQueueManager
  running : Bool
  epochConfigured : Bool
  qpConfigured : RxQpIndex → Bool
  configuredQpn : RxQpIndex → TxQpn

/-- The rules and methods of the receiver.  A rule or an output of a single module has the label of
the module. -/
inductive ReceiverLabel where
  | configureEpoch (value : RxEpoch)
  | configureQp (index : RxQpIndex) (cfg : RxQpConfig)
  | start
  | packetIn (lane : RxLaneId) (packet : RxParsedPacket)
  | window (l : RqLabel)
  | connectAdmitted (lane : RxLaneId)
  | lane (lane : RxLaneId) (l : DmaLaneLabel)
  | retireCompletedLane (lane : RxLaneId)
  | connectRetire
  | ordered (l : OrderedLabel)
  | orderedFlagIn (flag : RxOrderedFlagIngress)
  | flagDmaRequest
deriving DecidableEq, Repr

/-- The window may fire this on its own. -/
def RqLabel.alone : RqLabel → Bool
  | .configure _ _ | .start | .packetIn _ _ | .admittedOut _ => false
  | _ => true

/-- A lane may fire this on its own. -/
def DmaLaneLabel.alone : DmaLaneLabel → Bool
  | .configureEpoch _ | .admittedIn _ | .completedOut => false
  | _ => true

/-- The ordered queue may fire this on its own. -/
def OrderedLabel.alone : OrderedLabel → Bool
  | .configureEpoch _ | .configure _ _ | .start | .retireIn _ | .orderedFlagIn _ |
      .flagRequestOut => false
  | _ => true

namespace RxReceiver

/-- After reset.  The register files of the window hold anything. -/
def initial (pendingPackets : RxQpIndex → RxWindowIndex → RxParsedPacket)
    (pendingAge : RxQpIndex → RxWindowIndex → BitVec 8) : RxReceiver where
  window := .initial pendingPackets pendingAge
  dma := .initial
  ordered := .initial
  running := false
  epochConfigured := false
  qpConfigured := fun _ => false
  configuredQpn := fun _ => 0

variable (s : RxReceiver)

def anyFault : Bool := s.window.failed || s.dma.faulted || s.ordered.failed

/-- No two queue pairs have the same number. -/
def uniqueQpn : Bool :=
  decide (∀ i j, i < j → s.qpConfigured i = true → s.qpConfigured j = true →
    s.configuredQpn i ≠ s.configuredQpn j)

def configureEpoch (value : RxEpoch) : Option RxReceiver := do
  guard (!s.running)
  return { s with
    dma := ← s.dma.configureEpoch value
    ordered := ← s.ordered.configureEpoch value
    epochConfigured := true }

def configureQp (index : RxQpIndex) (cfg : RxQpConfig) : Option RxReceiver := do
  guard (!s.running)
  return { s with
    window := ← s.window.configure index cfg
    ordered := ← s.ordered.configure index cfg
    qpConfigured := update s.qpConfigured index cfg.valid
    configuredQpn := update s.configuredQpn index cfg.qpn }

def start : Option RxReceiver := do
  guard (!s.running && s.epochConfigured && decide (∃ i, s.qpConfigured i = true) && s.uniqueQpn)
  return { s with running := true, window := ← s.window.start, ordered := ← s.ordered.start }

def packetIn (i : RxLaneId) (packet : RxParsedPacket) : Option RxReceiver := do
  guard (!s.anyFault)
  return { s with window := ← s.window.packetIn i packet }

def connectAdmitted (i : RxLaneId) : Option RxReceiver := do
  let (packet, window) ← s.window.admittedOut i
  return { s with window, dma := ← s.dma.admittedIn i packet }

def connectRetire : Option RxReceiver := do
  let (value, dma) ← s.dma.retireOut
  return { s with dma, ordered := ← s.ordered.retireIn value }

def orderedFlagIn (flag : RxOrderedFlagIngress) : Option RxReceiver := do
  guard (!s.anyFault)
  return { s with ordered := ← s.ordered.orderedFlagIn flag }

def flagDmaRequest : Option (RxFlagDmaRequest × RxReceiver) := do
  guard (!s.anyFault)
  let (request, ordered) ← s.ordered.flagRequestOut
  return (request, { s with ordered })

def step : ReceiverLabel → Option RxReceiver
  | .configureEpoch value => s.configureEpoch value
  | .configureQp index cfg => s.configureQp index cfg
  | .start => s.start
  | .packetIn i packet => s.packetIn i packet
  | .window l => do
      guard (l.alone = true)
      return { s with window := ← s.window.step l }
  | .connectAdmitted i => s.connectAdmitted i
  | .lane i l => do
      guard (l.alone = true)
      return { s with dma := ← s.dma.lane i l }
  | .retireCompletedLane i => return { s with dma := ← s.dma.retireCompletedLane i }
  | .connectRetire => s.connectRetire
  | .ordered l => do
      guard (l.alone = true)
      return { s with ordered := ← s.ordered.step l }
  | .orderedFlagIn flag => s.orderedFlagIn flag
  | .flagDmaRequest => s.flagDmaRequest.map (·.2)

/-! ## What each module does -/

/-- The firing of the window. -/
def onWindow : ReceiverLabel → Option RqLabel
  | .configureQp index cfg => some (.configure index cfg)
  | .start => some .start
  | .packetIn i packet => some (.packetIn i packet)
  | .window l => some l
  | .connectAdmitted i => some (.admittedOut i)
  | _ => none

/-- The firing of a lane. -/
def onLane (i : RxLaneId) : ReceiverLabel → Option DmaLaneLabel
  | .configureEpoch value => some (.configureEpoch value)
  | .connectAdmitted j => if j = i then (s.window.admittedQ i).first.map .admittedIn else none
  | .lane j l => if j = i then some l else none
  | .retireCompletedLane j => if j = i then some .completedOut else none
  | _ => none

/-- The firing of the ordered queue. -/
def onOrdered : ReceiverLabel → Option OrderedLabel
  | .configureEpoch value => some (.configureEpoch value)
  | .configureQp index cfg => some (.configure index cfg)
  | .start => some .start
  | .connectRetire => s.dma.retireQ.first.map .retireIn
  | .ordered l => some l
  | .orderedFlagIn flag => some (.orderedFlagIn flag)
  | .flagDmaRequest => some .flagRequestOut
  | _ => none

variable {s} {s' : RxReceiver}

/-- One lane fires, the others stay. -/
lemma stepPart_update {lanes : RxLaneId → RxDmaLane} {i : RxLaneId} {k : DmaLaneLabel}
    {t : RxDmaLane} (h : (lanes i).step i k = some t) (j : RxLaneId) :
    stepPart (RxDmaLane.step j) (lanes j) (if i = j then some k else none) =
      some (update lanes i t j) := by
  by_cases hij : i = j
  · subst hij
    rw [if_pos rfl, update_self]
    exact h
  · rw [if_neg hij, update_of_ne (Ne.symm hij)]
    rfl

/-- **Every firing of the receiver is one of each of its modules.** -/
theorem step_parts {l : ReceiverLabel} (h : s.step l = some s') :
    stepPart RxRqBitmapManager.step s.window (onWindow l) = some s'.window ∧
    (∀ i, stepPart (RxDmaLane.step i) (s.dma.lanes i) (s.onLane i l) = some (s'.dma.lanes i)) ∧
    stepPart RxOrderedQueueManager.step s.ordered (s.onOrdered l) = some s'.ordered := by
  cases l with
  | configureEpoch value =>
    obtain ⟨-, h⟩ := guard_bind_eq_some.1 h
    obtain ⟨dma, hdma, h⟩ := bind_eq_some.1 h
    obtain ⟨ordered, hordered, h⟩ := bind_eq_some.1 h
    cases h
    obtain ⟨hidle, hdma⟩ := guard_bind_eq_some.1 hdma
    cases hdma
    refine ⟨rfl, fun i => ?_, hordered⟩
    simp [onLane, stepPart, RxDmaLane.step, RxDmaLane.configureEpoch, hidle i, guard]
  | configureQp index cfg | start =>
    obtain ⟨-, h⟩ := guard_bind_eq_some.1 h
    obtain ⟨window, hwindow, h⟩ := bind_eq_some.1 h
    obtain ⟨ordered, hordered, h⟩ := bind_eq_some.1 h
    cases h
    exact ⟨hwindow, fun i => rfl, hordered⟩
  | packetIn lane packet | window l =>
    obtain ⟨-, h⟩ := guard_bind_eq_some.1 h
    obtain ⟨window, hwindow, h⟩ := bind_eq_some.1 h
    cases h
    exact ⟨hwindow, fun i => rfl, rfl⟩
  | connectAdmitted lane =>
    obtain ⟨⟨packet, window⟩, hwindow, h⟩ := bind_eq_some.1 h
    obtain ⟨dma, hdma, h⟩ := bind_eq_some.1 h
    cases h
    obtain ⟨-, hdma⟩ := guard_bind_eq_some.1 hdma
    obtain ⟨t, ht, hdma⟩ := bind_eq_some.1 hdma
    cases hdma
    obtain ⟨q, hq, hm⟩ := RxRqBitmapManager.admittedOut_eq_some hwindow
    have hfirst : (s.window.admittedQ lane).first = some packet := by
      rw [Fifo.first, Fifo.deq_eq_some hq, List.head?_cons]
    refine ⟨?_, fun i => ?_, rfl⟩
    · show (s.window.admittedOut lane).map (·.2) = _
      rw [hwindow]
      rfl
    · have hlane : s.onLane i (.connectAdmitted lane) =
          if lane = i then some (.admittedIn packet) else none := by
        by_cases hi : lane = i
        · subst hi
          simp [onLane, hfirst]
        · simp [onLane, hi]
      rw [hlane]
      exact stepPart_update (k := .admittedIn packet) ht i
  | lane lane l =>
    obtain ⟨-, h⟩ := guard_bind_eq_some.1 h
    obtain ⟨dma, hdma, h⟩ := bind_eq_some.1 h
    cases h
    obtain ⟨t, ht, hdma⟩ := bind_eq_some.1 hdma
    cases hdma
    exact ⟨rfl, fun i => stepPart_update ht i, rfl⟩
  | retireCompletedLane lane =>
    obtain ⟨dma, hdma, h⟩ := bind_eq_some.1 h
    cases h
    obtain ⟨-, hdma⟩ := guard_bind_eq_some.1 hdma
    obtain ⟨⟨value, t⟩, ht, hdma⟩ := bind_eq_some.1 hdma
    obtain ⟨-, hdma⟩ := guard_bind_eq_some.1 hdma
    obtain ⟨q, -, hdma⟩ := bind_eq_some.1 hdma
    cases hdma
    refine ⟨rfl, fun i => ?_, rfl⟩
    refine stepPart_update ?_ i
    show (s.dma.lanes lane).completedOut.map (·.2) = _
    rw [ht]
    rfl
  | connectRetire =>
    obtain ⟨⟨value, dma⟩, hdma, h⟩ := bind_eq_some.1 (show s.connectRetire = some s' from h)
    obtain ⟨ordered, hordered, h⟩ := bind_eq_some.1 h
    cases h
    obtain ⟨⟨v, q⟩, hq, hdma⟩ := bind_eq_some.1 hdma
    cases hdma
    have hfirst : s.dma.retireQ.first = some value := by
      rw [Fifo.first, Fifo.deq_eq_some hq, List.head?_cons]
    refine ⟨rfl, fun i => rfl, ?_⟩
    show stepPart RxOrderedQueueManager.step s.ordered (s.dma.retireQ.first.map .retireIn) = _
    rw [hfirst]
    exact hordered
  | ordered l | orderedFlagIn flag =>
    obtain ⟨-, h⟩ := guard_bind_eq_some.1 h
    obtain ⟨ordered, hordered, h⟩ := bind_eq_some.1 h
    cases h
    exact ⟨rfl, fun i => rfl, hordered⟩
  | flagDmaRequest =>
    obtain ⟨⟨request, t⟩, hout, rfl⟩ := Option.map_eq_some_iff.1 h
    obtain ⟨-, hout⟩ := guard_bind_eq_some.1 hout
    obtain ⟨⟨r, ordered⟩, hordered, hout⟩ := bind_eq_some.1 hout
    cases hout
    refine ⟨rfl, fun i => rfl, ?_⟩
    show s.ordered.flagRequestOut.map (·.2) = _
    rw [hordered]
    rfl

end RxReceiver

/-! ## The history of a run -/

/-- How far a queue pair had been acknowledged when the last of some packets was merged. -/
def ackedAfter (qp : RxQpIndex) (admissions : List RqAdmission) : ℕ :=
  ((admissions.filter (·.admitted.qp = qp)).getLast?.map (·.acked)).getD 0

/-- What a run has done. -/
structure ReceiverHistory where
  /-- What the window has admitted. -/
  rq : RqHistory
  /-- The packet writes that the DMA has accepted. -/
  requests : List RxDmaWriteRequest
  /-- The packets that are done, each with the completion it was done with. -/
  finished : List (RxAdmittedPacket × RxDmaCompletion)
  /-- How many packets the ordered queue has retired. -/
  retired : ℕ
  /-- The flags that came in, each with the DMA watermarks at that time. -/
  flags : List (RxOrderedFlagIngress × (RxQpIndex → ℕ))
  /-- The flag writes that the DMA has accepted. -/
  flagRequests : List RxFlagDmaRequest

namespace ReceiverHistory

def empty : ReceiverHistory := ⟨.empty, [], [], 0, [], []⟩

/-- The DMA watermark of a queue pair, as a position. -/
def dmaMark (h : ReceiverHistory) (qp : RxQpIndex) : ℕ :=
  ackedAfter qp (h.rq.admissions.take h.retired)

end ReceiverHistory

namespace RxReceiver

variable {s s' : RxReceiver} {h : ReceiverHistory}

/-- What the window observes. -/
def observeWindow (s : RxReceiver) (l : ReceiverLabel) (h : RqHistory) : RqHistory :=
  match onWindow l with
  | some k => s.window.observe k h
  | none => h

def observe (s : RxReceiver) : ReceiverLabel → ReceiverHistory → ReceiverHistory
  | .lane i .requestOut, h =>
    { h with requests := h.requests ++ handedOut (s.dma.lanes i).requestOut }
  | .lane i .finishPacket, h =>
    { h with
      finished :=
        h.finished ++ ((s.dma.lanes i).completionQ.first.map ((s.dma.lanes i).current, ·)).toList }
  | .ordered .processRetire, h => { h with retired := h.retired + 1 }
  | .orderedFlagIn flag, h => { h with flags := h.flags ++ [(flag, h.dmaMark)] }
  | .flagDmaRequest, h => { h with flagRequests := h.flagRequests ++ handedOut s.flagDmaRequest }
  | l, h => { h with rq := s.observeWindow l h.rq }

lemma observe_rq (l : ReceiverLabel) : (s.observe l h).rq = s.observeWindow l h.rq := by
  unfold observe
  split <;> rfl

/-- **What the window keeps, with what it observes, the receiver keeps.** -/
lemma window_keeps {P : RxRqBitmapManager → RqHistory → Prop} {l : ReceiverLabel}
    (hs : s.step l = some s') (hi : P s.window h.rq)
    (hstep : ∀ k, s.window.step k = some s'.window → P s'.window (s.window.observe k h.rq)) :
    P s'.window (s.observe l h).rq := by
  rw [observe_rq, observeWindow]
  rcases stepPart_eq_some (step_parts hs).1 with ⟨hl, hsame⟩ | ⟨k, hl, hk⟩
  · rw [hl, hsame]
    exact hi
  · rw [hl]
    exact hstep k hk

/-- The invariant of the window holds in the receiver. -/
lemma rqInv_step (hi : RqInv s.window h.rq) {l : ReceiverLabel} (hs : s.step l = some s') :
    RqInv s'.window (s.observe l h).rq :=
  window_keeps hs hi fun _ hk => hi.step hk

end RxReceiver

/-- The receiver with its history. -/
def receiverStep : RxReceiver × ReceiverHistory → ReceiverLabel →
    Option (RxReceiver × ReceiverHistory) :=
  watched RxReceiver.step RxReceiver.observe

end OpenRdma
