import OpenRdma.Tx.Types

/-!
# Types of the receive path

What the modules of the receive path pass to each other, and the comparisons of 24-bit packet
sequence numbers they decide by.  A sequence number is a position on a circle; `rxPsnBefore`,
`rxPsnInWindow` and `rxPsnAtOrAfter` look at the wrapped difference, whose top bit tells behind from
ahead.
-/

namespace OpenRdma

abbrev RxLaneId := Fin 4
abbrev RxQpIndex := Fin 4
abbrev RxWindowIndex := Fin 16
abbrev RxPayloadSlot := Fin 16
abbrev RxPayloadGeneration := BitVec 8
abbrev RxGlobalSeq := BitVec 64
abbrev RxOrderedSeq := BitVec 64
abbrev RxEpoch := BitVec 16

instance RxLaneId.neZero : NeZero 4 := ⟨by decide⟩
instance RxWindowIndex.neZero : NeZero 16 := ⟨by decide⟩

/-- A buffered payload. -/
structure RxPayloadTag where
  lane : RxLaneId
  slot : RxPayloadSlot
  generation : RxPayloadGeneration
deriving DecidableEq, Repr, Inhabited

/-- A buffer is free again. -/
structure RxBufferRelease where
  tag : RxPayloadTag
deriving DecidableEq, Repr

/-- A packet as it comes in. -/
structure RxParsedPacket where
  payloadTag : RxPayloadTag
  lane : RxLaneId
  qpn : TxQpn
  psn : TxPsn
  opcode : BitVec 8
  ecn : BitVec 2
  payloadStart : BitVec 7
  payloadBytes : BitVec 13
  remoteAddr : BitVec 64
  rkey : BitVec 32
  messageBytes : TxLength
  first : Bool
  last : Bool
deriving DecidableEq, Repr, Inhabited

/-- The configuration of a queue pair. -/
structure RxQpConfig where
  valid : Bool
  qpn : TxQpn
  initialPsn : TxPsn
  pmtu : TxPmtuCode
  rkey : BitVec 32
  virtualBase : BitVec 64
  physicalBase : BitVec 64
  regionBytes : BitVec 64
  remoteWrite : Bool
deriving DecidableEq, Repr, Inhabited

inductive RxErrorCode where
  | badFrame
  | badHeader
  | unknownQp
  | outOfWindow
  | badSegment
  | accessDenied
  | bufferBadTag
  | dmaFailed
  | dmaBadCompletion
  | dmaBadPayload
  | orderedQueueFull
  | orderedBadFlag
  | orderedBadRetire
  | flagDmaFailed
  | flagDmaBadResponse
  | pendingTimeout
deriving DecidableEq, Repr

/-- An error, and the packet it is about. -/
structure RxError where
  qpn : TxQpn
  psn : TxPsn
  code : RxErrorCode
deriving DecidableEq, Repr

inductive RxFeedbackKind where
  | ack
  | sack
  | nack
deriving DecidableEq, Repr

/-- An answer to the sender. -/
structure RxFeedback where
  qpn : TxQpn
  kind : RxFeedbackKind
  ackPsn : TxPsn
  sackBase : TxPsn
  sackBitmap : BitVec 64
  oooCount : BitVec 7
  triggerPsn : TxPsn
deriving DecidableEq, Repr

/-- A packet that was admitted. -/
structure RxAdmittedPacket where
  globalSeq : RxGlobalSeq
  payloadTag : RxPayloadTag
  lane : RxLaneId
  qp : RxQpIndex
  qpn : TxQpn
  psn : TxPsn
  dmaAddr : BitVec 64
  payloadStart : BitVec 7
  payloadBytes : BitVec 13
  messageBytes : TxLength
  first : Bool
  last : Bool
  ackValid : Bool
  ackPsnAfterMerge : TxPsn
  messageComplete : Bool
  messageLastPsn : TxPsn
deriving DecidableEq, Repr, Inhabited

/-! ## Sequence numbers -/

def rxPsnBefore (a b : TxPsn) : Bool := (a - b).msb

def rxPsnInWindow (ackPsn psn : TxPsn) : Bool :=
  let delta := psn - (ackPsn + 1)
  !delta.msb && delta < 16

def rxPsnAtOrAfter (watermark barrier : TxPsn) : Bool := !(watermark - barrier).msb

lemma rxPsnBefore_iff {a b : TxPsn} : rxPsnBefore a b = true ↔ 2 ^ 23 ≤ (a - b).toNat := by
  simp [rxPsnBefore, BitVec.msb_eq_decide]

lemma rxPsnInWindow_iff {ackPsn psn : TxPsn} :
    rxPsnInWindow ackPsn psn = true ↔ (psn - (ackPsn + 1)).toNat < 16 := by
  simp only [rxPsnInWindow, BitVec.msb_eq_decide, Bool.and_eq_true, Bool.not_eq_true',
    decide_eq_false_iff_not, decide_eq_true_eq, BitVec.lt_def]
  constructor
  · rintro ⟨_, h⟩
    exact h
  · intro h
    exact ⟨by simp at h ⊢; omega, h⟩

lemma rxPsnAtOrAfter_iff {watermark barrier : TxPsn} :
    rxPsnAtOrAfter watermark barrier = true ↔ (watermark - barrier).toNat < 2 ^ 23 := by
  simp [rxPsnAtOrAfter, BitVec.msb_eq_decide]

/-! ## Lanes -/

/-- The first ready lane from the cursor on. -/
def rxPickReadyLane (ready : RxLaneId → Bool) (cursor : RxLaneId) : Option RxLaneId :=
  ((List.finRange 4).map (cursor + ·)).find? ready

/-! ## Queue pairs -/

/-- How many queue pairs a test holds for, and the last of them. -/
def countMatches (test : RxQpIndex → Bool) : ℕ × RxQpIndex :=
  (List.finRange 4).foldl (fun r i => if test i then (r.1 + 1, i) else r) (0, 0)

/-- A single match is the one that was found. -/
lemma countMatches_eq_one : ∀ {test : RxQpIndex → Bool}, (countMatches test).1 = 1 →
    ∀ i, test i = true ↔ i = (countMatches test).2 := by
  decide

/-! ## Messages -/

/-- The number of packets of a message, in 17 bits. -/
def packetCountForMessage (len : TxLength) (pmtu : TxPmtuCode) : BitVec 17 :=
  let firstLimit := firstPayloadLimit pmtu
  let contLimit := contPayloadLimit pmtu
  if len = 0 then 0
  else if len ≤ firstLimit.setWidth 25 then 1
  else
    let remaining : BitVec 26 := (len - firstLimit.setWidth 25).setWidth 26
    let divisor : BitVec 26 := contLimit.setWidth 26
    let continuation := (remaining + divisor - 1) / divisor
    1 + continuation.setWidth 17

end OpenRdma
