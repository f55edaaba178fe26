import OpenRdma.Ring.Descriptors
import OpenRdma.Workers.MetaReport

/-!
# From a descriptor to the handler of the meta report worker

The card writes a descriptor for every packet.  `from_bytes` sorts it by its opcode and its ECN bit,
`try_recv_meta` reads its fields, and `handle_meta` updates the receive tracker.  Each of them has a
branch that is thought to be unreachable, and congestion notifications are not implemented.

* **`packet_accounted_iff`** — when a data packet is accounted for.
-/

namespace OpenRdma

/-! ## The fields of the descriptors -/

namespace Desc

/-- The bits from `lo` on of a word. -/
def bits (x lo width : UInt64) : UInt64 := (x >>> lo) &&& ((1 <<< width) - 1)

/-- A bit of a word. -/
def bit (x i : UInt64) : Bool := (x >>> i) &&& 1 == 1

/-! ### A packet -/

def immData (d : Desc) : UInt32 := (bits d.c0 0 32).toUInt32

def rkey (d : Desc) : UInt32 := (bits d.c0 32 32).toUInt32

def raddr (d : Desc) : UInt64 := d.c1

def totalLen (d : Desc) : UInt32 := (bits d.c2 0 32).toUInt32

def dqpn (d : Desc) : UInt32 := (bits d.c2 40 24).toUInt32

def isRetry (d : Desc) : Bool := bit d.c3 4

def ackReq (d : Desc) : Bool := bit d.c3 5

def solicited (d : Desc) : Bool := bit d.c3 6

def psn (d : Desc) : Psn := ⟨(bits d.c3 8 24).toUInt32⟩

def msn (d : Desc) : UInt16 := (bits d.c3 32 16).toUInt16

/-! ### The second descriptor of a READ request -/

def readLkey (d : Desc) : UInt32 := (bits d.c1 32 32).toUInt32

def readLaddr (d : Desc) : UInt64 := d.c2

def readTotalLen (d : Desc) : UInt32 := (bits d.c3 0 32).toUInt32

/-! ### An acknowledgement, and its second descriptor -/

/-- The bitmap in the first two words. -/
def bitmap (d : Desc) : BitVec 128 := d.c1.toBitVec ++ d.c0.toBitVec

def ackMsn (d : Desc) : UInt16 := (bits d.c2 0 16).toUInt16

def ackQpn (d : Desc) : UInt32 := (bits d.c2 16 24).toUInt32

def psnNow (d : Desc) : Psn := ⟨(bits d.c2 40 24).toUInt32⟩

def psnBeforeSlide (d : Desc) : Psn := ⟨(bits d.c3 8 24).toUInt32⟩

def isSendByDriver (d : Desc) : Bool := bit d.c3 42

def isSendByLocalHw (d : Desc) : Bool := bit d.c3 43

lemma psn_inRange (d : Desc) : d.psn.InRange := by
  have h : (bits d.c3 8 24).toNat < 2 ^ 24 := by
    have hmask : ((1 : UInt64) <<< 24 - 1).toNat = 2 ^ 24 - 1 := by decide
    rw [bits, UInt64.toNat_and, hmask, Nat.and_two_pow_sub_one_eq_mod]
    exact Nat.mod_lt _ (by decide)
  rw [psn, Psn.InRange, UInt64.toNat_toUInt32]
  exact lt_of_le_of_lt (Nat.mod_le _ _) h

end Desc

/-! ## What an opcode says -/

namespace RdmaOpCode

def packetPos : RdmaOpCode → Option PacketPos
  | sendFirst | rdmaWriteFirst | rdmaReadResponseFirst => some .first
  | sendMiddle | rdmaWriteMiddle | rdmaReadResponseMiddle => some .middle
  | sendLast | sendLastWithImmediate | rdmaWriteLast | rdmaWriteLastWithImmediate |
      rdmaReadResponseLast
  | sendLastWithInvalidate => some .last
  | sendOnly | sendOnlyWithImmediate | rdmaWriteOnly | rdmaWriteOnlyWithImmediate |
      rdmaReadResponseOnly
  | sendOnlyWithInvalidate => some .only
  | rdmaReadRequest | acknowledge | atomicAcknowledge | compareSwap | fetchAdd | resync => none

def headerType : RdmaOpCode → Option HeaderType
  | rdmaWriteFirst | rdmaWriteMiddle | rdmaWriteLast | rdmaWriteOnly => some .write
  | rdmaWriteLastWithImmediate | rdmaWriteOnlyWithImmediate => some .writeWithImm
  | sendFirst | sendMiddle | sendLast | sendOnly => some .send
  | sendLastWithImmediate | sendOnlyWithImmediate => some .sendWithImm
  | rdmaReadResponseFirst | rdmaReadResponseMiddle | rdmaReadResponseLast | rdmaReadResponseOnly =>
    some .readResp
  | _ => none

/-- A packet of a send, of a write or of the response to a READ. -/
def isData : RdmaOpCode → Bool
  | rdmaReadRequest | acknowledge | atomicAcknowledge | compareSwap | fetchAdd | resync => false
  | _ => true

/-- A send that invalidates a key. -/
def invalidates : RdmaOpCode → Bool
  | sendLastWithInvalidate | sendOnlyWithInvalidate => true
  | _ => false

end RdmaOpCode

/-! ## The chain -/

/-- The branches that are thought to be unreachable. -/
inductive ReportPanic where
  | desc (p : DescPanic)
  | packetPos
  | headerType
  | invalidAckBranch
  | invalidNakBranch
deriving DecidableEq, Repr

/-- `unwrap_or_else(|| unreachable!())` -/
def orUnreachable {α : Type} (p : ReportPanic) : Option α → Except ReportPanic α
  | some a => .ok a
  | none => .error p

/-- The hardware reports where its window ends; the driver wants its start. -/
def remapPsn (psn : Psn) : Psn := psn - (112 : UInt32)

namespace MetaReportQueueDesc

/-- The report in a descriptor. -/
def report : MetaReportQueueDesc → Except ReportPanic ReportMeta
  | .writePacketInfo d => do
    let pos ← orUnreachable .packetPos ((RdmaOpCode.fromU8 d.opCode).bind RdmaOpCode.packetPos)
    let headerType ← orUnreachable .headerType
      ((RdmaOpCode.fromU8 d.opCode).bind RdmaOpCode.headerType)
    return .headerWrite
      { pos
        msn := d.msn
        psn := d.psn
        solicited := d.solicited
        ackReq := d.ackReq
        isRetry := d.isRetry
        dqpn := d.dqpn
        totalLen := d.totalLen
        raddr := d.raddr
        rkey := d.rkey
        imm := d.immData
        headerType }
  | .readPacketInfo f n => .ok <| .headerRead
      { dqpn := f.dqpn
        raddr := f.raddr
        rkey := f.rkey
        totalLen := n.readTotalLen
        laddr := n.readLaddr
        lkey := n.readLkey
        ackReq := f.ackReq
        msn := f.msn
        psn := f.psn }
  | .cnpPacketInfo d => .ok <| .cnp ⟨d.dqpn⟩
  | .ack d =>
    match d.isSendByDriver, d.isSendByLocalHw with
    | true, false => .ok <| .ackRemoteDriver ⟨d.ackQpn, d.psnNow⟩
    | false, true => .ok <| .ackLocalHw ⟨d.ackQpn, remapPsn d.psnNow, d.bitmap⟩
    | _, _ => .error .invalidAckBranch
  | .nak f n =>
    match f.isSendByDriver, f.isSendByLocalHw with
    | true, false => .ok <| .nakRemoteDriver ⟨f.ackQpn, f.psnNow, f.psnBeforeSlide⟩
    | false, true => .ok <| .nakLocalHw
        ⟨f.ackQpn, f.ackMsn, remapPsn f.psnNow, f.bitmap, remapPsn f.psnBeforeSlide, n.bitmap⟩
    | false, false => .ok <| .nakRemoteHw
        ⟨f.ackQpn, f.ackMsn, remapPsn f.psnNow, f.bitmap, remapPsn f.psnBeforeSlide, n.bitmap⟩
    | true, true => .error .invalidNakBranch

end MetaReportQueueDesc

/-- The report in the descriptors that the ring gives. -/
def tryRecvMeta (ds : List Desc) : Except ReportPanic (Option ReportMeta) :=
  match MetaReportQueueDesc.fromBytes ds with
  | .error p => .error (.desc p)
  | .ok none => .ok none
  | .ok (some desc) => desc.report.map some

/-- The worker takes a report and handles it. -/
def MetaHandler.receive (h : MetaHandler) (ds : List Desc) : Except ReportPanic Handled :=
  match tryRecvMeta ds with
  | .error p => .error p
  | .ok none => .ok ⟨h, [], some ()⟩
  | .ok (some m) => .ok (h.handleMeta m)

/-! ## Marking a PSN -/

namespace PsnTracker

/-- The tracker after is the one before with the PSN at an offset marked, moved on past PSNs that
are all marked. -/
def Marks (t : PsnTracker) (offset : ℕ) (t' : PsnTracker) : Prop :=
  ∃ (w : List Bool) (k : ℕ), bitAt w offset = true ∧
  (∀ i, i ≠ offset → bitAt w i = bitAt t.inner i) ∧
    (∀ i < k, bitAt w i = true) ∧ t'.basePsn = t.basePsn + UInt32.ofNat k ∧
    ∀ i, bitAt t'.inner i = bitAt w (k + i)

variable {t : PsnTracker} {psn : Psn}

lemma add_zero_psn (h : t.basePsn.InRange) : t.basePsn + UInt32.ofNat 0 = t.basePsn := by
  refine Psn.ext_toNat ?_
  rw [Psn.add_val]
  exact Nat.mod_eq_of_lt h

/-- A window with one more bit, after it has moved on. -/
lemma tryAdvance_marks (hbase : t.basePsn.InRange) {w : List Bool} {offset : ℕ}
    (hset : bitAt w offset = true) (hother : ∀ i, i ≠ offset → bitAt w i = bitAt t.inner i) :
    t.Marks offset (tryAdvance { t with inner := w }).1 := by
  refine ⟨w, lead w, hset, hother, fun i hi => bitAt_of_lt_lead hi, ?_⟩
  by_cases hz : lead w = 0
  · have hz' : (firstZero w).getD w.length = 0 := hz
    simp only [tryAdvance, hz', if_true, hz, Nat.zero_add]
    exact ⟨(add_zero_psn hbase).symm, fun i => trivial⟩
  · have hz' : ¬ (firstZero w).getD w.length = 0 := hz
    simp only [tryAdvance, hz', if_false]
    refine ⟨rfl, fun i => ?_⟩
    rw [bitAt_shiftLeft, Nat.add_comm]
    rfl

/-- **Acknowledging the PSN at an offset marks it.** -/
lemma ackOne_marks (hbase : t.basePsn.InRange) {r : ℕ} (hr : usizeTryFrom (t.rstart psn) = some r) :
    t.Marks r (t.ackOne psn).1 := by
  have hgrow : ∀ j, bitAt (if r ≥ t.inner.length then resize t.inner (r + 1) false else t.inner) j
      = bitAt t.inner j := by
    intro j
    split
    · exact bitAt_resize (by omega) j
    · rfl
  have hlen :
      r < (if r ≥ t.inner.length then resize t.inner (r + 1) false else t.inner).length := by
    split
    · simp
    · omega
  simp only [ackOne, hr]
  refine tryAdvance_marks hbase ?_ ?_
  · rw [bitAt_set hlen]
    simp
  · intro i hi
    rw [bitAt_set hlen, hgrow, decide_eq_false hi, Bool.or_false]

/-- A tracker in which a PSN is marked already. -/
lemma marks_self (hbase : t.basePsn.InRange) {offset : ℕ} (hset : bitAt t.inner offset = true) :
    t.Marks offset t :=
  ⟨t.inner, 0, hset, fun _ _ => rfl, fun i hi => absurd hi (Nat.not_lt_zero i),
    (add_zero_psn hbase).symm, fun i => by rw [Nat.zero_add]⟩

/-- A tracker that stays as it is has the PSN marked already: a finite window cannot repeat. -/
lemma bitAt_of_marks_self {offset : ℕ} (h : t.Marks offset t) : bitAt t.inner offset = true := by
  obtain ⟨w, k, hset, hother, hlead, hmoved, hbits⟩ := h
  have hround : k % 2 ^ 24 = 0 := by
    have hval := congrArg (fun p : Psn => p.val.toNat) hmoved
    rw [Psn.add_val, UInt32.toNat_ofNat'] at hval
    omega
  rcases Nat.eq_zero_or_pos k with rfl | hpos
  · rw [hbits offset, Nat.zero_add]
    exact hset
  · -- a bit in another residue class than the offset would be set again and again
    obtain ⟨i, hik, hne⟩ : ∃ i < k, i ≠ offset % k := by
      by_cases hz : offset % k = 0
      · exact ⟨1, by omega, by omega⟩
      · exact ⟨0, hpos, Ne.symm hz⟩
    have hagain : ∀ m, bitAt w (i + m * k) = true := by
      intro m
      induction m with
      | zero => rw [Nat.zero_mul, Nat.add_zero]; exact hlead i hik
      | succ m ih =>
        have hother' : i + m * k ≠ offset := by
          rintro rfl
          rw [Nat.add_mul_mod_self_right, Nat.mod_eq_of_lt hik] at hne
          exact hne rfl
        rw [show i + (m + 1) * k = k + (i + m * k) by ring, ← hbits, ← hother _ hother']
        exact ih
    have hend : w.length ≤ i + w.length * k := by
      have := Nat.le_mul_of_pos_right w.length hpos
      omega
    have := hagain w.length
    rw [bitAt_of_le hend] at this
    cases this

end PsnTracker

/-! ## Packets are accounted for -/

/-- The events that some outputs register. -/
def registrations (outs : List Output) : List (UInt32 × Event) :=
  outs.filterMap fun
    | .completion (.register qpn event) => some (qpn, event)
    | _ => none

/-- How far a PSN is ahead of another. -/
def Psn.ahead (base psn : Psn) : ℕ := (psn - base).val.toNat

/-- A packet is accounted for: the worker goes on, the PSN is marked in the tracker of the queue
pair unless it is before its base, and an event is registered exactly for the last packet of a
message. -/
structure Accounted (d : Desc) (tracker : LocalAckTracker) (r : Handled) : Prop where
  alive : r.handler.panicked = none
  marked : d.psn < tracker.basePsn ∨ ∃ tracker', r.handler.recvTable.getQp d.dqpn = some tracker' ∧
    tracker.psnTracker.Marks (tracker.basePsn.ahead d.psn) tracker'.psnTracker
  registered : registrations r.outs ≠ [] ↔
    ((RdmaOpCode.fromU8 d.opCode).bind RdmaOpCode.packetPos).map PacketPos.isEnd = some true
  once : (registrations r.outs).length ≤ 1
  owner : ∀ x ∈ registrations r.outs, x.1 = d.dqpn

/-- What a data packet has to be: not marked for congestion, not a send that invalidates a key, and
with a PSN that is before the base, marked already, or less than half the circle ahead without
passing zero. -/
structure AccountedWhen (d : Desc) (op : RdmaOpCode) (tracker : LocalAckTracker) : Prop where
  ecn : d.ecnMarked = false
  opcode : op.invalidates = false
  psn : d.psn < tracker.basePsn ∨
    bitAt tracker.psnTracker.inner (tracker.basePsn.ahead d.psn) = true ∨
    tracker.basePsn.val.toNat ≤ d.psn.val.toNat ∧ d.psn.val.toNat < tracker.basePsn.val.toNat +
      2 ^ 23

section Chain

variable {h : MetaHandler} {d : Desc} {op : RdmaOpCode} {tracker : LocalAckTracker}

/-- A data packet that is not marked and does not invalidate comes to the handler. -/
lemma receive_data (hop : RdmaOpCode.fromU8 d.opCode = some op) (hdata : op.isData = true)
    (hecn : d.ecnMarked = false) (hinv : op.invalidates = false) :
    ∃ pos headerType, op.packetPos = some pos ∧ op.headerType = some headerType ∧
      h.receive [d] = .ok (h.handleMeta (.headerWrite
        ⟨pos, d.msn, d.psn, d.solicited, d.ackReq, d.isRetry, d.dqpn, d.totalLen, d.raddr, d.rkey,
          d.immData, headerType⟩)) := by
  have hpacket : op.isPacket = true := by
    cases op <;> first | rfl | exact absurd hdata (by decide) | exact absurd hinv (by decide)
  have hbytes : MetaReportQueueDesc.fromBytes [d] = .ok (some (.writePacketInfo d)) := by
    simp [MetaReportQueueDesc.fromBytes, Desc.first, Desc.kind, hop, hpacket, hecn, bind,
      Except.bind, pure, Except.pure]
  obtain ⟨pos, hpos⟩ : ∃ pos, op.packetPos = some pos := by
    cases op <;> first | exact ⟨_, rfl⟩ | exact absurd hdata (by decide)
  obtain ⟨headerType, htype⟩ : ∃ headerType, op.headerType = some headerType := by
    cases op <;>
      first | exact ⟨_, rfl⟩ | exact absurd hdata (by decide) | exact absurd hinv (by decide)
  refine ⟨pos, headerType, hpos, htype, ?_⟩
  simp [MetaHandler.receive, tryRecvMeta, hbytes, MetaReportQueueDesc.report, hop, hpos, htype,
    orUnreachable, bind, Except.bind, pure, Except.pure, Except.map]

/-- A packet that is marked for congestion ends the worker. -/
lemma receive_ecn (hop : RdmaOpCode.fromU8 d.opCode = some op) (hinv : op.isPacket = true)
    (halive : h.panicked = none) (hecn : d.ecnMarked = true) {r : Handled}
    (hr : h.receive [d] = .ok r) : r.handler.panicked ≠ none := by
  have hbytes : MetaReportQueueDesc.fromBytes [d] = .ok (some (.cnpPacketInfo d)) := by
    simp [MetaReportQueueDesc.fromBytes, Desc.first, Desc.kind, hop, hinv, hecn, bind,
      Except.bind, pure, Except.pure]
  simp only [MetaHandler.receive, tryRecvMeta, hbytes, MetaReportQueueDesc.report, Except.map] at hr
  obtain rfl := Except.ok.inj hr
  simp [MetaHandler.handleMeta, halive]

/-- A send that invalidates a key is not read at all. -/
lemma receive_invalidate (hop : RdmaOpCode.fromU8 d.opCode = some op)
    (hinv : op.invalidates = true) : h.receive [d] = .error (.desc .opcodeUnsupported) := by
  have hbytes : MetaReportQueueDesc.fromBytes [d] = .error .opcodeUnsupported := by
    cases op <;> cases hinv <;> simp [MetaReportQueueDesc.fromBytes, Desc.first, Desc.kind, hop,
      RdmaOpCode.isPacket, RdmaOpCode.isAck, bind, Except.bind]
  rw [MetaHandler.receive, tryRecvMeta, hbytes]

/-- The offset at which the tracker marks a PSN that it does not take for an old one. -/
lemma rstart_cases (hbase : tracker.basePsn.InRange) (hpsn : d.psn.InRange) :
    (tracker.basePsn.val.toNat ≤ d.psn.val.toNat ∧ d.psn.val.toNat < tracker.basePsn.val.toNat +
      2 ^ 23 ∧
      usizeTryFrom (tracker.psnTracker.rstart d.psn) = some (tracker.basePsn.ahead d.psn)) ∨
    (¬ (tracker.basePsn.val.toNat ≤ d.psn.val.toNat ∧ d.psn.val.toNat < tracker.basePsn.val.toNat +
      2 ^ 23) ∧ usizeTryFrom (tracker.psnTracker.rstart d.psn) = none) := by
  have hstart := PsnTracker.rstart_eq (t := tracker.psnTracker) hbase hpsn
  have hahead := Psn.sub_val d.psn tracker.basePsn
  simp only [Psn.InRange, LocalAckTracker.basePsn] at *
  rw [hstart, Psn.ahead, hahead]
  unfold usizeTryFrom
  split <;> split <;> first
    | exact .inl ⟨by omega, by omega, congrArg some (by omega)⟩
    | exact .inr ⟨by omega, rfl⟩

/-- What the handler does with a packet of a queue pair that it knows. -/
lemma handleMeta_data (halive : h.panicked = none) {x : HeaderWriteMeta}
    (hqp : h.recvTable.getQp x.dqpn = some tracker) :
    (h.handleMeta (.headerWrite x)).handler.panicked = none ∧
    (h.handleMeta (.headerWrite x)).handler.recvTable.getQp x.dqpn = some (tracker.ackOne x.psn).1 ∧
    registrations (h.handleMeta (.headerWrite x)).outs =
      if x.pos.isEnd then [(x.dqpn, .recv x.event)] else [] := by
  have hindex : qpnToIndex x.dqpn < maxQpCnt := by
    by_contra hlarge
    rw [QpTable.getQp, dif_neg hlarge] at hqp
    cases hqp
  have hmove : ∀ r : Option Psn, registrations
      (MetaHandler.onMove r (MetaHandler.receiverUpdates x.dqpn)) = [] := by
    intro r
    cases r <;> rfl
  simp only [MetaHandler.handleMeta, halive, Option.isSome_none, Bool.false_eq_true, if_false,
    MetaHandler.handleHeaderWrite, hqp]
  refine ⟨trivial, ?_, ?_⟩
  · rw [QpTable.getQp_setQp, if_pos ⟨rfl, hindex⟩]
  · have happend : ∀ a b, registrations (a ++ b) = registrations a ++ registrations b :=
      fun a b => List.filterMap_append
    show registrations ((if x.pos.isEnd then _ else _) ++ _ ++ _) = _
    rw [happend, happend, hmove]
    split <;> split <;> rfl

/-- **When a data packet is accounted for.**  For every descriptor of a send, write or read response
packet of a queue pair that exists, and every state of its tracker. -/
theorem packet_accounted_iff (hop : RdmaOpCode.fromU8 d.opCode = some op) (hdata : op.isData = true)
    (halive : h.panicked = none) (hqp : h.recvTable.getQp d.dqpn = some tracker)
    (hbase : tracker.basePsn.InRange) :
    (∃ r, h.receive [d] = .ok r ∧ Accounted d tracker r) ↔ AccountedWhen d op tracker := by
  have hbind : (RdmaOpCode.fromU8 d.opCode).bind RdmaOpCode.packetPos = op.packetPos := by
    rw [hop]
    rfl
  by_cases hinv : op.invalidates = true
  · refine iff_of_false ?_ (fun hwhen => absurd (hinv.symm.trans hwhen.opcode) nofun)
    rintro ⟨r, hr, -⟩
    rw [receive_invalidate hop hinv] at hr
    cases hr
  by_cases hecn : d.ecnMarked = true
  · refine iff_of_false ?_ (fun hwhen => absurd (hecn.symm.trans hwhen.ecn) nofun)
    rintro ⟨r, hr, haccounted⟩
    have hpacket : op.isPacket = true := by
      cases op <;> first | rfl | exact absurd hdata (by decide) | exact absurd rfl hinv
    exact receive_ecn hop hpacket halive hecn hr haccounted.alive
  rw [Bool.not_eq_true] at hinv hecn
  obtain ⟨pos, headerType, hpos, -, hreceive⟩ := receive_data (h := h) hop hdata hecn hinv
  rw [hreceive]
  generalize hx :
    HeaderWriteMeta.mk pos d.msn d.psn d.solicited d.ackReq d.isRetry d.dqpn d.totalLen d.raddr
    d.rkey d.immData headerType = x
  have hdqpn : d.dqpn = x.dqpn := by rw [← hx]
  have hpsn : d.psn = x.psn := by rw [← hx]
  have hxpos : x.pos = pos := by rw [← hx]
  obtain ⟨hpanicked, hrecv, hregistered⟩ := handleMeta_data halive (x := x) (hdqpn ▸ hqp)
  have haccounted : Accounted d tracker (h.handleMeta (.headerWrite x)) ↔ (d.psn < tracker.basePsn ∨
      tracker.psnTracker.Marks (tracker.basePsn.ahead d.psn)
        (tracker.psnTracker.ackOne d.psn).1) := by
    constructor
    · rintro ⟨-, hmarked, -, -, -⟩
      refine hmarked.imp id ?_
      rintro ⟨tracker', hget, hmarks⟩
      rw [hdqpn, hrecv, ← hpsn] at hget
      obtain rfl := Option.some.inj hget
      exact hmarks
    · intro hmarked
      refine ⟨hpanicked, hmarked.imp id fun hmarks => ⟨_, hdqpn ▸ hrecv, hpsn ▸ hmarks⟩, ?_, ?_, ?_⟩
      · rw [hregistered, hbind, hpos, hxpos]
        cases pos <;> simp [PacketPos.isEnd]
      · rw [hregistered]
        split <;> simp
      · rw [hregistered, hdqpn]
        split <;> simp
  have hmarked : (d.psn < tracker.basePsn ∨ tracker.psnTracker.Marks (tracker.basePsn.ahead d.psn)
      (tracker.psnTracker.ackOne d.psn).1) ↔ AccountedWhen d op tracker := by
    rcases rstart_cases hbase d.psn_inRange with ⟨hle, hlt, hsome⟩ | ⟨hout, hnone⟩
    · exact iff_of_true (.inr (PsnTracker.ackOne_marks hbase hsome))
        ⟨hecn, hinv, .inr (.inr ⟨hle, hlt⟩)⟩
    · rw [PsnTracker.ackOne_of_none hnone]
      constructor
      · rintro (hbefore | hmarks)
        · exact ⟨hecn, hinv, .inl hbefore⟩
        · exact ⟨hecn, hinv, .inr (.inl (PsnTracker.bitAt_of_marks_self hmarks))⟩
      · rintro ⟨-, -, hbefore | hset | hin⟩
        · exact .inl hbefore
        · exact .inr (PsnTracker.marks_self hbase hset)
        · exact absurd hin hout
  rw [← hmarked, ← haccounted]
  constructor
  · rintro ⟨r, hr, hr'⟩
    obtain rfl := Except.ok.inj hr
    exact hr'
  · exact fun hr => ⟨_, rfl, hr⟩

end Chain

/-- The only packet of a write of 64 bytes to queue pair 0, marked for congestion or not. -/
def onlyWrite (ecn : Bool) : Desc :=
  ⟨0x500000000, 0x1000, 64, 0x800A000000000000 ||| if ecn then 0x80 else 0⟩

/-- A send of one packet that invalidates a key. -/
def invalidatingSend : Desc := ⟨0, 0, 64, 0x8017000000000000⟩

/-- The packet with PSN 0, where the tracker waits for PSN 0xFFFFFF. -/
def wrappedTracker : LocalAckTracker := ⟨⟨⟨0xFFFFFF⟩, []⟩, ⟨0⟩⟩

/-- A packet marked for congestion ends the worker, a send that invalidates a key ends it in
`from_bytes`, and a packet across the wrap of the PSN is not marked. -/
theorem packet_not_accounted :
    ((default : MetaHandler).receive [onlyWrite true]).map (·.handler.panicked) =
      .ok (some "not yet implemented") ∧
    ((default : MetaHandler).receive [invalidatingSend]).map (·.handler.panicked) =
      .error (.desc .opcodeUnsupported) ∧
    RdmaOpCode.fromU8 (onlyWrite true).opCode = some .rdmaWriteOnly ∧
    RdmaOpCode.fromU8 invalidatingSend.opCode = some .sendOnlyWithInvalidate ∧
    wrappedTracker.basePsn.ahead (onlyWrite false).psn = 1 ∧
    (wrappedTracker.ackOne (onlyWrite false).psn) = (wrappedTracker, none) := by
  decide +kernel

theorem packet_accounted_iff_only_write :
    ∃ r, (default : MetaHandler).receive [onlyWrite false] = .ok r ∧
      Accounted (onlyWrite false) default r := by
  have hop : RdmaOpCode.fromU8 (onlyWrite false).opCode = some .rdmaWriteOnly := by decide +kernel
  refine (packet_accounted_iff hop rfl rfl ?_ (by decide)).2
    ⟨by decide, rfl, .inr (.inr ⟨by decide, by decide⟩)⟩
  have hdqpn : (onlyWrite false).dqpn = 0 := by decide +kernel
  rw [hdqpn]
  rfl

end OpenRdma
