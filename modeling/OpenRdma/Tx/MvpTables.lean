import OpenRdma.Core.Fifo
import OpenRdma.Core.Rules
import OpenRdma.Tx.Types

/-!
# The tables of the transmit path

A submission names a payload slot, the slot names a memory region, and the region names a range of
the page table.  Each of the three tables answers queries in order, from the entries it holds when a
query is handled, and takes new entries through a configuration port.  The state of the queue pairs
is a fourth table: a query to it reserves a range of PSNs.

An assertion that fails stops the pipeline, so a rule fires only if its assertions hold.
-/

namespace OpenRdma

open Function (update)

namespace Mvp

abbrev TxSlotId := BitVec 18
abbrev TxPsnCount := BitVec 17
abbrev TxRequestId := BitVec 16
abbrev TxDmaSeq := BitVec 16
abbrev TxQpIndex := BitVec 2
abbrev TxSlotIndex := BitVec 4
abbrev TxPteIndex := BitVec 7
abbrev TxMrLookupIndex := BitVec 13
abbrev TxMrKeyPart := BitVec 19
abbrev TxLocalLkey := BitVec 32

/-- What a slot is for. -/
structure PayloadSlot where
  valid : Bool
  allowWriteRelaxed : Bool
  localLkey : TxLocalLkey
  localOffset : BitVec 64
  remoteBase : BitVec 64
  maxLen : TxLength
  remoteKey : BitVec 32
deriving DecidableEq, Repr, Inhabited

/-- The configuration of a queue pair. -/
structure QpEntry where
  valid : Bool
  pmtu : TxPmtuCode
  initialPsn : TxPsn
deriving DecidableEq, Repr, Inhabited

/-- A memory region. -/
structure MrEntry where
  valid : Bool
  keyPart : TxMrKeyPart
  allowLocalRead : Bool
  baseVa : BitVec 64
  length : BitVec 64
  pgtOffset : TxPteIndex
  pageShift : BitVec 6
deriving DecidableEq, Repr, Inhabited

/-- A page of a region. -/
structure PteEntry where
  valid : Bool
  physicalPageBase : BitVec 64
deriving DecidableEq, Repr, Inhabited

structure SlotCfgReq where
  index : TxSlotIndex
  entry : PayloadSlot
deriving DecidableEq, Repr

structure QpCfgReq where
  index : TxQpIndex
  entry : QpEntry
deriving DecidableEq, Repr

structure MrCfgReq where
  index : TxMrLookupIndex
  entry : MrEntry
deriving DecidableEq, Repr

structure PgtCfgReq where
  index : TxPteIndex
  entry : PteEntry
deriving DecidableEq, Repr

/-- Whether a configuration was accepted. -/
structure TxCfgResp where
  success : Bool
deriving DecidableEq, Repr

structure SlotQueryReq where
  slotId : TxSlotId
deriving DecidableEq, Repr

structure SlotQueryResp where
  slotId : TxSlotId
  entry : PayloadSlot
deriving DecidableEq, Repr

structure MrQueryReq where
  localLkey : TxLocalLkey
deriving DecidableEq, Repr

structure MrQueryResp where
  localLkey : TxLocalLkey
  entry : MrEntry
deriving DecidableEq, Repr

/-- PSNs for a message of a queue pair. -/
structure QpReserveReq where
  qpn : TxQpn
  len : TxLength
deriving DecidableEq, Repr

/-- The PSNs reserved, and the PMTU. -/
structure QpReserveResp where
  qpn : TxQpn
  pmtu : TxPmtuCode
  startPsn : TxPsn
  psnCount : TxPsnCount
deriving DecidableEq, Repr

structure PgtQueryReq where
  pteIndex : BitVec 64
deriving DecidableEq, Repr

structure PgtQueryResp where
  pteIndex : BitVec 64
  entry : PteEntry
deriving DecidableEq, Repr

/-- The two parts of a local key. -/
def txLocalLkeyMrIndex (lkey : TxLocalLkey) : TxMrLookupIndex := lkey.extractLsb' 0 13

def txLocalLkeyKeyPart (lkey : TxLocalLkey) : TxMrKeyPart := lkey.extractLsb' 13 19

/-- The codes of the five PMTUs. -/
def txPmtuIsValid (pmtu : TxPmtuCode) : Bool := pmtu ≤ 4

/-- The number of packets of a message, headers included in the path MTU. -/
def txPacketCount (len : TxLength) (pmtu : TxPmtuCode) : TxPsnCount :=
  let firstLimit := txPmtuBytes pmtu - 28
  let contLimit := txPmtuBytes pmtu - 12
  if len = 0 then 0
  else if len ≤ firstLimit.setWidth 25 then 1
  else
    let remaining : BitVec 26 := (len - firstLimit.setWidth 25).setWidth 26
    let divisor : BitVec 26 := contLimit.setWidth 26
    let continuation := (remaining + divisor - 1) / divisor
    1 + continuation.setWidth 17

/-! ## Lookup tables -/

/-- A table, its query port and its configuration port. -/
structure LookupTable (Index Entry Query Answer Cfg : Type) where
  entries : Index → Entry
  queryReqQ : Fifo Query 2
  queryRespQ : Fifo Answer 2
  cfgReqQ : Fifo Cfg 2
  cfgRespQ : Fifo TxCfgResp 2

namespace LookupTable

variable {Index Entry Query Answer Cfg : Type}

/-- After reset, with no entry. -/
def initial [Inhabited Entry] : LookupTable Index Entry Query Answer Cfg where
  entries := fun _ => default
  queryReqQ := .empty
  queryRespQ := .empty
  cfgReqQ := .empty
  cfgRespQ := .empty

/-- A query is answered from the entries, unless an assertion on it fails. -/
def handleQuery (answer : (Index → Entry) → Query → Option Answer)
    (t : LookupTable Index Entry Query Answer Cfg) :
    Option (LookupTable Index Entry Query Answer Cfg) := do
  let (req, queryReqQ) ← t.queryReqQ.deq
  let resp ← answer t.entries req
  return { t with queryReqQ, queryRespQ := ← t.queryRespQ.enq resp }

/-- An entry is replaced. -/
def handleConfig [DecidableEq Index] (place : Cfg → Option (Index × Entry))
    (t : LookupTable Index Entry Query Answer Cfg) :
    Option (LookupTable Index Entry Query Answer Cfg) := do
  let (req, cfgReqQ) ← t.cfgReqQ.deq
  let (index, entry) ← place req
  return { t with
    cfgReqQ
    entries := update t.entries index entry
    cfgRespQ := ← t.cfgRespQ.enq { success := true } }

variable {t t' : LookupTable Index Entry Query Answer Cfg}

/-- A query that was answered. -/
lemma handleQuery_eq_some {answer : (Index → Entry) → Query → Option Answer}
    (h : t.handleQuery answer = some t') :
    ∃ req resp, t.queryReqQ.elems = req :: t'.queryReqQ.elems ∧ answer t.entries req = some resp ∧
      t'.queryRespQ.elems = t.queryRespQ.elems ++ [resp] := by
  obtain ⟨⟨req, q⟩, hq, h⟩ := bind_eq_some.1 h
  obtain ⟨resp, hresp, h⟩ := bind_eq_some.1 h
  obtain ⟨r, hr, h⟩ := bind_eq_some.1 h
  cases h
  exact ⟨req, resp, Fifo.deq_eq_some hq, hresp, Fifo.enq_eq_some hr⟩

/-- Configuration does not touch the queries. -/
lemma handleConfig_queries [DecidableEq Index] {place : Cfg → Option (Index × Entry)}
    (h : t.handleConfig place = some t') :
    t'.queryReqQ = t.queryReqQ ∧ t'.queryRespQ = t.queryRespQ := by
  obtain ⟨⟨req, q⟩, -, h⟩ := bind_eq_some.1 h
  obtain ⟨⟨index, entry⟩, -, h⟩ := bind_eq_some.1 h
  obtain ⟨r, -, h⟩ := bind_eq_some.1 h
  cases h
  exact ⟨rfl, rfl⟩

end LookupTable

abbrev SlotTable := LookupTable TxSlotIndex PayloadSlot SlotQueryReq SlotQueryResp SlotCfgReq

abbrev MrTable := LookupTable (BitVec 4) MrEntry MrQueryReq MrQueryResp MrCfgReq

abbrev PgtTable := LookupTable TxPteIndex PteEntry PgtQueryReq PgtQueryResp PgtCfgReq

namespace SlotTable

/-- The slot, if it is valid. -/
def answer (entries : TxSlotIndex → PayloadSlot) (req : SlotQueryReq) : Option SlotQueryResp := do
  let index : TxSlotIndex := req.slotId.setWidth 4
  guard (req.slotId < 16)
  guard (entries index).valid
  return { slotId := req.slotId, entry := entries index }

def handleQuery (t : SlotTable) : Option SlotTable := LookupTable.handleQuery answer t

def handleConfig (t : SlotTable) : Option SlotTable :=
  LookupTable.handleConfig (fun req => some (req.index, req.entry)) t

end SlotTable

namespace MrTable

/-- The region, if it is valid. -/
def answer (entries : BitVec 4 → MrEntry) (req : MrQueryReq) : Option MrQueryResp := do
  let logicalIndex := txLocalLkeyMrIndex req.localLkey
  let physicalIndex : BitVec 4 := logicalIndex.setWidth 4
  guard (logicalIndex < 16)
  guard (entries physicalIndex).valid
  return { localLkey := req.localLkey, entry := entries physicalIndex }

/-- Only 16 of the indices that a key can name exist. -/
def place (req : MrCfgReq) : Option (BitVec 4 × MrEntry) := do
  guard (req.index < 16)
  return (req.index.setWidth 4, req.entry)

def handleQuery (t : MrTable) : Option MrTable := LookupTable.handleQuery answer t

def handleConfig (t : MrTable) : Option MrTable := LookupTable.handleConfig place t

end MrTable

namespace PgtTable

/-- The page, if it is valid. -/
def answer (entries : TxPteIndex → PteEntry) (req : PgtQueryReq) : Option PgtQueryResp := do
  let index : TxPteIndex := req.pteIndex.setWidth 7
  guard (req.pteIndex < 128)
  guard (entries index).valid
  return { pteIndex := req.pteIndex, entry := entries index }

def handleQuery (t : PgtTable) : Option PgtTable := LookupTable.handleQuery answer t

def handleConfig (t : PgtTable) : Option PgtTable :=
  LookupTable.handleConfig (fun req => some (req.index, req.entry)) t

end PgtTable

/-! ## Queue pairs -/

/-- The queue pairs, and their next PSNs. -/
structure QpState where
  entries : TxQpIndex → QpEntry
  nextPsn : TxQpIndex → TxPsn
  reserveReqQ : Fifo QpReserveReq 2
  reserveRespQ : Fifo QpReserveResp 2
  cfgReqQ : Fifo QpCfgReq 2
  cfgRespQ : Fifo TxCfgResp 2

namespace QpState

/-- After reset. -/
def initial : QpState where
  entries := fun _ => default
  nextPsn := fun _ => 0
  reserveReqQ := .empty
  reserveRespQ := .empty
  cfgReqQ := .empty
  cfgRespQ := .empty

/-- The answer to a reservation. -/
def reservation (s : QpState) (req : QpReserveReq) : QpReserveResp :=
  let index : TxQpIndex := req.qpn.setWidth 2
  { qpn := req.qpn
    pmtu := (s.entries index).pmtu
    startPsn := s.nextPsn index
    psnCount := txPacketCount req.len (s.entries index).pmtu }

/-- PSNs are reserved. -/
def handleReserve (s : QpState) : Option QpState := do
  guard (!s.cfgReqQ.notEmpty)
  let (req, reserveReqQ) ← s.reserveReqQ.deq
  let index : TxQpIndex := req.qpn.setWidth 2
  guard (req.qpn < 4)
  guard (s.entries index).valid
  guard (txPmtuIsValid (s.entries index).pmtu)
  let resp := s.reservation req
  return { s with
    reserveReqQ
    reserveRespQ := ← s.reserveRespQ.enq resp
    nextPsn := update s.nextPsn index (resp.startPsn + resp.psnCount.setWidth 24) }

/-- A queue pair is configured, from its first PSN on. -/
def handleConfig (s : QpState) : Option QpState := do
  let (req, cfgReqQ) ← s.cfgReqQ.deq
  return { s with
    cfgReqQ
    entries := update s.entries req.index req.entry
    nextPsn := update s.nextPsn req.index req.entry.initialPsn
    cfgRespQ := ← s.cfgRespQ.enq { success := true } }

variable {s s' : QpState}

/-- What a reservation does. -/
lemma handleReserve_eq_some (h : s.handleReserve = some s') :
    ∃ req, s.reserveReqQ.elems = req :: s'.reserveReqQ.elems ∧
      (s.entries (req.qpn.setWidth 2)).pmtu ≤ 4 ∧
      s'.reserveRespQ.elems = s.reserveRespQ.elems ++ [s.reservation req] ∧
      s'.nextPsn = update s.nextPsn (req.qpn.setWidth 2)
        (s.nextPsn (req.qpn.setWidth 2) + (s.reservation req).psnCount.setWidth 24) := by
  obtain ⟨-, h⟩ := guard_bind_eq_some.1 h
  obtain ⟨⟨req, q⟩, hq, h⟩ := bind_eq_some.1 h
  obtain ⟨-, h⟩ := guard_bind_eq_some.1 h
  obtain ⟨-, h⟩ := guard_bind_eq_some.1 h
  obtain ⟨hpmtu, h⟩ := guard_bind_eq_some.1 h
  obtain ⟨r, hr, h⟩ := bind_eq_some.1 h
  cases h
  exact ⟨req, Fifo.deq_eq_some hq, of_decide_eq_true hpmtu, Fifo.enq_eq_some hr, rfl⟩

/-- What a configuration does. -/
lemma handleConfig_eq_some (h : s.handleConfig = some s') :
    ∃ req, s.cfgReqQ.elems = req :: s'.cfgReqQ.elems ∧ s'.reserveReqQ = s.reserveReqQ ∧
      s'.reserveRespQ = s.reserveRespQ ∧
      s'.nextPsn = update s.nextPsn req.index req.entry.initialPsn := by
  obtain ⟨⟨req, q⟩, hq, h⟩ := bind_eq_some.1 h
  obtain ⟨r, -, h⟩ := bind_eq_some.1 h
  cases h
  exact ⟨req, Fifo.deq_eq_some hq, rfl, rfl, rfl⟩

end QpState

end Mvp

end OpenRdma
