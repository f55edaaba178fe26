import OpenRdma.Tx.MvpTables

/-!
# The submission pipeline of the transmit path

A decoded submission becomes a work request once its payload slot is known, an admitted request once
its memory region is known, and a parsed request once its PSNs are reserved.  A parsed request is
translated page by page, and every page fragment is cut into bursts of at most 1024 bytes that do
not cross a physical 4 KiB boundary.  The stages are joined by queues, and each may run whenever its
queues allow.

An assertion that fails stops the pipeline, so a rule fires only if its assertions hold.
-/

namespace OpenRdma

namespace Mvp

/-- A submission: the queue pair and a token. -/
structure DecodedGdrpSubmission where
  qpn : TxQpn
  token : BitVec 64
deriving DecidableEq, Repr

/-- A submission with its slot. -/
structure TxWorkRequest where
  qpn : TxQpn
  slotId : TxSlotId
  debugSeq : BitVec 4
  localLkey : TxLocalLkey
  localOffset : BitVec 64
  remoteAddr : BitVec 64
  len : TxLength
  remoteKey : BitVec 32
deriving DecidableEq, Repr

/-- A work request with its region. -/
structure MrAdmittedRequest where
  work : TxWorkRequest
  localVa : BitVec 64
  mrBaseVa : BitVec 64
  pgtOffset : TxPteIndex
  pageShift : BitVec 6
deriving DecidableEq, Repr

/-- A request that is ready to be translated. -/
structure ParsedTxRequest where
  requestId : TxRequestId
  qpn : TxQpn
  slotId : TxSlotId
  debugSeq : BitVec 4
  pmtu : TxPmtuCode
  startPsn : TxPsn
  psnCount : TxPsnCount
  localVa : BitVec 64
  mrBaseVa : BitVec 64
  pgtOffset : TxPteIndex
  pageShift : BitVec 6
  remoteAddr : BitVec 64
  len : TxLength
  remoteKey : BitVec 32
deriving DecidableEq, Repr

/-- A part of a request on one page, before its page is looked up. -/
structure PendingPgtFragment where
  parsed : ParsedTxRequest
  pageOffset : BitVec 64
  currentRemoteAddr : BitVec 64
  fragmentLen : TxLength
  isFirst : Bool
  isLast : Bool
  pteIndex : BitVec 64
deriving DecidableEq, Repr

/-- A part of a request on one page, at its physical address. -/
structure TranslatedPageFragment where
  requestId : TxRequestId
  qpn : TxQpn
  slotId : TxSlotId
  debugSeq : BitVec 4
  pmtu : TxPmtuCode
  startPsn : TxPsn
  psnCount : TxPsnCount
  messageLength : TxLength
  physicalAddr : BitVec 64
  remoteAddr : BitVec 64
  len : TxLength
  remoteKey : BitVec 32
  isFirst : Bool
  isLast : Bool
deriving DecidableEq, Repr

/-- A read of the local memory. -/
structure TxDmaReadRequest where
  requestId : TxRequestId
  qpn : TxQpn
  slotId : TxSlotId
  debugSeq : BitVec 4
  pmtu : TxPmtuCode
  startPsn : TxPsn
  psnCount : TxPsnCount
  messageLength : TxLength
  dmaSeq : TxDmaSeq
  physicalAddr : BitVec 64
  remoteAddr : BitVec 64
  len : TxLength
  remoteKey : BitVec 32
  isFirst : Bool
  isLast : Bool
deriving DecidableEq, Repr

/-- Pages of 4 KiB and of 2 MiB. -/
def txPageShiftIsValid (pageShift : BitVec 6) : Bool := pageShift == 12 || pageShift == 21

def txPageBytes : BitVec 6 → BitVec 64
  | 12 => 4096
  | 21 => 2097152
  | _ => 0

/-- The last byte is past the end of the addresses. -/
def txAddressOverflows (base : BitVec 64) (len : TxLength) : Bool :=
  (base.setWidth 65 + len.setWidth 65 - 1 : BitVec 65).msb

/-! ## From a submission to a work request -/

namespace DecodedGdrpSubmission

/-- The fields of a token. -/
def flags (req : DecodedGdrpSubmission) : BitVec 8 := req.token.extractLsb' 0 8

def lenField (req : DecodedGdrpSubmission) : BitVec 32 := req.token.extractLsb' 8 32

def slotId (req : DecodedGdrpSubmission) : TxSlotId := req.token.extractLsb' 40 18

def opcode (req : DecodedGdrpSubmission) : BitVec 2 := req.token.extractLsb' 58 2

def debugSeq (req : DecodedGdrpSubmission) : BitVec 4 := req.token.extractLsb' 60 4

/-- A length of zero stands for 16 MiB. -/
def resolvedLen (req : DecodedGdrpSubmission) : TxLength :=
  if req.lenField = 0 then 0x1000000 else req.lenField.setWidth 25

end DecodedGdrpSubmission

/-- Submissions, joined with their slots. -/
structure SubmissionFrontend where
  submissionQ : Fifo DecodedGdrpSubmission 2
  pendingQ : Fifo DecodedGdrpSubmission 2
  workQ : Fifo TxWorkRequest 2
  slotReqQ : Fifo SlotQueryReq 2
  slotRespQ : Fifo SlotQueryResp 2

namespace SubmissionFrontend

/-- The slot of a submission is asked for. -/
def issueSlotQuery (f : SubmissionFrontend) : Option SubmissionFrontend := do
  let (req, submissionQ) ← f.submissionQ.deq
  guard (req.qpn < 4)
  guard (req.flags = 0)
  guard (req.opcode = 0)
  guard (req.slotId < 16)
  return { f with
    submissionQ
    pendingQ := ← f.pendingQ.enq req
    slotReqQ := ← f.slotReqQ.enq { slotId := req.slotId } }

/-- What a submission and its slot ask for. -/
def work (req : DecodedGdrpSubmission) (slot : PayloadSlot) : TxWorkRequest where
  qpn := req.qpn
  slotId := req.slotId
  debugSeq := req.debugSeq
  localLkey := slot.localLkey
  localOffset := slot.localOffset
  remoteAddr := slot.remoteBase
  len := req.resolvedLen
  remoteKey := slot.remoteKey

/-- The slot arrives, and is checked. -/
def completeSlotQuery (f : SubmissionFrontend) : Option SubmissionFrontend := do
  let (req, pendingQ) ← f.pendingQ.deq
  let (resp, slotRespQ) ← f.slotRespQ.deq
  let slot := resp.entry
  guard (resp.slotId = req.slotId)
  guard slot.valid
  guard slot.allowWriteRelaxed
  guard (req.lenField ≤ 0x01000000)
  guard (req.resolvedLen ≤ slot.maxLen)
  guard (!txAddressOverflows slot.localOffset req.resolvedLen)
  guard (!txAddressOverflows slot.remoteBase req.resolvedLen)
  return { f with
    pendingQ
    slotRespQ
    workQ := ← f.workQ.enq (work req slot) }

end SubmissionFrontend

/-! ## From a work request to a parsed request -/

/-- Work requests, joined with regions and PSNs. -/
structure ProcessSubmission where
  nextRequestId : TxRequestId
  workQ : Fifo TxWorkRequest 2
  pendingMrQ : Fifo TxWorkRequest 2
  pendingQpQ : Fifo MrAdmittedRequest 2
  parsedQ : Fifo ParsedTxRequest 2
  mrReqQ : Fifo MrQueryReq 2
  mrRespQ : Fifo MrQueryResp 2
  qpReqQ : Fifo QpReserveReq 2
  qpRespQ : Fifo QpReserveResp 2

namespace ProcessSubmission

/-- The region of a work request is asked for. -/
def issueMrQuery (p : ProcessSubmission) : Option ProcessSubmission := do
  let (work, workQ) ← p.workQ.deq
  return { p with
    workQ
    pendingMrQ := ← p.pendingMrQ.enq work
    mrReqQ := ← p.mrReqQ.enq { localLkey := work.localLkey } }

/-- The local address, with a carry. -/
def localVaWide (work : TxWorkRequest) (mr : MrEntry) : BitVec 65 :=
  mr.baseVa.setWidth 65 + work.localOffset.setWidth 65

/-- The assertions on a work request and the region it names. -/
def admissible (work : TxWorkRequest) (resp : MrQueryResp) : Bool :=
  let mr := resp.entry
  let endOffset : BitVec 65 := work.localOffset.setWidth 65 + work.len.setWidth 65
  resp.localLkey = work.localLkey && txLocalLkeyMrIndex work.localLkey < 16 && mr.valid
    && mr.keyPart = txLocalLkeyKeyPart work.localLkey && mr.allowLocalRead
    && (!endOffset.msb && decide (endOffset ≤ mr.length.setWidth 65))
    && !(localVaWide work mr).msb && txPageShiftIsValid mr.pageShift

/-- A work request in its region. -/
def admitted (work : TxWorkRequest) (mr : MrEntry) : MrAdmittedRequest where
  work := work
  localVa := (localVaWide work mr).setWidth 64
  mrBaseVa := mr.baseVa
  pgtOffset := mr.pgtOffset
  pageShift := mr.pageShift

/-- The region arrives, and PSNs are asked for. -/
def completeMrQuery (p : ProcessSubmission) : Option ProcessSubmission := do
  let (work, pendingMrQ) ← p.pendingMrQ.deq
  let (resp, mrRespQ) ← p.mrRespQ.deq
  guard (admissible work resp)
  return { p with
    pendingMrQ
    mrRespQ
    pendingQpQ := ← p.pendingQpQ.enq (admitted work resp.entry)
    qpReqQ := ← p.qpReqQ.enq { qpn := work.qpn, len := work.len } }

/-- A request with its PSNs. -/
def parse (requestId : TxRequestId) (admitted : MrAdmittedRequest) (resp : QpReserveResp) :
    ParsedTxRequest where
  requestId := requestId
  qpn := admitted.work.qpn
  slotId := admitted.work.slotId
  debugSeq := admitted.work.debugSeq
  pmtu := resp.pmtu
  startPsn := resp.startPsn
  psnCount := resp.psnCount
  localVa := admitted.localVa
  mrBaseVa := admitted.mrBaseVa
  pgtOffset := admitted.pgtOffset
  pageShift := admitted.pageShift
  remoteAddr := admitted.work.remoteAddr
  len := admitted.work.len
  remoteKey := admitted.work.remoteKey

/-- The PSNs arrive. -/
def completeQpReserve (p : ProcessSubmission) : Option ProcessSubmission := do
  let (admitted, pendingQpQ) ← p.pendingQpQ.deq
  let (resp, qpRespQ) ← p.qpRespQ.deq
  guard (resp.qpn = admitted.work.qpn)
  return { p with
    pendingQpQ
    qpRespQ
    parsedQ := ← p.parsedQ.enq (parse p.nextRequestId admitted resp)
    nextRequestId := p.nextRequestId + 1 }

end ProcessSubmission

/-! ## From a parsed request to page fragments -/

/-- Requests are cut at pages, and each page is looked up. -/
structure AddressTranslator where
  translatedBytes : TxLength
  parsedQ : Fifo ParsedTxRequest 2
  pendingQ : Fifo PendingPgtFragment 1
  pageQ : Fifo TranslatedPageFragment 2
  pgtReqQ : Fifo PgtQueryReq 1
  pgtRespQ : Fifo PgtQueryResp 1

namespace AddressTranslator

/-- The bytes up to the end of the page or of the message. -/
def fragmentWide (parsed : ParsedTxRequest) (translatedBytes : TxLength) : BitVec 64 :=
  let pageBytes := txPageBytes parsed.pageShift
  let completed := translatedBytes.setWidth 64
  let remaining := parsed.len.setWidth 64 - completed
  let toPageEnd := pageBytes - ((parsed.localVa + completed) &&& (pageBytes - 1))
  if remaining < toPageEnd then remaining else toPageEnd

/-- The fragment that starts after the bytes translated. -/
def fragment (parsed : ParsedTxRequest) (translatedBytes : TxLength) : PendingPgtFragment :=
  let completed := translatedBytes.setWidth 64
  let currentVa := parsed.localVa + completed
  let virtualPageIndex :=
    (currentVa >>> parsed.pageShift.toNat) - (parsed.mrBaseVa >>> parsed.pageShift.toNat)
  { parsed := parsed
    pageOffset := currentVa &&& (txPageBytes parsed.pageShift - 1)
    currentRemoteAddr := parsed.remoteAddr + completed
    fragmentLen := (fragmentWide parsed translatedBytes).setWidth 25
    isFirst := decide (translatedBytes = 0)
    isLast := decide (fragmentWide parsed translatedBytes = parsed.len.setWidth 64 - completed)
    pteIndex := parsed.pgtOffset.setWidth 64 + virtualPageIndex }

/-- The next page is asked for. -/
def issuePgtQuery (a : AddressTranslator) : Option AddressTranslator := do
  let parsed ← a.parsedQ.first
  guard (txPageBytes parsed.pageShift ≠ 0)
  guard (fragmentWide parsed a.translatedBytes ≠ 0)
  let pending := fragment parsed a.translatedBytes
  return { a with
    pendingQ := ← a.pendingQ.enq pending
    pgtReqQ := ← a.pgtReqQ.enq { pteIndex := pending.pteIndex } }

/-- The physical address, with a carry. -/
def physicalWide (pending : PendingPgtFragment) (entry : PteEntry) : BitVec 65 :=
  entry.physicalPageBase.setWidth 65 + pending.pageOffset.setWidth 65

/-- The assertions on the answer of the page table. -/
def translates (pending : PendingPgtFragment) (resp : PgtQueryResp) : Bool :=
  resp.pteIndex = pending.pteIndex && resp.entry.valid
    && resp.entry.physicalPageBase &&& (txPageBytes pending.parsed.pageShift - 1) = 0
    && !(physicalWide pending resp.entry).msb

/-- A part of a request at its physical address. -/
def translated (pending : PendingPgtFragment) (entry : PteEntry) : TranslatedPageFragment where
  requestId := pending.parsed.requestId
  qpn := pending.parsed.qpn
  slotId := pending.parsed.slotId
  debugSeq := pending.parsed.debugSeq
  pmtu := pending.parsed.pmtu
  startPsn := pending.parsed.startPsn
  psnCount := pending.parsed.psnCount
  messageLength := pending.parsed.len
  physicalAddr := (physicalWide pending entry).setWidth 64
  remoteAddr := pending.currentRemoteAddr
  len := pending.fragmentLen
  remoteKey := pending.parsed.remoteKey
  isFirst := pending.isFirst
  isLast := pending.isLast

/-- The page arrives. -/
def completePgtQuery (a : AddressTranslator) : Option AddressTranslator := do
  let (pending, pendingQ) ← a.pendingQ.deq
  let (resp, pgtRespQ) ← a.pgtRespQ.deq
  guard (translates pending resp)
  let pageQ ← a.pageQ.enq (translated pending resp.entry)
  if pending.isLast then
    let (_, parsedQ) ← a.parsedQ.deq
    return { a with pendingQ, pgtRespQ, pageQ, parsedQ, translatedBytes := 0 }
  else
    return { a with
      pendingQ
      pgtRespQ
      pageQ
      translatedBytes := a.translatedBytes + pending.fragmentLen }

end AddressTranslator

/-! ## From page fragments to bursts -/

/-- Pages are cut into bursts. -/
structure PhysicalDmaBurstSplitter where
  pageConsumed : TxLength
  nextDmaSeq : TxDmaSeq
  pageQ : Fifo TranslatedPageFragment 2
  dmaQ : Fifo TxDmaReadRequest 2

namespace PhysicalDmaBurstSplitter

/-- What is left of a page. -/
def remaining (b : PhysicalDmaBurstSplitter) (page : TranslatedPageFragment) : BitVec 64 :=
  page.len.setWidth 64 - b.pageConsumed.setWidth 64

/-- The next burst: at most 1 KiB, within 4 KiB of memory. -/
def boundedBurstWide (b : PhysicalDmaBurstSplitter) (page : TranslatedPageFragment) : BitVec 64 :=
  let currentPhysicalAddr := page.physicalAddr + b.pageConsumed.setWidth 64
  let toPhysical4KiBBoundary : BitVec 64 :=
    4096 - (currentPhysicalAddr.extractLsb' 0 12).setWidth 64
  let burstWide := if b.remaining page < 1024 then b.remaining page else 1024
  if burstWide < toPhysical4KiBBoundary then burstWide else toPhysical4KiBBoundary

/-- The next burst is the last one of the page. -/
def pageFinished (b : PhysicalDmaBurstSplitter) (page : TranslatedPageFragment) : Bool :=
  b.boundedBurstWide page = b.remaining page

/-- The read of the next burst. -/
def request (b : PhysicalDmaBurstSplitter) (page : TranslatedPageFragment) : TxDmaReadRequest where
  requestId := page.requestId
  qpn := page.qpn
  slotId := page.slotId
  debugSeq := page.debugSeq
  pmtu := page.pmtu
  startPsn := page.startPsn
  psnCount := page.psnCount
  messageLength := page.messageLength
  dmaSeq := b.nextDmaSeq
  physicalAddr := page.physicalAddr + b.pageConsumed.setWidth 64
  remoteAddr := page.remoteAddr + b.pageConsumed.setWidth 64
  len := (b.boundedBurstWide page).setWidth 25
  remoteKey := page.remoteKey
  isFirst := page.isFirst && b.pageConsumed = 0
  isLast := page.isLast && b.pageFinished page

/-- A burst goes out. -/
def emitBurst (b : PhysicalDmaBurstSplitter) : Option PhysicalDmaBurstSplitter := do
  let (page, pageQ) ← b.pageQ.deq
  guard (b.remaining page ≠ 0)
  guard (b.boundedBurstWide page ≠ 0)
  guard (b.boundedBurstWide page ≤ 1024)
  let req := b.request page
  let dmaQ ← b.dmaQ.enq req
  return { b with
    dmaQ
    pageConsumed := if b.pageFinished page then 0 else b.pageConsumed + req.len
    nextDmaSeq := if req.isLast then 0 else b.nextDmaSeq + 1
    pageQ := if b.pageFinished page then pageQ else b.pageQ }

end PhysicalDmaBurstSplitter

/-! ## The pipeline -/

/-- The stages and the tables. -/
structure TxMvp where
  configPending : Bool
  slotTable : SlotTable
  qpState : QpState
  mrTable : MrTable
  pgtTable : PgtTable
  frontend : SubmissionFrontend
  processor : ProcessSubmission
  translator : AddressTranslator
  burstSplitter : PhysicalDmaBurstSplitter

/-- A request to one of the four configuration ports. -/
inductive MvpConfig where
  | slot (req : SlotCfgReq)
  | qp (req : QpCfgReq)
  | mr (req : MrCfgReq)
  | pgt (req : PgtCfgReq)
deriving DecidableEq, Repr

/-- The configuration ports. -/
inductive MvpPort where
  | slot
  | qp
  | mr
  | pgt
deriving DecidableEq, Repr

/-- The connections between the stages and the tables. -/
inductive MvpConnection where
  | slotRequest
  | slotResponse
  | work
  | mrRequest
  | mrResponse
  | reserveRequest
  | reserveResponse
  | parsed
  | pgtRequest
  | pgtResponse
  | page
deriving DecidableEq, Repr

/-- The rules and methods of the pipeline. -/
inductive MvpLabel where
  | submissionIn (req : DecodedGdrpSubmission)
  | configRequest (req : MvpConfig)
  | configResponse (port : MvpPort)
  | handleConfig (port : MvpPort)
  | slotHandleQuery
  | mrHandleQuery
  | pgtHandleQuery
  | handleReserve
  | issueSlotQuery
  | completeSlotQuery
  | issueMrQuery
  | completeMrQuery
  | completeQpReserve
  | issuePgtQuery
  | completePgtQuery
  | emitBurst
  | connect (c : MvpConnection)
  | dmaReadReqOut
deriving DecidableEq, Repr

namespace TxMvp

/-- After reset. -/
def initial : TxMvp where
  configPending := false
  slotTable := .initial
  qpState := .initial
  mrTable := .initial
  pgtTable := .initial
  frontend := ⟨.empty, .empty, .empty, .empty, .empty⟩
  processor := ⟨0, .empty, .empty, .empty, .empty, .empty, .empty, .empty, .empty⟩
  translator := ⟨0, .empty, .empty, .empty, .empty, .empty⟩
  burstSplitter := ⟨0, 0, .empty, .empty⟩

/-- At most one configuration request is under way. -/
def configRequest (m : TxMvp) (req : MvpConfig) : Option TxMvp := do
  guard (!m.configPending)
  match req with
  | .slot req =>
    return { m with
      configPending := true
      slotTable := { m.slotTable with cfgReqQ := ← m.slotTable.cfgReqQ.enq req } }
  | .qp req =>
    return { m with
      configPending := true
      qpState := { m.qpState with cfgReqQ := ← m.qpState.cfgReqQ.enq req } }
  | .mr req =>
    return { m with
      configPending := true
      mrTable := { m.mrTable with cfgReqQ := ← m.mrTable.cfgReqQ.enq req } }
  | .pgt req =>
    return { m with
      configPending := true
      pgtTable := { m.pgtTable with cfgReqQ := ← m.pgtTable.cfgReqQ.enq req } }

def configResponse (m : TxMvp) (port : MvpPort) : Option TxMvp := do
  guard m.configPending
  match port with
  | .slot =>
    let (_, cfgRespQ) ← m.slotTable.cfgRespQ.deq
    return { m with configPending := false, slotTable := { m.slotTable with cfgRespQ } }
  | .qp =>
    let (_, cfgRespQ) ← m.qpState.cfgRespQ.deq
    return { m with configPending := false, qpState := { m.qpState with cfgRespQ } }
  | .mr =>
    let (_, cfgRespQ) ← m.mrTable.cfgRespQ.deq
    return { m with configPending := false, mrTable := { m.mrTable with cfgRespQ } }
  | .pgt =>
    let (_, cfgRespQ) ← m.pgtTable.cfgRespQ.deq
    return { m with configPending := false, pgtTable := { m.pgtTable with cfgRespQ } }

def handleConfig (m : TxMvp) : MvpPort → Option TxMvp
  | .slot => m.slotTable.handleConfig.map ({ m with slotTable := · })
  | .qp => m.qpState.handleConfig.map ({ m with qpState := · })
  | .mr => m.mrTable.handleConfig.map ({ m with mrTable := · })
  | .pgt => m.pgtTable.handleConfig.map ({ m with pgtTable := · })

/-- A queue of one module feeds one of another. -/
def connect (m : TxMvp) : MvpConnection → Option TxMvp
  | .slotRequest => do
      let (slotReqQ, queryReqQ) ← m.frontend.slotReqQ.move m.slotTable.queryReqQ
      return { m with
        frontend := { m.frontend with slotReqQ }
        slotTable := { m.slotTable with queryReqQ } }
  | .slotResponse => do
      let (queryRespQ, slotRespQ) ← m.slotTable.queryRespQ.move m.frontend.slotRespQ
      return { m with
        frontend := { m.frontend with slotRespQ }
        slotTable := { m.slotTable with queryRespQ } }
  | .work => do
      let (sent, taken) ← m.frontend.workQ.move m.processor.workQ
      return { m with
        frontend := { m.frontend with workQ := sent }
        processor := { m.processor with workQ := taken } }
  | .mrRequest => do
      let (mrReqQ, queryReqQ) ← m.processor.mrReqQ.move m.mrTable.queryReqQ
      return { m with
        processor := { m.processor with mrReqQ }
        mrTable := { m.mrTable with queryReqQ } }
  | .mrResponse => do
      let (queryRespQ, mrRespQ) ← m.mrTable.queryRespQ.move m.processor.mrRespQ
      return { m with
        processor := { m.processor with mrRespQ }
        mrTable := { m.mrTable with queryRespQ } }
  | .reserveRequest => do
      let (qpReqQ, reserveReqQ) ← m.processor.qpReqQ.move m.qpState.reserveReqQ
      return { m with
        processor := { m.processor with qpReqQ }
        qpState := { m.qpState with reserveReqQ } }
  | .reserveResponse => do
      let (reserveRespQ, qpRespQ) ← m.qpState.reserveRespQ.move m.processor.qpRespQ
      return { m with
        processor := { m.processor with qpRespQ }
        qpState := { m.qpState with reserveRespQ } }
  | .parsed => do
      let (sent, taken) ← m.processor.parsedQ.move m.translator.parsedQ
      return { m with
        processor := { m.processor with parsedQ := sent }
        translator := { m.translator with parsedQ := taken } }
  | .pgtRequest => do
      let (pgtReqQ, queryReqQ) ← m.translator.pgtReqQ.move m.pgtTable.queryReqQ
      return { m with
        translator := { m.translator with pgtReqQ }
        pgtTable := { m.pgtTable with queryReqQ } }
  | .pgtResponse => do
      let (queryRespQ, pgtRespQ) ← m.pgtTable.queryRespQ.move m.translator.pgtRespQ
      return { m with
        translator := { m.translator with pgtRespQ }
        pgtTable := { m.pgtTable with queryRespQ } }
  | .page => do
      let (sent, taken) ← m.translator.pageQ.move m.burstSplitter.pageQ
      return { m with
        translator := { m.translator with pageQ := sent }
        burstSplitter := { m.burstSplitter with pageQ := taken } }

/-- A submission comes in. -/
def submissionIn (m : TxMvp) (req : DecodedGdrpSubmission) : Option TxMvp := do
  return { m with
    frontend := { m.frontend with submissionQ := ← m.frontend.submissionQ.enq req } }

/-- A read goes out. -/
def dmaReadReqOut (m : TxMvp) : Option (TxDmaReadRequest × TxMvp) := do
  let (req, dmaQ) ← m.burstSplitter.dmaQ.deq
  return (req, { m with burstSplitter := { m.burstSplitter with dmaQ } })

/-- The state after a rule or method, if it is ready. -/
def step (m : TxMvp) : MvpLabel → Option TxMvp
  | .submissionIn req => m.submissionIn req
  | .configRequest req => m.configRequest req
  | .configResponse port => m.configResponse port
  | .handleConfig port => m.handleConfig port
  | .slotHandleQuery => m.slotTable.handleQuery.map ({ m with slotTable := · })
  | .mrHandleQuery => m.mrTable.handleQuery.map ({ m with mrTable := · })
  | .pgtHandleQuery => m.pgtTable.handleQuery.map ({ m with pgtTable := · })
  | .handleReserve => m.qpState.handleReserve.map ({ m with qpState := · })
  | .issueSlotQuery => m.frontend.issueSlotQuery.map ({ m with frontend := · })
  | .completeSlotQuery => m.frontend.completeSlotQuery.map ({ m with frontend := · })
  | .issueMrQuery => m.processor.issueMrQuery.map ({ m with processor := · })
  | .completeMrQuery => m.processor.completeMrQuery.map ({ m with processor := · })
  | .completeQpReserve => m.processor.completeQpReserve.map ({ m with processor := · })
  | .issuePgtQuery => m.translator.issuePgtQuery.map ({ m with translator := · })
  | .completePgtQuery => m.translator.completePgtQuery.map ({ m with translator := · })
  | .emitBurst => m.burstSplitter.emitBurst.map ({ m with burstSplitter := · })
  | .connect c => m.connect c
  | .dmaReadReqOut => m.dmaReadReqOut.map (·.2)

end TxMvp

/-! ## Histories -/

/-- What the tables answered and what the stages put out, in order. -/
structure MvpHistory where
  submissions : List DecodedGdrpSubmission
  slotAnswers : List SlotQueryResp
  works : List TxWorkRequest
  mrAnswers : List MrQueryResp
  /-- Admitted requests, each with the entry it was admitted by. -/
  admitted : List (MrAdmittedRequest × MrEntry)
  reservations : List (QpReserveReq × QpReserveResp)
  /-- The reservations on a queue pair since it was last configured. -/
  since : TxQpIndex → List QpReserveResp
  parsed : List ParsedTxRequest
  pgtAnswers : List PgtQueryResp
  /-- The requests that were handed out. -/
  requests : List TxDmaReadRequest

def MvpHistory.initial : MvpHistory := ⟨[], [], [], [], [], [], fun _ => [], [], [], []⟩

namespace TxMvp

/-- What a firing adds to the history. -/
def observe (m : TxMvp) (l : MvpLabel) (h : MvpHistory) : MvpHistory :=
  match l with
  | .submissionIn req => { h with submissions := h.submissions ++ [req] }
  | .slotHandleQuery =>
    { h with slotAnswers := h.slotAnswers ++
        (m.slotTable.queryReqQ.first.bind (SlotTable.answer m.slotTable.entries)).toList }
  | .completeSlotQuery =>
    match m.frontend.pendingQ.first, m.frontend.slotRespQ.first with
    | some req, some resp =>
      { h with works := h.works ++ [SubmissionFrontend.work req resp.entry] }
    | _, _ => h
  | .mrHandleQuery =>
    { h with mrAnswers := h.mrAnswers ++
        (m.mrTable.queryReqQ.first.bind (MrTable.answer m.mrTable.entries)).toList }
  | .completeMrQuery =>
    match m.processor.pendingMrQ.first, m.processor.mrRespQ.first with
    | some work, some resp =>
      { h with admitted := h.admitted ++
        [(ProcessSubmission.admitted work resp.entry, resp.entry)] }
    | _, _ => h
  | .handleReserve =>
    match m.qpState.reserveReqQ.first with
    | some req =>
      let resp := m.qpState.reservation req
      let index : TxQpIndex := req.qpn.setWidth 2
      { h with
        reservations := h.reservations ++ [(req, resp)]
        since := Function.update h.since index (h.since index ++ [resp]) }
    | none => h
  | .handleConfig .qp =>
    match m.qpState.cfgReqQ.first with
    | some req => { h with since := Function.update h.since req.index [] }
    | none => h
  | .completeQpReserve =>
    match m.processor.pendingQpQ.first, m.processor.qpRespQ.first with
    | some admitted, some resp =>
      { h with parsed := h.parsed ++
          [ProcessSubmission.parse m.processor.nextRequestId admitted resp] }
    | _, _ => h
  | .pgtHandleQuery =>
    { h with pgtAnswers := h.pgtAnswers ++
        (m.pgtTable.queryReqQ.first.bind (PgtTable.answer m.pgtTable.entries)).toList }
  | .dmaReadReqOut => { h with requests := h.requests ++ handedOut m.dmaReadReqOut }
  | _ => h

end TxMvp

end Mvp

end OpenRdma
