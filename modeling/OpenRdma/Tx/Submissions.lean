import OpenRdma.Core.Pipelines
import OpenRdma.Tx.Mvp

/-!
# From submissions to parsed requests

Every stage of the pipeline works its input off in order, so the parsed request of a place belongs
to the submission, the work request, the admitted request and the reservation of the same place.
What a stage asserts when it joins an answer of a table holds of the parsed request from then on.

* **`parsed_spec`** — what is known of every parsed request.
-/

namespace OpenRdma

open Function (update update_self update_of_ne)

namespace Mvp

/-! ## What the assertions say -/

/-- A work request, from its submission. -/
structure FromSubmission (req : DecodedGdrpSubmission) (work : TxWorkRequest) : Prop where
  qpn : work.qpn = req.qpn
  slotId : work.slotId = req.slotId
  debugSeq : work.debugSeq = req.debugSeq
  len : work.len = req.resolvedLen
  pos : 0 < work.len.toNat
  le : work.len.toNat ≤ 2 ^ 24
  remote : work.remoteAddr.toNat + work.len.toNat ≤ 2 ^ 64

/-- A work request, from the slot that its submission names. -/
structure FromSlot (resp : SlotQueryResp) (work : TxWorkRequest) : Prop where
  slotId : resp.slotId = work.slotId
  valid : resp.entry.valid = true
  localLkey : work.localLkey = resp.entry.localLkey
  localOffset : work.localOffset = resp.entry.localOffset
  remoteAddr : work.remoteAddr = resp.entry.remoteBase
  remoteKey : work.remoteKey = resp.entry.remoteKey
  le : work.len ≤ resp.entry.maxLen

/-- The local range of an admitted request is inside its region. -/
structure InRegion (admitted : MrAdmittedRequest) (mr : MrEntry) : Prop where
  valid : mr.valid = true
  localRead : mr.allowLocalRead = true
  keyPart : mr.keyPart = txLocalLkeyKeyPart admitted.work.localLkey
  baseVa : admitted.mrBaseVa = mr.baseVa
  pgtOffset : admitted.pgtOffset = mr.pgtOffset
  pageShift : admitted.pageShift = mr.pageShift
  pages : mr.pageShift = 12 ∨ mr.pageShift = 21
  localVa : admitted.localVa.toNat = mr.baseVa.toNat + admitted.work.localOffset.toNat
  range : admitted.work.localOffset.toNat + admitted.work.len.toNat ≤ mr.length.toNat

/-- The length is in range. -/
lemma resolvedLen_toNat {req : DecodedGdrpSubmission} (h : req.lenField ≤ 0x01000000) :
    0 < req.resolvedLen.toNat ∧ req.resolvedLen.toNat ≤ 2 ^ 24 := by
  unfold DecodedGdrpSubmission.resolvedLen
  generalize req.lenField = f at h
  split
  · decide
  · rename_i hne
    have hpos : f.toNat ≠ 0 := fun hz => hne (BitVec.eq_of_toNat_eq hz)
    rw [BitVec.le_def] at h
    have hle : f.toNat ≤ 2 ^ 24 := h
    rw [BitVec.toNat_setWidth]
    omega

/-- The range ends within the addresses. -/
lemma of_not_txAddressOverflows {base : BitVec 64} {len : TxLength}
    (h : (!txAddressOverflows base len) = true) (hpos : 0 < len.toNat) :
    base.toNat + len.toNat ≤ 2 ^ 64 := by
  have hb := base.isLt
  have hl := len.isLt
  simp only [txAddressOverflows, Bool.not_eq_true', BitVec.msb_eq_decide, decide_eq_false_iff_not,
    BitVec.toNat_sub, BitVec.toNat_add, BitVec.toNat_setWidth, BitVec.ofNat_eq_ofNat,
    BitVec.toNat_ofNat] at h
  omega

/-- What is checked when the region arrives. -/
lemma inRegion_of_admissible {work : TxWorkRequest} {resp : MrQueryResp}
    (h : ProcessSubmission.admissible work resp = true) :
    InRegion (ProcessSubmission.admitted work resp.entry) resp.entry := by
  simp only [ProcessSubmission.admissible, Bool.and_eq_true, decide_eq_true_eq, Bool.not_eq_true',
    txPageShiftIsValid, Bool.or_eq_true, beq_iff_eq] at h
  obtain ⟨⟨⟨⟨⟨⟨⟨-, -⟩, hvalid⟩, hkey⟩, hread⟩, hend, hrange⟩, hva⟩, hshift⟩ := h
  have ho := work.localOffset.isLt
  have hl := work.len.isLt
  have hb := resp.entry.baseVa.isLt
  have hm := resp.entry.length.isLt
  refine ⟨hvalid, hread, hkey, rfl, rfl, rfl, hshift, ?_, ?_⟩
  · simp only [ProcessSubmission.localVaWide, BitVec.msb_eq_decide, decide_eq_false_iff_not,
      BitVec.toNat_add, BitVec.toNat_setWidth] at hva
    simp only [ProcessSubmission.admitted, ProcessSubmission.localVaWide, BitVec.toNat_setWidth,
      BitVec.toNat_add]
    omega
  · simp only [BitVec.le_def, BitVec.toNat_add, BitVec.toNat_setWidth] at hrange
    simp only [ProcessSubmission.admitted]
    omega

/-! ## The rules of the front stages -/

namespace SubmissionFrontend

variable {f f' : SubmissionFrontend}

lemma issueSlotQuery_eq_some (h : f.issueSlotQuery = some f') :
    ∃ req q r s, f.submissionQ.deq = some (req, q) ∧ f.pendingQ.enq req = some r ∧
      f' = { f with submissionQ := q, pendingQ := r, slotReqQ := s } := by
  obtain ⟨⟨req, q⟩, hq, h⟩ := bind_eq_some.1 h
  obtain ⟨-, h⟩ := guard_bind_eq_some.1 h
  obtain ⟨-, h⟩ := guard_bind_eq_some.1 h
  obtain ⟨-, h⟩ := guard_bind_eq_some.1 h
  obtain ⟨-, h⟩ := guard_bind_eq_some.1 h
  obtain ⟨r, hr, h⟩ := bind_eq_some.1 h
  obtain ⟨s, -, h⟩ := bind_eq_some.1 h
  exact ⟨req, q, r, s, hq, hr, (Option.some.inj h).symm⟩

/-- The work request is made of the two heads. -/
lemma completeSlotQuery_eq_some (h : f.completeSlotQuery = some f') :
    ∃ req resp q r w, f.pendingQ.deq = some (req, q) ∧ f.slotRespQ.deq = some (resp, r) ∧
      FromSubmission req (work req resp.entry) ∧ FromSlot resp (work req resp.entry) ∧
      f.workQ.enq (work req resp.entry) = some w ∧
      f' = { f with pendingQ := q, slotRespQ := r, workQ := w } := by
  obtain ⟨⟨req, q⟩, hq, h⟩ := bind_eq_some.1 h
  obtain ⟨⟨resp, r⟩, hr, h⟩ := bind_eq_some.1 h
  obtain ⟨hslot, h⟩ := guard_bind_eq_some.1 h
  obtain ⟨hvalid, h⟩ := guard_bind_eq_some.1 h
  obtain ⟨-, h⟩ := guard_bind_eq_some.1 h
  obtain ⟨hlen, h⟩ := guard_bind_eq_some.1 h
  obtain ⟨hmax, h⟩ := guard_bind_eq_some.1 h
  obtain ⟨-, h⟩ := guard_bind_eq_some.1 h
  obtain ⟨hremote, h⟩ := guard_bind_eq_some.1 h
  obtain ⟨w, hw, h⟩ := bind_eq_some.1 h
  obtain ⟨hpos, hle⟩ := resolvedLen_toNat hlen
  exact ⟨req, resp, q, r, w, hq, hr,
    ⟨rfl, rfl, rfl, rfl, hpos, hle, of_not_txAddressOverflows hremote hpos⟩,
    ⟨hslot, hvalid, rfl, rfl, rfl, rfl, hmax⟩, hw, (Option.some.inj h).symm⟩

end SubmissionFrontend

namespace ProcessSubmission

variable {p p' : ProcessSubmission}

lemma issueMrQuery_eq_some (h : p.issueMrQuery = some p') :
    ∃ work q r s, p.workQ.deq = some (work, q) ∧ p.pendingMrQ.enq work = some r ∧
      p' = { p with workQ := q, pendingMrQ := r, mrReqQ := s } := by
  obtain ⟨⟨work, q⟩, hq, h⟩ := bind_eq_some.1 h
  obtain ⟨r, hr, h⟩ := bind_eq_some.1 h
  obtain ⟨s, -, h⟩ := bind_eq_some.1 h
  exact ⟨work, q, r, s, hq, hr, (Option.some.inj h).symm⟩

/-- The admitted request is made of the two heads. -/
lemma completeMrQuery_eq_some (h : p.completeMrQuery = some p') :
    ∃ work resp q r a s, p.pendingMrQ.deq = some (work, q) ∧ p.mrRespQ.deq = some (resp, r) ∧
      resp.localLkey = work.localLkey ∧ InRegion (admitted work resp.entry) resp.entry ∧
      p.pendingQpQ.enq (admitted work resp.entry) = some a ∧
      p.qpReqQ.enq { qpn := work.qpn, len := work.len } = some s ∧
      p' = { p with pendingMrQ := q, mrRespQ := r, pendingQpQ := a, qpReqQ := s } := by
  obtain ⟨⟨work, q⟩, hq, h⟩ := bind_eq_some.1 h
  obtain ⟨⟨resp, r⟩, hr, h⟩ := bind_eq_some.1 h
  obtain ⟨hadm, h⟩ := guard_bind_eq_some.1 h
  obtain ⟨a, ha, h⟩ := bind_eq_some.1 h
  obtain ⟨s, hs, h⟩ := bind_eq_some.1 h
  refine ⟨work, resp, q, r, a, s, hq, hr, ?_, inRegion_of_admissible hadm, ha, hs,
    (Option.some.inj h).symm⟩
  simp only [admissible, Bool.and_eq_true, decide_eq_true_eq] at hadm
  exact hadm.1.1.1.1.1.1.1

/-- The parsed request is made of the two heads. -/
lemma completeQpReserve_eq_some (h : p.completeQpReserve = some p') :
    ∃ a resp q r s, p.pendingQpQ.deq = some (a, q) ∧ p.qpRespQ.deq = some (resp, r) ∧
      p.parsedQ.enq (parse p.nextRequestId a resp) = some s ∧
      p' = { p with
        pendingQpQ := q, qpRespQ := r, parsedQ := s, nextRequestId := p.nextRequestId + 1 } := by
  obtain ⟨⟨a, q⟩, hq, h⟩ := bind_eq_some.1 h
  obtain ⟨⟨resp, r⟩, hr, h⟩ := bind_eq_some.1 h
  obtain ⟨-, h⟩ := guard_bind_eq_some.1 h
  obtain ⟨s, hs, h⟩ := bind_eq_some.1 h
  exact ⟨a, resp, q, r, s, hq, hr, hs, (Option.some.inj h).symm⟩

end ProcessSubmission

/-! ## What the history records -/

namespace TxMvp

variable {m : TxMvp} {h : MvpHistory}

/-- A work request is recorded. -/
lemma observe_completeSlotQuery {req q resp r} (hq : m.frontend.pendingQ.deq = some (req, q))
    (hr : m.frontend.slotRespQ.deq = some (resp, r)) : m.observe .completeSlotQuery h =
      { h with works := h.works ++ [SubmissionFrontend.work req resp.entry] } := by
  simp [observe, Fifo.first, Fifo.deq_eq_some hq, Fifo.deq_eq_some hr]

/-- An admitted request is recorded. -/
lemma observe_completeMrQuery {work q resp r} (hq : m.processor.pendingMrQ.deq = some (work, q))
    (hr : m.processor.mrRespQ.deq = some (resp, r)) : m.observe .completeMrQuery h =
      { h with admitted := h.admitted ++
        [(ProcessSubmission.admitted work resp.entry, resp.entry)] } := by
  simp [observe, Fifo.first, Fifo.deq_eq_some hq, Fifo.deq_eq_some hr]

/-- A parsed request is recorded. -/
lemma observe_completeQpReserve {a q resp r} (hq : m.processor.pendingQpQ.deq = some (a, q))
    (hr : m.processor.qpRespQ.deq = some (resp, r)) : m.observe .completeQpReserve h =
      { h with parsed := h.parsed ++
        [ProcessSubmission.parse m.processor.nextRequestId a resp] } := by
  simp [observe, Fifo.first, Fifo.deq_eq_some hq, Fifo.deq_eq_some hr]

/-- A reservation is recorded. -/
lemma observe_handleReserve {req rest} (hreq : m.qpState.reserveReqQ.elems = req :: rest) :
    m.observe .handleReserve h = { h with
      reservations := h.reservations ++ [(req, m.qpState.reservation req)]
      since := update h.since (req.qpn.setWidth 2)
        (h.since (req.qpn.setWidth 2) ++ [m.qpState.reservation req]) } := by
  simp [observe, Fifo.first, hreq]

/-- The reservations start over. -/
lemma observe_handleConfig {req rest} (hq : m.qpState.cfgReqQ.elems = req :: rest) :
    m.observe (.handleConfig .qp) h = { h with since := update h.since req.index [] } := by
  simp [observe, Fifo.first, hq]

end TxMvp

/-! ## Reservations -/

/-- Every reservation starts where the one before ends. -/
def Adjacent (l : List QpReserveResp) : Prop :=
  ∀ (i : ℕ) (a b : QpReserveResp), l[i]? = some a → l[i + 1]? = some b →
    b.startPsn = a.startPsn + a.psnCount.setWidth 24

/-- The reservations of a queue pair, and the PSN that comes next. -/
structure PsnLog (next : TxPsn) (l : List QpReserveResp) : Prop where
  adjacent : Adjacent l
  next : ∀ a, l.getLast? = some a → next = a.startPsn + a.psnCount.setWidth 24

lemma psnLog_nil (next : TxPsn) : PsnLog next [] := ⟨nofun, nofun⟩

/-- One more reservation. -/
lemma PsnLog.concat {next : TxPsn} {l : List QpReserveResp} (h : PsnLog next l) {a : QpReserveResp}
    (ha : a.startPsn = next) : PsnLog (next + a.psnCount.setWidth 24) (l ++ [a]) where
  adjacent := by
    intro i x y hx hy
    obtain ⟨hi, -⟩ := List.getElem?_eq_some_iff.1 hy
    rw [List.length_append, List.length_singleton] at hi
    rw [List.getElem?_append_left (by omega)] at hx
    by_cases hlast : i + 1 < l.length
    · rw [List.getElem?_append_left hlast] at hy
      exact h.adjacent i x y hx hy
    · have hlen : l.length = i + 1 := by omega
      rw [List.getElem?_append_right (by omega), hlen, Nat.sub_self] at hy
      cases hy
      rw [ha]
      refine h.next x ?_
      rw [List.getLast?_eq_getElem?, hlen, Nat.add_sub_cancel]
      exact hx
  next := by
    intro x hx
    rw [List.getLast?_concat] at hx
    cases hx
    rw [ha]

/-! ## The logs and the queues between them -/

/-- The reservation that an admitted request asks for. -/
def MrAdmittedRequest.reserve (a : MrAdmittedRequest) : QpReserveReq := ⟨a.work.qpn, a.work.len⟩

/-- A parsed request, from its admitted request. -/
def ParsedFrom (a : MrAdmittedRequest) (p : ParsedTxRequest) : Prop :=
  ∃ id resp, p = ProcessSubmission.parse id a resp

/-- A parsed request, from its reservation. -/
structure Reserved (resp : QpReserveResp) (p : ParsedTxRequest) : Prop where
  pmtu : p.pmtu = resp.pmtu
  startPsn : p.startPsn = resp.startPsn
  psnCount : p.psnCount = resp.psnCount

/-- The answers under way are answers that were given, after one more. -/
lemma mem_of_answered {α : Type} {l q q' given : List α} {a : α} (h : ∀ r ∈ l ++ q, r ∈ given)
    (hq : q' = q ++ [a]) : ∀ r ∈ l ++ q', r ∈ given ++ [a] := by
  intro r hr
  rw [hq, ← List.append_assoc] at hr
  rcases List.mem_append.1 hr with hr | hr
  · exact List.mem_append_left _ (h r hr)
  · exact List.mem_append_right _ hr

/-- The stages and their logs agree. -/
structure PathInv (m : TxMvp) (h : MvpHistory) : Prop where
  works : Follows FromSubmission h.submissions h.works
    (m.frontend.pendingQ.elems ++ m.frontend.submissionQ.elems)
  slotResponses :
    ∀ r ∈ m.frontend.slotRespQ.elems ++ m.slotTable.queryRespQ.elems, r ∈ h.slotAnswers
  slots : ∀ work ∈ h.works, ∃ r ∈ h.slotAnswers, FromSlot r work
  admits : Follows (fun work x => x.1.work = work) h.works h.admitted
    (m.processor.pendingMrQ.elems ++ (m.processor.workQ.elems ++ m.frontend.workQ.elems))
  answers : ∀ r ∈ m.processor.mrRespQ.elems ++ m.mrTable.queryRespQ.elems, r ∈ h.mrAnswers
  regions : ∀ x ∈ h.admitted, InRegion x.1 x.2 ∧ ⟨x.1.work.localLkey, x.2⟩ ∈ h.mrAnswers
  reserves : Follows (fun req x => x.1 = req) (h.admitted.map (·.1.reserve)) h.reservations
    (m.qpState.reserveReqQ.elems ++ m.processor.qpReqQ.elems)
  counts : ∀ x ∈ h.reservations, x.2.pmtu ≤ 4 ∧ x.2.psnCount = txPacketCount x.1.len x.2.pmtu
  responses : Follows Reserved (h.reservations.map (·.2)) h.parsed
    (m.processor.qpRespQ.elems ++ m.qpState.reserveRespQ.elems)
  parses : Follows ParsedFrom (h.admitted.map (·.1)) h.parsed m.processor.pendingQpQ.elems
  psns : ∀ q, PsnLog (m.qpState.nextPsn q) (h.since q)

namespace PathInv

variable {m m' : TxMvp} {h : MvpHistory}

lemma initial : PathInv .initial .initial where
  works := follows_nil
  slotResponses := nofun
  slots := nofun
  admits := follows_nil
  answers := nofun
  regions := nofun
  reserves := follows_nil
  counts := nofun
  responses := follows_nil
  parses := follows_nil
  psns := fun _ => psnLog_nil 0

/-- A connection moves what is between two stages. -/
lemma connect (hi : PathInv m h) {c : MvpConnection} (hs : m.connect c = some m') :
    PathInv m' h := by
  cases c <;> obtain ⟨⟨q, r⟩, hmove, hs⟩ := bind_eq_some.1 hs <;>
    cases hs
  case slotResponse =>
      exact { hi with
        slotResponses := by
          rw [Fifo.move_elems hmove]
          exact hi.slotResponses }
  case work =>
      exact { hi with
        admits := by
          rw [Fifo.move_elems hmove]
          exact hi.admits }
  case mrResponse =>
      exact { hi with
        answers := by
          rw [Fifo.move_elems hmove]
          exact hi.answers }
  case reserveRequest =>
      exact { hi with
        reserves := by
          rw [Fifo.move_elems hmove]
          exact hi.reserves }
  case reserveResponse =>
      exact { hi with
        responses := by
          rw [Fifo.move_elems hmove]
          exact hi.responses }
  all_goals exact { hi with }

lemma config (hi : PathInv m h) {req : MvpConfig} (hs : m.configRequest req = some m') :
    PathInv m' h := by
  obtain ⟨-, hs⟩ := guard_bind_eq_some.1 hs
  cases req <;> obtain ⟨q, -, hs⟩ := bind_eq_some.1 hs <;>
    cases hs <;>
    exact { hi with }

lemma configResponse (hi : PathInv m h) {port : MvpPort} (hs : m.configResponse port = some m') :
    PathInv m' h := by
  obtain ⟨-, hs⟩ := guard_bind_eq_some.1 hs
  cases port <;> obtain ⟨⟨r, q⟩, -, hs⟩ := bind_eq_some.1 hs <;>
    cases hs <;> exact { hi with }

/-- A configuration changes no log but one. -/
lemma handleConfig (hi : PathInv m h) {port : MvpPort} (hs : m.handleConfig port = some m') :
    PathInv m' (m.observe (.handleConfig port) h) := by
  cases port <;> obtain ⟨t, ht, rfl⟩ := Option.map_eq_some_iff.1 hs
  case slot =>
      obtain ⟨-, hresp⟩ := LookupTable.handleConfig_queries ht
      exact { hi with
        slotResponses := by
          dsimp only
          rw [hresp]
          exact hi.slotResponses }
  case qp =>
      obtain ⟨req, hq, hreq, hresp, hnext⟩ := QpState.handleConfig_eq_some ht
      rw [TxMvp.observe_handleConfig hq]
      exact { hi with
        reserves := by
          dsimp only
          rw [hreq]
          exact hi.reserves
        responses := by
          dsimp only
          rw [hresp]
          exact hi.responses
        psns := by
          intro q
          dsimp only
          rw [hnext]
          by_cases hq : q = req.index
          · subst hq
            simp only [update_self]
            exact psnLog_nil _
          · simp only [update_of_ne hq]
            exact hi.psns q }
  case mr =>
      obtain ⟨-, hresp⟩ := LookupTable.handleConfig_queries ht
      exact { hi with
        answers := by
          dsimp only
          rw [hresp]
          exact hi.answers }
  case pgt => exact { hi with }

/-- Every rule and method keeps the logs and the queues together. -/
lemma step (hi : PathInv m h) {l : MvpLabel} (hs : m.step l = some m') :
    PathInv m' (m.observe l h) := by
  cases l with
  | submissionIn req =>
    obtain ⟨q, hq, hs⟩ := bind_eq_some.1 hs
    cases hs
    exact { hi with
      works := by
        dsimp only [TxMvp.observe]
        rw [Fifo.enq_eq_some hq, ← List.append_assoc]
        exact hi.works.push req }
  | configRequest req => exact hi.config hs
  | configResponse port => exact hi.configResponse hs
  | handleConfig port => exact hi.handleConfig hs
  | slotHandleQuery =>
    obtain ⟨t, ht, rfl⟩ := Option.map_eq_some_iff.1 hs
    obtain ⟨req, resp, hreq, hanswer, hresp⟩ := LookupTable.handleQuery_eq_some ht
    have hobs :
        m.observe .slotHandleQuery h = { h with slotAnswers := h.slotAnswers ++ [resp] } := by
      simp [TxMvp.observe, Fifo.first, hreq, hanswer]
    rw [hobs]
    exact { hi with
      slotResponses := mem_of_answered hi.slotResponses hresp
      slots := fun work hwork => by
        obtain ⟨r, hr, hfrom⟩ := hi.slots work hwork
        exact ⟨r, List.mem_append_left _ hr, hfrom⟩ }
  | mrHandleQuery =>
    obtain ⟨t, ht, rfl⟩ := Option.map_eq_some_iff.1 hs
    obtain ⟨req, resp, hreq, hanswer, hresp⟩ := LookupTable.handleQuery_eq_some ht
    have hobs : m.observe .mrHandleQuery h = { h with mrAnswers := h.mrAnswers ++ [resp] } := by
      simp [TxMvp.observe, Fifo.first, hreq, hanswer]
    rw [hobs]
    exact { hi with
      answers := mem_of_answered hi.answers hresp
      regions := fun x hx => ⟨(hi.regions x hx).1, List.mem_append_left _ (hi.regions x hx).2⟩ }
  | pgtHandleQuery =>
    obtain ⟨t, -, rfl⟩ := Option.map_eq_some_iff.1 hs
    exact { hi with }
  | handleReserve =>
    obtain ⟨t, ht, rfl⟩ := Option.map_eq_some_iff.1 hs
    obtain ⟨req, hreq, hpmtu, hresp, hnext⟩ := QpState.handleReserve_eq_some ht
    have hreserves := hi.reserves
    rw [hreq, List.cons_append] at hreserves
    rw [TxMvp.observe_handleReserve hreq]
    exact { hi with
      reserves := hreserves.pop rfl
      counts := by
        intro x hx
        rcases List.mem_append.1 hx with hx | hx
        · exact hi.counts x hx
        · rw [List.mem_singleton.1 hx]
          exact ⟨hpmtu, rfl⟩
      responses := by
        dsimp only
        rw [hresp, ← List.append_assoc, List.map_append]
        exact hi.responses.push _
      psns := by
        intro q
        dsimp only
        rw [hnext]
        by_cases hq : q = req.qpn.setWidth 2
        · subst hq
          simp only [update_self]
          exact (hi.psns _).concat rfl
        · simp only [update_of_ne hq]
          exact hi.psns q }
  | issueSlotQuery =>
    obtain ⟨f, hf, rfl⟩ := Option.map_eq_some_iff.1 hs
    obtain ⟨req, q, r, s, hq, hr, rfl⟩ := SubmissionFrontend.issueSlotQuery_eq_some hf
    exact { hi with
      works := by
        have hworks := hi.works
        rw [Fifo.deq_eq_some hq] at hworks
        dsimp only
        rw [Fifo.enq_eq_some hr, List.append_assoc]
        exact hworks }
  | completeSlotQuery =>
    obtain ⟨f, hf, rfl⟩ := Option.map_eq_some_iff.1 hs
    obtain ⟨req, resp, q, r, w, hq, hr, hfrom, hslot, hw, rfl⟩ :=
      SubmissionFrontend.completeSlotQuery_eq_some hf
    rw [TxMvp.observe_completeSlotQuery hq hr]
    have hworks := hi.works
    have hanswers := hi.slotResponses
    rw [Fifo.deq_eq_some hq, List.cons_append] at hworks
    rw [Fifo.deq_eq_some hr, List.cons_append] at hanswers
    exact { hi with
      works := hworks.pop hfrom
      slotResponses := fun x hx => hanswers x (List.mem_cons_of_mem _ hx)
      slots := by
        intro work hwork
        rcases List.mem_append.1 hwork with hwork | hwork
        · exact hi.slots work hwork
        · rw [List.mem_singleton.1 hwork]
          exact ⟨resp, hanswers resp List.mem_cons_self, hslot⟩
      admits := by
        dsimp only
        rw [Fifo.enq_eq_some hw, ← List.append_assoc, ← List.append_assoc]
        have := hi.admits.push (SubmissionFrontend.work req resp.entry)
        rwa [← List.append_assoc] at this }
  | issueMrQuery =>
    obtain ⟨f, hf, rfl⟩ := Option.map_eq_some_iff.1 hs
    obtain ⟨work, q, r, s, hq, hr, rfl⟩ := ProcessSubmission.issueMrQuery_eq_some hf
    exact { hi with
      admits := by
        have hadmits := hi.admits
        rw [Fifo.deq_eq_some hq] at hadmits
        dsimp only
        rw [Fifo.enq_eq_some hr, List.append_assoc]
        exact hadmits }
  | completeMrQuery =>
    obtain ⟨f, hf, rfl⟩ := Option.map_eq_some_iff.1 hs
    obtain ⟨work, resp, q, r, a, s, hq, hr, hkey, hregion, ha, hs', rfl⟩ :=
      ProcessSubmission.completeMrQuery_eq_some hf
    rw [TxMvp.observe_completeMrQuery hq hr]
    have hadmits := hi.admits
    have hanswers := hi.answers
    rw [Fifo.deq_eq_some hq, List.cons_append] at hadmits
    rw [Fifo.deq_eq_some hr, List.cons_append] at hanswers
    exact { hi with
      admits := hadmits.pop rfl
      answers := fun x hx => hanswers x (List.mem_cons_of_mem _ hx)
      regions := by
        intro x hx
        rcases List.mem_append.1 hx with hx | hx
        · exact hi.regions x hx
        · rw [List.mem_singleton.1 hx]
          refine ⟨hregion, ?_⟩
          have hmem := hanswers resp List.mem_cons_self
          rwa [show resp = ⟨work.localLkey, resp.entry⟩ by rw [← hkey]] at hmem
      reserves := by
        dsimp only
        rw [Fifo.enq_eq_some hs', ← List.append_assoc, List.map_append]
        exact hi.reserves.push _
      parses := by
        dsimp only
        rw [Fifo.enq_eq_some ha, List.map_append]
        exact hi.parses.push _ }
  | completeQpReserve =>
    obtain ⟨f, hf, rfl⟩ := Option.map_eq_some_iff.1 hs
    obtain ⟨a, resp, q, r, s, hq, hr, hs', rfl⟩ := ProcessSubmission.completeQpReserve_eq_some hf
    rw [TxMvp.observe_completeQpReserve hq hr]
    have hresponses := hi.responses
    have hparses := hi.parses
    rw [Fifo.deq_eq_some hr, List.cons_append] at hresponses
    rw [Fifo.deq_eq_some hq] at hparses
    exact { hi with
      responses := hresponses.pop ⟨rfl, rfl, rfl⟩
      parses := hparses.pop ⟨_, _, rfl⟩ }
  | issuePgtQuery | completePgtQuery | emitBurst =>
    obtain ⟨f, -, rfl⟩ := Option.map_eq_some_iff.1 hs
    exact { hi with }
  | connect c => exact hi.connect hs
  | dmaReadReqOut =>
    obtain ⟨⟨r, m₁⟩, hout, rfl⟩ := Option.map_eq_some_iff.1 hs
    obtain ⟨⟨r', q⟩, -, hout⟩ := bind_eq_some.1 hout
    cases hout
    exact { hi with }

end PathInv

/-- What is known of a parsed request. -/
structure ParsedSpec (h : MvpHistory) (j : ℕ) (p : ParsedTxRequest) : Prop where
  submission : ∃ s, h.submissions[j]? = some s ∧ p.qpn = s.qpn ∧ p.slotId = s.slotId ∧
    p.debugSeq = s.debugSeq ∧ p.len = s.resolvedLen
  region : ∃ a mr, ParsedFrom a p ∧ InRegion a mr ∧ ⟨a.work.localLkey, mr⟩ ∈ h.mrAnswers ∧
    ∃ r ∈ h.slotAnswers, FromSlot r a.work
  reservation : ∃ x, h.reservations[j]? = some x ∧ x.1.qpn = p.qpn ∧ x.1.len = p.len ∧
  Reserved x.2 p
  pos : 0 < p.len.toNat
  le : p.len.toNat ≤ 2 ^ 24
  remote : p.remoteAddr.toNat + p.len.toNat ≤ 2 ^ 64
  pmtu : p.pmtu ≤ 4
  psnCount : p.psnCount = txPacketCount p.len p.pmtu

/-- **What is known of every parsed request.**  It belongs to the submission of its place, and is
made from a slot and a region that the tables answered with; its local range lies in the region; its
PSNs are those reserved for it. -/
theorem PathInv.parsed_spec {m : TxMvp} {h : MvpHistory} (hi : PathInv m h) {j : ℕ}
    {p : ParsedTxRequest} (hp : h.parsed[j]? = some p) : ParsedSpec h j p := by
  obtain ⟨a, ha, id, resp', rfl⟩ := hi.parses.get hp
  rw [List.getElem?_map, Option.map_eq_some_iff] at ha
  obtain ⟨⟨a, mr⟩, ha, rfl⟩ := ha
  obtain ⟨work, hwork, rfl⟩ := hi.admits.get ha
  obtain ⟨s, hs, hfrom⟩ := hi.works.get hwork
  obtain ⟨resp, hresp, hreserved⟩ := hi.responses.get hp
  rw [List.getElem?_map, Option.map_eq_some_iff] at hresp
  obtain ⟨x, hx, rfl⟩ := hresp
  obtain ⟨req, hreq, hreq'⟩ := hi.reserves.get hx
  rw [List.getElem?_map, ha, Option.map_some, Option.some.injEq] at hreq
  obtain ⟨hregion, hmem⟩ := hi.regions _ (List.mem_of_getElem? ha)
  obtain ⟨hpmtu, hcount⟩ := hi.counts _ (List.mem_of_getElem? hx)
  have hlen : x.1.len = a.work.len := by rw [hreq', ← hreq]; rfl
  exact {
    submission := ⟨s, hs, hfrom.qpn, hfrom.slotId, hfrom.debugSeq, hfrom.len⟩
    region := ⟨a, mr, ⟨id, resp', rfl⟩, hregion, hmem, hi.slots _ (List.mem_of_getElem? hwork)⟩
    reservation := ⟨x, hx, by rw [hreq', ← hreq]; rfl, hlen, hreserved⟩
    pos := hfrom.pos
    le := hfrom.le
    remote := hfrom.remote
    pmtu := by rw [hreserved.pmtu]; exact hpmtu
    psnCount := by rw [hreserved.psnCount, hreserved.pmtu, hcount, hlen]; rfl }

end Mvp

end OpenRdma
