import OpenRdma.Verbs.Ctx
import OpenRdma.Workers.Transmission

/-!
# What becomes of a posted request

`post_send` reports success as soon as a request is on its way to the RDMA write worker.  The worker
can still refuse it, and then drops it: the `io::Result` of the refusal is thrown away.

* **`request_fate`** — every request is taken or lost, and which of the two `Accepts` says.
* **`refused_untouched_iff`** — a refused request leaves the send queue context as it was, unless it
  fails a check made after its sequence numbers were taken.
-/

namespace OpenRdma

namespace RdmaWriteWorker

/-- There is room for the request, and nothing in it that is refused later. -/
def Fitting (w : RdmaWriteWorker) (attrs : QpTable QpAttr) (qpn : UInt32)
    (wr : SendWrRdma) : Prop :=
  ∃ qp ctx n, attrs.getQp qpn = some qp ∧ w.sqCtxTable.getQp qpn = some ctx ∧
    psnsNeeded qp wr = some n ∧
    (ctx.psn - ctx.psnAcked + n).val.toNat ≤ maxPsnWindow ∧
    (ctx.msn - ctx.msnAcked).toNat < maxSendWr ∧
    (wr.isSignaled = true → qp.sendCq ≠ none ∧ wr.opcode ≠ .rdmaReadResp)

/-- The worker runs and takes the request: its opcode is known, it is not an empty WRITE, and it
fits. -/
def Accepts (w : RdmaWriteWorker) (attrs : QpTable QpAttr) (qpn : UInt32)
    (wr : SendWrRdma) : Prop :=
  w.panicked = none ∧ wr.opcode.supported = true ∧ ¬ (wr.length = 0 ∧ wr.opcode = .rdmaWrite) ∧
    w.Fitting attrs qpn wr

/-- The request was given the next numbers, is recorded, and its chunks are sent or queued. -/
def Takes (w : RdmaWriteWorker) (qpn : UInt32) (wr : SendWrRdma) (r : Wrote) : Prop :=
  ∃ ctx n qpParam, w.sqCtxTable.getQp qpn = some ctx ∧
    r.worker.sqCtxTable.getQp qpn = some (ctx.advance n) ∧
    newWrsOn qpn r.outs = [⟨ctx.psn, wr, qpParam⟩] ∧
    ((chunksIn r.outs = [readChunk ⟨ctx.psn, wr, qpParam⟩] ∧
        r.worker.pendingFragmenters = w.pendingFragmenters) ∨
      ∃ it, wrChunkFragmenter wr qpParam ctx.psn = .ok it ∧
        r.worker.pendingFragmenters = w.pendingFragmenters ++ [it])

/-- Nothing is sent and nothing is queued; the worker keeps requests nowhere else. -/
def Loses (w : RdmaWriteWorker) (r : Wrote) : Prop :=
  r.outs = [] ∧ r.worker.pendingFragmenters = w.pendingFragmenters

/-- A request is taken, and then recorded, or lost. -/
def Decides (w : RdmaWriteWorker) (qpn : UInt32) (wr : SendWrRdma) (accepts : Prop)
    (r : Wrote) : Prop :=
  (accepts ∧ w.Takes qpn wr r) ∨ (¬ accepts ∧ w.Loses r)

lemma nextWr_eq_none_iff {ctx : SendQueueContext} {n : UInt32} : ctx.nextWr n = none ↔
    ¬ ((ctx.psn - ctx.psnAcked + n).val.toNat ≤ maxPsnWindow ∧
      (ctx.msn - ctx.msnAcked).toNat < maxSendWr) := by
  simp only [SendQueueContext.nextWr]
  split
  · next h => simp only [true_iff]; omega
  · next h => simp only [reduceCtorEq, false_iff, not_not]; omega

/-- Launching a request that fits sends or queues its chunks. -/
def LaunchesOne (wr : SendWrRdma)
    (launch : RdmaWriteWorker → SendQueueElem → RdmaWriteWorker × List Output) : Prop :=
  ∀ (w : RdmaWriteWorker) (qp : QpAttr) (psn : Psn) (msn : UInt16) (n : UInt32),
    psnsNeeded qp wr = some n →
    let elem : SendQueueElem := ⟨psn, wr, qp.params msn⟩
    (launch w elem).1.sqCtxTable = w.sqCtxTable ∧
    (∀ qpn, newWrsOn qpn (launch w elem).2 = []) ∧
    ((chunksIn (launch w elem).2 = [readChunk elem] ∧
        (launch w elem).1.pendingFragmenters = w.pendingFragmenters) ∨
      (chunksIn (launch w elem).2 = [] ∧ ∃ it, wrChunkFragmenter wr elem.qpParam psn = .ok it ∧
        (launch w elem).1.pendingFragmenters = w.pendingFragmenters ++ [it]))

variable {wr : SendWrRdma}

/-- A signaled request is registered unless it is one that is refused. -/
lemma signalEvent_cases (qp : QpAttr) (hop : wr.opcode.supported = true)
    (qpn : UInt32) (msgMeta : MessageMeta) :
    (∃ event, signalEvent qp qpn wr (eventOp wr) msgMeta = .ok event ∧
      (wr.isSignaled = true → qp.sendCq ≠ none ∧ wr.opcode ≠ .rdmaReadResp)) ∨
    ∃ e, signalEvent qp qpn wr (eventOp wr) msgMeta = .error e ∧
      ¬ (wr.isSignaled = true → qp.sendCq ≠ none ∧ wr.opcode ≠ .rdmaReadResp) := by
  cases hev : signalEvent qp qpn wr (eventOp wr) msgMeta with
  | error e =>
    obtain ⟨hsig, hbad⟩ := signalEvent_eq_error hop hev
    refine .inr ⟨e, rfl, fun h => ?_⟩
    rcases hbad with hcq | hresp
    · exact (h hsig).1 hcq
    · exact (h hsig).2 hresp
  | ok event =>
    refine .inl ⟨event, rfl, fun hsig => ?_⟩
    unfold signalEvent at hev
    rw [if_pos hsig] at hev
    refine ⟨fun hcq => by simp [hcq] at hev, fun hresp => ?_⟩
    cases hcq : qp.sendCq with
    | none => simp [hcq] at hev
    | some cq => simp [hcq, eventOp, hresp, WorkReqOpCode.signaledOp] at hev

/-- **`submit` takes a request or loses it.** -/
lemma submit_decides (w : RdmaWriteWorker) (attrs : QpTable QpAttr) (qpn : UInt32)
    (hop : wr.opcode.supported = true) {numPsn : QpAttr → Option UInt32}
    (hn : ∀ qp, numPsn qp = psnsNeeded qp wr)
    {launch : RdmaWriteWorker → SendQueueElem → RdmaWriteWorker × List Output}
    (hl : LaunchesOne wr launch) :
    w.Decides qpn wr (w.Fitting attrs qpn wr)
      (w.submit attrs qpn wr numPsn (eventOp wr) launch) := by
  have hlost : ∀ r : Wrote, ¬ w.Fitting attrs qpn wr → r.outs = [] →
      r.worker.pendingFragmenters = w.pendingFragmenters →
      w.Decides qpn wr (w.Fitting attrs qpn wr) r := fun r hnot h1 h2 => .inr ⟨hnot, h1, h2⟩
  unfold submit
  cases hqp : attrs.getQp qpn with
  | none =>
    refine hlost _ ?_ rfl rfl
    rintro ⟨qp, -, -, hqp', -⟩
    exact absurd (hqp.symm.trans hqp') (by simp)
  | some qp =>
    cases hnum : psnsNeeded qp wr with
    | none =>
      simp only [hn, hnum]
      refine hlost _ ?_ rfl rfl
      rintro ⟨qp', -, n, hqp', -, hn', -⟩
      obtain rfl := Option.some.inj (hqp.symm.trans hqp')
      exact absurd (hnum.symm.trans hn') (by simp)
    | some n =>
      simp only [hn, hnum]
      cases hctx : w.sqCtxTable.getQp qpn with
      | none =>
        simp only [Option.bind_none]
        refine hlost _ ?_ rfl rfl
        rintro ⟨-, ctx, -, -, hctx', -⟩
        exact absurd (hctx.symm.trans hctx') (by simp)
      | some ctx =>
        cases hnext : ctx.nextWr n with
        | none =>
          simp only [Option.bind_some, hnext]
          refine hlost _ ?_ rfl rfl
          rintro ⟨qp', ctx', n', hqp', hctx', hn', h1, h2, -⟩
          obtain rfl := Option.some.inj (hqp.symm.trans hqp')
          obtain rfl := Option.some.inj (hctx.symm.trans hctx')
          obtain rfl := Option.some.inj (hnum.symm.trans hn')
          exact nextWr_eq_none_iff.mp hnext ⟨h1, h2⟩
        | some out =>
          obtain ⟨⟨msn, psn⟩, ctx'⟩ := out
          have hwindow : ¬ ctx.nextWr n = none := by simp [hnext]
          rw [nextWr_eq_none_iff, not_not] at hwindow
          obtain ⟨rfl, rfl, rfl⟩ := SendQueueContext.nextWr_eq_some hnext
          simp only [Option.bind_some, hnext]
          rcases signalEvent_cases qp hop qpn ⟨ctx.msn, ctx.psn + n⟩ with
            ⟨event, hev, hsig⟩ | ⟨e, hev, hsig⟩
          · refine .inl ⟨⟨qp, ctx, n, hqp, hctx, hnum, hwindow.1, hwindow.2, hsig⟩, ?_⟩
            simp only [hev]
            obtain ⟨htable, hwrs, hchunks⟩ := hl
              { w with sqCtxTable := w.sqCtxTable.setQp qpn (ctx.advance n) } qp ctx.psn ctx.msn
                n hnum
            refine ⟨ctx, n, qp.params ctx.msn, hctx, ?_, ?_, ?_⟩
            · exact (congrArg (fun t : QpTable SendQueueContext => t.getQp qpn) htable).trans
                (QpTable.getQp_setQp_self hctx _)
            · rw [newWrsOn_append, newWrsOn_submitOuts, if_pos rfl]
              exact congrArg (_ :: ·) (hwrs qpn)
            · rw [chunksIn_append, chunksIn_submitOuts, List.nil_append]
              rcases hchunks with hread | ⟨-, hpush⟩
              · exact .inl hread
              · exact .inr hpush
          · simp only [hev]
            refine hlost _ ?_ rfl rfl
            rintro ⟨qp', -, -, hqp', -, -, -, -, hsig'⟩
            obtain rfl := Option.some.inj (hqp.symm.trans hqp')
            exact hsig hsig'

lemma launchesOne_launchRead (wr : SendWrRdma) : LaunchesOne wr launchRead :=
  fun _ _ _ _ _ _ => ⟨rfl, fun _ => rfl, .inl ⟨rfl, rfl⟩⟩

/-- A request whose PSNs can be counted can be cut into chunks. -/
lemma launchesOne_pushFragmenter (hop : wr.opcode ≠ .rdmaRead) : LaunchesOne wr pushFragmenter := by
  intro w qp psn msn n hneeded elem
  rw [psnsNeeded, if_neg hop] at hneeded
  cases hp : convertIbvMtuToU16 qp.pmtu with
  | none => simp [numPsn, hp] at hneeded
  | some p =>
    have hp' : convertIbvMtuToU16 elem.qpParam.pmtu = some p := hp
    obtain ⟨it, hit⟩ : ∃ it, wrChunkFragmenter elem.wr elem.qpParam elem.psn = .ok it := by
      rw [wrChunkFragmenter, chunkFragmenter, hp']
      exact ⟨_, rfl⟩
    have hpush : pushFragmenter w elem
        = ({ w with pendingFragmenters := w.pendingFragmenters ++ [it] }, []) := by
      simp only [pushFragmenter, hit]
    rw [hpush]
    exact ⟨rfl, fun _ => rfl, .inr ⟨rfl, it, hit, rfl⟩⟩

/-- A request with data, in a worker that runs. -/
lemma write_decides {w : RdmaWriteWorker} (hrun : w.panicked = none) (attrs : QpTable QpAttr)
    (qpn : UInt32) (hpay : wr.opcode.needsPayload = true) :
    w.Decides qpn wr (w.Accepts attrs qpn wr) (w.write attrs qpn wr) := by
  have hne : wr.opcode ≠ .rdmaRead := fun hr => by
    rw [hr] at hpay
    exact absurd hpay (by decide)
  have hop : wr.opcode.supported = true := by simp [WorkReqOpCode.supported, hpay]
  have hev : wr.opcode.signaledOp = eventOp wr := by simp [eventOp, hne]
  unfold write
  split
  · next hzero => exact .inr ⟨fun hacc => hacc.2.2.1 hzero.2, rfl, rfl⟩
  · next hzero =>
      have hn : ∀ qp : QpAttr, numPsn qp.pmtu wr.raddr wr.length = psnsNeeded qp wr := fun qp => by
        simp [psnsNeeded, hne]
      rw [hev]
      rcases submit_decides w attrs qpn hop hn (launchesOne_pushFragmenter hne) with
        ⟨hfit, htakes⟩ | ⟨hnot, hlost⟩
      · refine .inl ⟨⟨hrun, hop, fun hz => hzero ⟨?_, hz⟩, hfit⟩, htakes⟩
        obtain ⟨qp, -, -, hqp, -⟩ := hfit
        rw [hqp]
        rfl
      · exact .inr ⟨fun hacc => hnot hacc.2.2.2, hlost⟩

lemma process_decides (w : RdmaWriteWorker) (attrs : QpTable QpAttr) (qpn : UInt32)
    (wr : SendWrRdma) :
    w.Decides qpn wr (w.Accepts attrs qpn wr) (w.process attrs (.write qpn wr)) := by
  unfold process
  split
  · next hdead =>
      refine .inr ⟨fun hacc => ?_, rfl, rfl⟩
      rw [hacc.1] at hdead
      exact absurd hdead (by simp)
  · next hdead =>
      have hrun : w.panicked = none := by simpa using hdead
      cases hop : wr.opcode with
      | rdmaRead =>
        have hread : some SendEventOp.readSignaled = eventOp wr := by simp [eventOp, hop]
        have hn : ∀ qp, some 1 = psnsNeeded qp wr := fun qp => by simp [psnsNeeded, hop]
        have hsupp : wr.opcode.supported = true := by simp [WorkReqOpCode.supported, hop]
        simp only [hop]
        rw [rdmaRead, hread]
        rcases submit_decides w attrs qpn hsupp hn (launchesOne_launchRead wr) with
          ⟨hfit, htakes⟩ | ⟨hnot, hlost⟩
        · exact .inl ⟨⟨hrun, hsupp, by simp [hop], hfit⟩, htakes⟩
        · exact .inr ⟨fun hacc => hnot hacc.2.2.2, hlost⟩
      | rdmaWrite | rdmaWriteWithImm | send | sendWithImm | rdmaReadResp =>
        simp only [hop]
        exact write_decides hrun attrs qpn (by rw [hop]; rfl)
      | _ =>
        simp only [hop]
        refine .inr ⟨fun hacc => ?_, rfl, rfl⟩
        have hsupp := hacc.2.1
        rw [hop] at hsupp
        exact absurd hsupp (by decide)

end RdmaWriteWorker

/-- **What becomes of a request.**  In every state of the worker, a request is taken — it gets the
next numbers, is recorded for retransmission, and its chunks are sent or queued — exactly if the
worker accepts it; otherwise it is lost: nothing is sent and nothing is queued. -/
theorem request_fate (w : RdmaWriteWorker) (attrs : QpTable QpAttr) (qpn : UInt32)
    (wr : SendWrRdma) :
    let r := w.process attrs (.write qpn wr)
    (w.Takes qpn wr r ↔ w.Accepts attrs qpn wr) ∧ (w.Loses r ↔ ¬ w.Accepts attrs qpn wr) := by
  intro r
  have hboth : ¬ (w.Takes qpn wr r ∧ w.Loses r) := by
    rintro ⟨⟨ctx, n, qpParam, -, -, hwrs, -⟩, hlost, -⟩
    rw [hlost] at hwrs
    exact absurd hwrs (by simp [newWrsOn])
  rcases w.process_decides attrs qpn wr with ⟨hacc, htakes⟩ | ⟨hnot, hlost⟩
  · exact ⟨iff_of_true htakes hacc,
      iff_of_false (fun hl => hboth ⟨htakes, hl⟩) (not_not.mpr hacc)⟩
  · exact ⟨iff_of_false (fun ht => hboth ⟨ht, hlost⟩) hnot, iff_of_true hlost hnot⟩

/-- **A full window loses a request.**  A write of 2 GiB with packets of 256 bytes and one of a
single packet are posted, and `post_send` succeeds for both.  The first one fills the window of
`2 ^ 23` PSNs; the second one is gone. -/
theorem request_fate_window_full :
    let attrs := QpTable.newWith { (default : QpAttr) with pmtu := 1, sendCq := some 0 }
    let large : SendWrRdma := ⟨⟨7, ibvSendSignaled, 0, 0x80000000, 0, 0, .rdmaWrite⟩, 0x100000, 0⟩
    let small : SendWrRdma := ⟨⟨8, ibvSendSignaled, 0, 256, 0, 0, .rdmaWrite⟩, 0x100000, 0⟩
    let first := (HwDeviceCtx.init 1).postSend 0x100 (.rdma large)
    let second := first.ctx.postSend 0x100 (.rdma small)
    let taken := (default : RdmaWriteWorker).process attrs (.write 0x100 large)
    let lost := taken.worker.process attrs (.write 0x100 small)
    first.ret = .ok () ∧ first.outs = [.rdmaWrite (.write 0x100 large)] ∧
    second.ret = .ok () ∧ second.outs = [.rdmaWrite (.write 0x100 small)] ∧
    (newWrsOn 0x100 taken.outs).length = 1 ∧ taken.worker.panicked = none ∧
    lost.ret.isOk = false ∧ taken.worker.Loses lost := by
  refine ⟨rfl, rfl, rfl, rfl, ?_, ?_, ?_, ?_, ?_⟩ <;> decide +kernel

/-! ## What a refusal leaves behind -/

namespace RdmaWriteWorker

/-- The call returned an error; it did not panic. -/
def Refused (r : Wrote) : Prop := r.ret.isOk = false ∧ r.worker.panicked = none

/-- The context of the queue pair is as before, and no worker was told anything. -/
def Untouched (w : RdmaWriteWorker) (qpn : UInt32) (r : Wrote) : Prop :=
  r.worker.sqCtxTable.getQp qpn = w.sqCtxTable.getQp qpn ∧ r.outs = []

/-- The request passes the checks made before sequence numbers are taken, and fails one of those
made after: it is signaled, and the queue pair has no send CQ or the request cannot be
registered. -/
def FailsLate (w : RdmaWriteWorker) (attrs : QpTable QpAttr) (qpn : UInt32) (wr : SendWrRdma)
    (numPsn : QpAttr → Option UInt32) (op : Option SendEventOp) : Prop :=
  ∃ qp n ctx, attrs.getQp qpn = some qp ∧ numPsn qp = some n ∧ w.sqCtxTable.getQp qpn = some ctx ∧
    ((ctx.psn - ctx.psnAcked + n).val.toNat ≤ maxPsnWindow ∧
      (ctx.msn - ctx.msnAcked).toNat < maxSendWr) ∧
    wr.isSignaled = true ∧ (qp.sendCq = none ∨ op = none)

variable {op : Option SendEventOp}

lemma signalEvent_isOk {qp : QpAttr} {qpn : UInt32} {wr : SendWrRdma} {msgMeta : MessageMeta} :
    (signalEvent qp qpn wr op msgMeta).isOk = false
      ↔ wr.isSignaled = true ∧ (qp.sendCq = none ∨ op = none) := by
  unfold signalEvent
  split
  · next hsig => cases qp.sendCq <;> cases op <;> simp [hsig, Except.isOk, Except.toBool]
  · next hsig => simp [hsig, Except.isOk, Except.toBool]

lemma advance_ne (ctx : SendQueueContext) (n : UInt32) : ctx.advance n ≠ ctx := by
  intro h
  have hmsn : ctx.msn + 1 = ctx.msn := congrArg SendQueueContext.msn h
  exact absurd hmsn (by simp)

/-- A request that fails late is refused, and its numbers are gone. -/
lemma submit_of_failsLate {w : RdmaWriteWorker} {attrs : QpTable QpAttr} {qpn : UInt32}
    {wr : SendWrRdma} {numPsn : QpAttr → Option UInt32} (h : w.FailsLate attrs qpn wr numPsn op)
    (launch : RdmaWriteWorker → SendQueueElem → RdmaWriteWorker × List Output) :
    ¬ w.Untouched qpn (w.submit attrs qpn wr numPsn op launch) := by
  obtain ⟨qp, n, ctx, hqp, hn, hctx, hroom, hsig⟩ := h
  have hnext : ctx.nextWr n = some ((ctx.msn, ctx.psn), ctx.advance n) := by
    cases hnext : ctx.nextWr n with
    | none => exact absurd hroom (nextWr_eq_none_iff.mp hnext)
    | some out =>
      obtain ⟨⟨msn, psn⟩, ctx'⟩ := out
      obtain ⟨rfl, rfl, rfl⟩ := SendQueueContext.nextWr_eq_some hnext
      rfl
  have hfail : (signalEvent qp qpn wr op ⟨ctx.msn, ctx.psn + n⟩).isOk = false :=
    signalEvent_isOk.mpr hsig
  rintro ⟨hsame, -⟩
  cases hev : signalEvent qp qpn wr op ⟨ctx.msn, ctx.psn + n⟩ with
  | ok event =>
    rw [hev] at hfail
    exact absurd hfail (by simp [Except.isOk, Except.toBool])
  | error e =>
    simp only [submit, hqp, hn, hctx, Option.bind_some, hnext, hev] at hsame
    rw [QpTable.getQp_setQp_self hctx] at hsame
    exact advance_ne ctx n (Option.some.inj hsame)

/-- **A refused request leaves no trace unless it fails late.** -/
lemma submit_untouched_iff {w : RdmaWriteWorker} {attrs : QpTable QpAttr} {qpn : UInt32}
    {wr : SendWrRdma} {numPsn : QpAttr → Option UInt32}
    {launch : RdmaWriteWorker → SendQueueElem → RdmaWriteWorker × List Output}
    (hret : (w.submit attrs qpn wr numPsn op launch).ret.isOk = false) :
    w.Untouched qpn (w.submit attrs qpn wr numPsn op launch)
      ↔ ¬ w.FailsLate attrs qpn wr numPsn op := by
  refine ⟨fun hsame hlate => submit_of_failsLate hlate launch hsame, fun hlate => ?_⟩
  rcases w.submit_cases attrs qpn wr numPsn op launch with
    ⟨hw, houts⟩ | ⟨qp, n, ctx, hqp, hn, hctx, hnext, ⟨e, hev, -⟩ | ⟨event, -, hsub⟩⟩
  · exact ⟨by rw [hw], houts⟩
  · refine absurd ⟨qp, n, ctx, hqp, hn, hctx, ?_, ?_⟩ hlate
    · by_contra hfull
      rw [nextWr_eq_none_iff.mpr hfull] at hnext
      exact absurd hnext (by simp)
    · exact signalEvent_isOk.mp (by rw [hev]; rfl)
  · rw [hsub] at hret
    exact absurd hret (by simp [Except.isOk, Except.toBool])

end RdmaWriteWorker

open RdmaWriteWorker in
/-- **What a refused request leaves behind.**  When `write` or `rdma_read` returns an error, the
send queue context is as before and nothing was sent to the other workers, unless the request only
failed the checks made after its sequence numbers were taken; then the numbers are lost. -/
theorem refused_untouched_iff (w : RdmaWriteWorker) (attrs : QpTable QpAttr) (qpn : UInt32)
    (wr : SendWrRdma) :
    (Refused (w.write attrs qpn wr) → (w.Untouched qpn (w.write attrs qpn wr) ↔
      ¬ w.FailsLate attrs qpn wr (fun qp => numPsn qp.pmtu wr.raddr wr.length)
        wr.opcode.signaledOp)) ∧
    (Refused (w.rdmaRead attrs qpn wr) → (w.Untouched qpn (w.rdmaRead attrs qpn wr) ↔
      ¬ w.FailsLate attrs qpn wr (fun _ => some 1) (some .readSignaled))) := by
  refine ⟨fun hret => ?_, fun hret => submit_untouched_iff hret.1⟩
  unfold write at hret ⊢
  split at hret
  · exact absurd hret.2 (by simp)
  · next hzero =>
      rw [if_neg hzero]
      exact submit_untouched_iff hret.1

/-- A write that finds `0x8000` requests outstanding is refused and leaves no trace. -/
theorem refused_untouched_window_full :
    let ctx : SendQueueContext := { (default : SendQueueContext) with msn := 0x8000 }
    let w : RdmaWriteWorker := { (default : RdmaWriteWorker) with sqCtxTable := .newWith ctx }
    let attrs := QpTable.newWith { (default : QpAttr) with pmtu := 1, sendCq := some 0 }
    let wr : SendWrRdma := ⟨⟨7, ibvSendSignaled, 0, 256, 0, 0, .rdmaWrite⟩, 0x100000, 0⟩
    let r := w.write attrs 0x100 wr
    RdmaWriteWorker.Refused r ∧ w.Untouched 0x100 r := by
  intro ctx w attrs wr r
  have hret : RdmaWriteWorker.Refused r := ⟨by decide +kernel, by decide +kernel⟩
  refine ⟨hret, ((refused_untouched_iff w attrs 0x100 wr).1 hret).mpr ?_⟩
  rintro ⟨qp, n, ctx', -, -, hctx, ⟨-, hroom⟩, -⟩
  obtain rfl : ctx = ctx' := Option.some.inj hctx
  exact absurd hroom (by decide)

/-- **A request without a send CQ uses up numbers.**  A queue pair is created without a send CQ, and
a signaled write of one packet is posted on it: the worker refuses it, and the next request is
message 1 with PSN 1 — message 0 and PSN 0 are never sent. -/
theorem refused_write_burns_numbers :
    let attrs := QpTable.newWith { (default : QpAttr) with pmtu := 1, sendCq := none }
    let wr : SendWrRdma := ⟨⟨7, ibvSendSignaled, 0, 256, 0, 0, .rdmaWrite⟩, 0x100000, 0⟩
    let w : RdmaWriteWorker := default
    let r := w.write attrs 0x100 wr
    RdmaWriteWorker.Refused r ∧ ¬ w.Untouched 0x100 r ∧
    (w.sqCtxTable.getQp 0x100).map (fun ctx => (ctx.msn, ctx.psn.val.toNat)) = some (0, 0) ∧
    (r.worker.sqCtxTable.getQp 0x100).map (fun ctx => (ctx.msn, ctx.psn.val.toNat))
      = some (1, 1) := by
  have hbefore : ((default : RdmaWriteWorker).sqCtxTable.getQp 0x100).map
      (fun ctx => (ctx.msn, ctx.psn.val.toNat)) = some (0, 0) := by decide +kernel
  intro attrs wr w r
  have hafter : (r.worker.sqCtxTable.getQp 0x100).map (fun ctx => (ctx.msn, ctx.psn.val.toNat))
      = some (1, 1) := by decide +kernel
  refine ⟨⟨by decide +kernel, by decide +kernel⟩, fun hsame => ?_, hbefore, hafter⟩
  rw [hsame.1] at hafter
  exact absurd (hafter.symm.trans hbefore) (by decide)

end OpenRdma
