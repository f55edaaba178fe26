import OpenRdma.Workers.PsnAllocation
import OpenRdma.Workers.Transmission

/-!
# The order in which a queue pair is transmitted

The chunks of all pending requests are handed out in rounds, one of each request per round.  Two
long requests of one queue pair are therefore interleaved, and a READ overtakes whatever is pending.
The order of the requests is kept as long as a request only arrives when the earlier ones of its
queue pair are about to be finished.

* **`chunks_in_psnOrder`** — in a run of such steps the chunks of a queue pair are handed out
  request by request and with increasing PSNs.
-/

namespace OpenRdma

/-! ## Chunks of a queue pair -/

/-- The chunk is sent from the queue pair. -/
def WrChunk.isOn (qpn : UInt32) (c : WrChunk) : Bool := qpnToIndex c.sqpn == qpnToIndex qpn

/-- The request of the iterator belongs to the queue pair. -/
def IntoIterChunk.isOn (qpn : UInt32) (it : IntoIterChunk) : Bool := it.builder.isOn qpn

/-- The chunks of a queue pair among what was sent. -/
def chunksOn (qpn : UInt32) (outs : List Output) : List WrChunk :=
  (chunksIn outs).filter (·.isOn qpn)

/-- The chunks of a queue pair that a run has handed to the send handle, in order. -/
def RdmaWriteRun.chunksOn (r : RdmaWriteRun) (qpn : UInt32) : List WrChunk :=
  r.log.flatMap (OpenRdma.chunksOn qpn)

namespace RdmaWriteWorker

/-- The pending requests of a queue pair. -/
def pendingOn (w : RdmaWriteWorker) (qpn : UInt32) : List IntoIterChunk :=
  w.pendingFragmenters.filter (·.isOn qpn)

/-- Their chunks that are still to be handed out, request by request. -/
def unsentOn (w : RdmaWriteWorker) (qpn : UInt32) : List WrChunk :=
  (w.pendingOn qpn).flatMap fun it => it.collect.items

/-- The step gives the queue pair no request while an earlier one has more than one chunk left to
hand out, and no READ while one has any. -/
def Orderly (w : RdmaWriteWorker) (qpn : UInt32) (s : RdmaWriteStep) : Prop :=
  ∀ qp wr, s.Asks qpn qp wr → ∀ it ∈ w.pendingOn qpn,
    it.inner.count ≤ if wr.opcode = .rdmaRead then 0 else 1

/-- Every step of a run meets a condition on the worker before it. -/
def Always (P : RdmaWriteWorker → RdmaWriteStep → Prop) :
    RdmaWriteWorker → List RdmaWriteStep → Prop
  | _, [] => True
  | w, s :: rest => P w s ∧ Always P (w.step s).worker rest

end RdmaWriteWorker

/-! ## A round -/

namespace IntoIterChunk

/-- The chunk that the iterator hands out next. -/
def nextChunk (it : IntoIterChunk) : Option WrChunk :=
  match it.next with
  | .item c _ => some c
  | _ => none

/-- The iterator after that. -/
def nextIter (it : IntoIterChunk) : Option IntoIterChunk :=
  match it.next with
  | .item _ it' => some it'
  | _ => none

lemma collect_eq (it : IntoIterChunk) :
    it.collect.items
      = it.nextChunk.toList ++ it.nextIter.toList.flatMap fun it' => it'.collect.items := by
  rw [collect_next, nextChunk, nextIter]
  cases it.next <;> simp

/-- Handing out a chunk takes one off the count; the chunk and what is left are of the same queue
pair. -/
lemma next_item {it it' : IntoIterChunk} {c : WrChunk} (h : it.next = .item c it') :
    it'.inner.count + 1 = it.inner.count ∧ it'.builder = it.builder ∧ c.sqpn = it.builder.sqpn := by
  unfold next IntoIter.next at h
  by_cases h0 : it.inner.count = 0
  · simp [h0] at h
  · simp only [h0, if_false] at h
    split at h
    · cases h
    · injection h with hc hit
      subst hc hit
      refine ⟨Nat.succ_pred_eq_of_ne_zero h0, rfl, ?_⟩
      cases it.isRetry <;> cases it.inner.currentPos <;> rfl

lemma length_collect_le (it : IntoIterChunk) : it.collect.items.length ≤ it.inner.count := by
  generalize hn : it.inner.count = n
  induction n generalizing it with
  | zero =>
    have hdone : it.next = .done := by simp [next, IntoIter.next, hn]
    simp [collect_next, hdone]
  | succ n ih =>
    rw [collect_next]
    cases hnext : it.next with
    | done => simp
    | crash msg => simp
    | item c it' =>
      have := ih it' (by have := (next_item hnext).1; omega)
      simp only [List.length_cons]
      omega

end IntoIterChunk

/-- **A round in closed form**: one chunk of every iterator, in turn, until one panics. -/
lemma maintainLoop_round (a b : List IntoIterChunk) :
    (RdmaWriteWorker.maintainLoop a.length (a ++ b)
      = ⟨a.filterMap (·.nextChunk), b ++ a.filterMap (·.nextIter), none⟩) ∨
    (RdmaWriteWorker.maintainLoop a.length (a ++ b)).crashed.isSome ∧
      ∃ a', a' <+: a ∧ (RdmaWriteWorker.maintainLoop a.length (a ++ b)).items
        = a'.filterMap (·.nextChunk) := by
  induction a generalizing b with
  | nil => exact .inl (by simp [RdmaWriteWorker.maintainLoop])
  | cons it a ih =>
    rw [List.length_cons, List.cons_append, RdmaWriteWorker.maintainLoop]
    cases hnext : it.next with
    | done =>
      rcases ih b with h | ⟨hcrash, a', ha', hitems⟩
      · exact .inl (by simp [h, IntoIterChunk.nextChunk, IntoIterChunk.nextIter, hnext])
      · exact .inr ⟨hcrash, it :: a', (List.prefix_cons_inj it).mpr ha', by
          simp [hitems, IntoIterChunk.nextChunk, hnext]⟩
    | crash msg => exact .inr ⟨rfl, [], List.nil_prefix, rfl⟩
    | item c it' =>
      simp only [List.append_assoc]
      rcases ih (b ++ [it']) with h | ⟨hcrash, a', ha', hitems⟩
      · exact .inl (by simp [h, IntoIterChunk.nextChunk, IntoIterChunk.nextIter, hnext])
      · exact .inr ⟨hcrash, it :: a', (List.prefix_cons_inj it).mpr ha', by
          simp [hitems, IntoIterChunk.nextChunk, hnext]⟩

/-! ## Order within a queue pair -/

/-- A request with another one after it has at most one chunk left. -/
def Finishing (q : List IntoIterChunk) : Prop := q.Pairwise fun it _ => it.inner.count ≤ 1

/-- The chunks of a round and those left after it, in the order of the requests. -/
lemma Finishing.round {q : List IntoIterChunk} (h : Finishing q) :
    q.filterMap (·.nextChunk) ++ (q.filterMap (·.nextIter)).flatMap (fun it => it.collect.items)
      = q.flatMap fun it => it.collect.items := by
  induction q with
  | nil => rfl
  | cons it q ih =>
    obtain ⟨hit, hq⟩ := List.pairwise_cons.mp h
    have ih := ih hq
    rw [List.flatMap_cons, ← ih, it.collect_eq]
    cases q with
    | nil => cases hc : it.nextChunk <;> cases hi : it.nextIter <;> simp [hc, hi]
    | cons it₂ q =>
      -- its last chunk is handed out before the next request's
      have hlast : it.nextIter.toList.flatMap (fun it' => it'.collect.items) = [] := by
        unfold IntoIterChunk.nextIter
        cases hnext : it.next with
        | done | crash msg => rfl
        | item c it' =>
          have hcount := (IntoIterChunk.next_item hnext).1
          have hle := it'.length_collect_le
          have := hit it₂ List.mem_cons_self
          simpa using List.length_eq_zero_iff.mp (show it'.collect.items.length = 0 by omega)
      rw [hlast, List.append_nil]
      cases hc : it.nextChunk <;> cases hi : it.nextIter <;> simp_all

lemma Finishing.next {q : List IntoIterChunk} (h : Finishing q) :
    Finishing (q.filterMap (·.nextIter)) := by
  refine List.Pairwise.filterMap _ (fun it it₂ hle it' hit' _ _ => ?_) h
  unfold IntoIterChunk.nextIter at hit'
  split at hit'
  · next c it'' hnext =>
      obtain rfl := Option.some.inj hit'
      have := (IntoIterChunk.next_item hnext).1
      omega
  · cases hit'

lemma filter_filterMap {α β : Type} {f : α → Option β} {p : α → Bool} {q : β → Bool}
    (h : ∀ a, ∀ b ∈ f a, q b = p a) (l : List α) :
    (l.filterMap f).filter q = (l.filter p).filterMap f := by
  induction l with
  | nil => rfl
  | cons a l ih =>
    cases hb : f a with
    | none => by_cases hp : p a <;> simp [hb, hp, ih]
    | some b => by_cases hp : p a <;> simp [hb, hp, ih, h a b hb]

/-- Handing out chunks and selecting those of a queue pair commute. -/
lemma filter_nextChunk (qpn : UInt32) (q : List IntoIterChunk) :
    (q.filterMap (·.nextChunk)).filter (·.isOn qpn)
      = (q.filter (·.isOn qpn)).filterMap (·.nextChunk) := by
  refine filter_filterMap (fun it c hc => ?_) q
  unfold IntoIterChunk.nextChunk at hc
  split at hc
  · next c' it' hnext =>
      obtain rfl := Option.some.inj hc
      rw [WrChunk.isOn, IntoIterChunk.isOn, WrChunk.isOn, (IntoIterChunk.next_item hnext).2.2]
  · cases hc

lemma filter_nextIter (qpn : UInt32) (q : List IntoIterChunk) :
    (q.filterMap (·.nextIter)).filter (·.isOn qpn)
      = (q.filter (·.isOn qpn)).filterMap (·.nextIter) := by
  refine filter_filterMap (fun it it' hit' => ?_) q
  unfold IntoIterChunk.nextIter at hit'
  split at hit'
  · next c it'' hnext =>
      obtain rfl := Option.some.inj hit'
      rw [IntoIterChunk.isOn, IntoIterChunk.isOn, (IntoIterChunk.next_item hnext).2.1]
  · cases hit'

/-! ## One request -/

namespace RdmaWriteWorker

/-- What launching the chunks of a request does for a queue pair: the request is of another one; it
is a READ, whose chunk is sent; its chunks are queued; or the worker panics. -/
inductive LaunchedOn (qpn : UInt32) (w : RdmaWriteWorker) (elem : SendQueueElem) :
    RdmaWriteWorker × List Output → Prop
  | other {r : RdmaWriteWorker × List Output}
      (ne : qpnToIndex elem.qpParam.sqpn ≠ qpnToIndex qpn) (chunks : chunksOn qpn r.2 = [])
      (pending : r.1.panicked = none → r.1.pendingOn qpn = w.pendingOn qpn) :
      LaunchedOn qpn w elem r
  | read (eq : qpnToIndex elem.qpParam.sqpn = qpnToIndex qpn) (read : elem.wr.opcode = .rdmaRead) :
      LaunchedOn qpn w elem (w, [.chunk (readChunk elem)])
  | queued (it : IntoIterChunk) (eq : qpnToIndex elem.qpParam.sqpn = qpnToIndex qpn)
      (write : elem.wr.opcode ≠ .rdmaRead) (iter : it.isOn qpn = true)
      (descriptors : elem.descriptors = it.collect.items) :
      LaunchedOn qpn w elem ({ w with pendingFragmenters := w.pendingFragmenters ++ [it] }, [])
  | panicked (msg : String) (eq : qpnToIndex elem.qpParam.sqpn = qpnToIndex qpn) :
      LaunchedOn qpn w elem ({ w with panicked := some msg }, [])

lemma chunksOn_submitOuts (qpn q : UInt32) (event : Option SendEvent) (elem : SendQueueElem)
    (outs : List Output) : chunksOn qpn (submitOuts q event elem ++ outs) = chunksOn qpn outs := by
  rw [chunksOn, chunksIn_append, chunksIn_submitOuts, List.nil_append, chunksOn]

lemma launchRead_launchedOn (qpn : UInt32) (w : RdmaWriteWorker) {elem : SendQueueElem}
    (hread : elem.wr.opcode = .rdmaRead) : LaunchedOn qpn w elem (launchRead w elem) := by
  by_cases hq : qpnToIndex elem.qpParam.sqpn = qpnToIndex qpn
  · exact .read hq hread
  · refine .other hq ?_ fun _ => rfl
    have hoff : (readChunk elem).isOn qpn = false := beq_eq_false_iff_ne.mpr hq
    simp [launchRead, chunksOn, chunksIn, hoff]

lemma pushFragmenter_launchedOn (qpn : UInt32) (w : RdmaWriteWorker) {elem : SendQueueElem}
    (hwrite : elem.wr.opcode ≠ .rdmaRead) : LaunchedOn qpn w elem (pushFragmenter w elem) := by
  unfold pushFragmenter
  cases hit : wrChunkFragmenter elem.wr elem.qpParam elem.psn with
  | error msg =>
    by_cases hq : qpnToIndex elem.qpParam.sqpn = qpnToIndex qpn
    · exact .panicked msg hq
    · exact .other hq rfl nofun
  | ok it =>
    have hsqpn : it.builder.sqpn = elem.qpParam.sqpn := by
      unfold wrChunkFragmenter chunkFragmenter at hit
      split at hit
      · cases hit
      · cases hit
        rfl
    have hon : it.isOn qpn = decide (qpnToIndex elem.qpParam.sqpn = qpnToIndex qpn) := by
      rw [IntoIterChunk.isOn, WrChunk.isOn, hsqpn]
      rfl
    by_cases hq : qpnToIndex elem.qpParam.sqpn = qpnToIndex qpn
    · refine .queued it hq hwrite (by simp [hon, hq]) ?_
      rw [SendQueueElem.descriptors, if_neg hwrite, hit]
    · exact .other hq rfl fun _ => by simp [pendingOn, hon, hq]

end RdmaWriteWorker

/-! ## Runs -/

/-- The attributes that a request finds for its queue pair carry the number of the queue pair.
(`create_qp` writes it.) -/
def RdmaWriteStep.Numbered (s : RdmaWriteStep) : Prop :=
  ∀ attrs q wr qp, s = .process attrs (.write q wr) → attrs.getQp q = some qp →
    qpnToIndex qp.qpn = qpnToIndex q

/-- The descriptors of the requests accepted on a queue pair, in order. -/
def RdmaWriteRun.descriptorsOn (r : RdmaWriteRun) (qpn : UInt32) : List WrChunk :=
  (r.postedOn qpn).flatMap fun x => x.elem.descriptors

/-- What a queue pair has transmitted so far is in order; and unless the worker has panicked, the
pending chunks are the rest, with the requests before the last one about to be finished. -/
structure InOrder (qpn : UInt32) (r : RdmaWriteRun) : Prop where
  sent : r.chunksOn qpn <+: r.descriptorsOn qpn
  rest : r.worker.panicked = none → r.chunksOn qpn ++ r.worker.unsentOn qpn = r.descriptorsOn qpn
  finishing : r.worker.panicked = none → Finishing (r.worker.pendingOn qpn)

lemma RdmaWriteRun.chunksOn_step (r : RdmaWriteRun) (s : RdmaWriteStep) (qpn : UInt32) :
    (r.step s).chunksOn qpn = r.chunksOn qpn ++ OpenRdma.chunksOn qpn (r.worker.step s).outs := by
  simp [RdmaWriteRun.chunksOn, RdmaWriteRun.step]

lemma RdmaWriteRun.descriptorsOn_step (r : RdmaWriteRun) (s : RdmaWriteStep) (qpn : UInt32) :
    (r.step s).descriptorsOn qpn = r.descriptorsOn qpn
      ++ (newWrsOn qpn (r.worker.step s).outs).flatMap SendQueueElem.descriptors := by
  simp [RdmaWriteRun.descriptorsOn, RdmaWriteRun.postedOn, RdmaWriteRun.step, postedIn,
    List.flatMap_map]

namespace InOrder

variable {qpn : UInt32} {r : RdmaWriteRun}

variable (h : InOrder qpn r)

include h

/-- A step that sends nothing, keeps the pending requests and does not bring the worker back. -/
lemma quiet {s : RdmaWriteStep} (houts : (r.worker.step s).outs = [])
    (hpending : (r.worker.step s).worker.pendingFragmenters = r.worker.pendingFragmenters)
    (halive : (r.worker.step s).worker.panicked = none → r.worker.panicked = none) :
    InOrder qpn (r.step s) := by
  have hp : (r.step s).worker.pendingOn qpn = r.worker.pendingOn qpn := by
    rw [RdmaWriteWorker.pendingOn, RdmaWriteWorker.pendingOn, ← hpending]
    rfl
  have hchunks : (r.step s).chunksOn qpn = r.chunksOn qpn := by
    rw [r.chunksOn_step, houts]
    exact List.append_nil _
  have hdesc : (r.step s).descriptorsOn qpn = r.descriptorsOn qpn := by
    rw [r.descriptorsOn_step, houts]
    exact List.append_nil _
  refine ⟨by rw [hchunks, hdesc]; exact h.sent, fun ha => ?_, fun ha => ?_⟩
  · rw [hchunks, hdesc, RdmaWriteWorker.unsentOn, hp]
    exact h.rest (halive ha)
  · rw [hp]
    exact h.finishing (halive ha)

/-- A round of maintenance. -/
lemma maintainance (halive : r.worker.panicked = none) : InOrder qpn (r.step .maintainance) := by
  have hrest := h.rest halive
  have hfin := h.finishing halive
  have houts : (r.worker.step .maintainance).outs
      = (RdmaWriteWorker.maintainLoop r.worker.pendingFragmenters.length
          r.worker.pendingFragmenters).items.map .chunk := by
    simp [RdmaWriteWorker.step, RdmaWriteWorker.maintainance, halive]
  have hchunks : (r.step .maintainance).chunksOn qpn = r.chunksOn qpn
      ++ (RdmaWriteWorker.maintainLoop r.worker.pendingFragmenters.length
          r.worker.pendingFragmenters).items.filter (·.isOn qpn) := by
    rw [r.chunksOn_step, houts, OpenRdma.chunksOn, chunksIn_map_chunk]
  have hdesc : (r.step .maintainance).descriptorsOn qpn = r.descriptorsOn qpn := by
    rw [r.descriptorsOn_step, houts]
    simp [newWrsOn, List.filterMap_map]
  have hround : r.descriptorsOn qpn = r.chunksOn qpn
      ++ ((r.worker.pendingOn qpn).filterMap (·.nextChunk)
        ++ ((r.worker.pendingOn qpn).filterMap (·.nextIter)).flatMap fun it =>
          it.collect.items) := by
    rw [hfin.round]
    exact hrest.symm
  have hloop := maintainLoop_round r.worker.pendingFragmenters []
  rw [List.append_nil] at hloop
  rcases hloop with hloop | ⟨hcrash, a', ha', hitems⟩
  · rw [hloop] at hchunks
    rw [filter_nextChunk] at hchunks
    have hpend : (r.step .maintainance).worker.pendingOn qpn
        = (r.worker.pendingOn qpn).filterMap (·.nextIter) := by
      rw [RdmaWriteWorker.pendingOn, RdmaWriteWorker.pendingOn, ← filter_nextIter]
      simp [RdmaWriteRun.step, RdmaWriteWorker.step, RdmaWriteWorker.maintainance, halive, hloop]
    refine ⟨?_, fun _ => ?_, fun _ => ?_⟩
    · rw [hchunks, hdesc, hround]
      exact (List.prefix_append_right_inj _).mpr (List.prefix_append _ _)
    · rw [hchunks, hdesc, hround, RdmaWriteWorker.unsentOn, hpend, List.append_assoc]
      rfl
    · rw [hpend]
      exact hfin.next
  · have hdead : (r.step .maintainance).worker.panicked.isSome := by
      simp only [RdmaWriteRun.step, RdmaWriteWorker.step, RdmaWriteWorker.maintainance, halive,
        Option.isSome_none, Bool.false_eq_true, if_false]
      exact hcrash
    refine ⟨?_, fun ha => ?_, fun ha => ?_⟩
    · rw [hchunks, hitems, filter_nextChunk, hdesc, hround]
      refine (List.prefix_append_right_inj _).mpr (List.IsPrefix.trans ?_ (List.prefix_append _ _))
      exact (ha'.filter _).filterMap _
    all_goals
      rw [ha] at hdead
      cases hdead

/-- A request is accepted: its chunk goes to the send handle, or its chunks are queued. -/
lemma accept (halive : r.worker.panicked = none) {s : RdmaWriteStep}
    (c : Option WrChunk) (it : Option IntoIterChunk) {elems : List SendQueueElem}
    (hchunk : OpenRdma.chunksOn qpn (r.worker.step s).outs = c.toList)
    (helems : newWrsOn qpn (r.worker.step s).outs = elems)
    (hiter : (r.worker.step s).worker.panicked = none →
      (r.worker.step s).worker.pendingOn qpn = r.worker.pendingOn qpn ++ it.toList)
    (hdesc : (r.worker.step s).worker.panicked = none →
      elems.flatMap SendQueueElem.descriptors = c.toList ++ it.toList.flatMap fun it =>
        it.collect.items)
    (hread : c.isSome → r.worker.unsentOn qpn = [] ∧ (r.worker.step s).worker.panicked = none)
    (hwrite : it.isSome → ∀ it' ∈ r.worker.pendingOn qpn, it'.inner.count ≤ 1) :
    InOrder qpn (r.step s) := by
  have hrest := h.rest halive
  have hchunks : (r.step s).chunksOn qpn = r.chunksOn qpn ++ c.toList := by
    rw [r.chunksOn_step, hchunk]
  have hdescs : (r.step s).descriptorsOn qpn
      = r.descriptorsOn qpn ++ elems.flatMap SendQueueElem.descriptors := by
    rw [r.descriptorsOn_step, helems]
  -- a chunk is sent at once only if nothing is pending
  have hcomm : r.worker.unsentOn qpn ++ c.toList = c.toList ++ r.worker.unsentOn qpn := by
    cases c with
    | none => simp
    | some c => rw [(hread rfl).1, List.append_nil, List.nil_append]
  have hwhole : (r.worker.step s).worker.panicked = none →
      (r.step s).chunksOn qpn ++ (r.step s).worker.unsentOn qpn = (r.step s).descriptorsOn qpn := by
    intro ha
    have hpend : (r.step s).worker.pendingOn qpn = r.worker.pendingOn qpn ++ it.toList := hiter ha
    rw [hchunks, hdescs, ← hrest, hdesc ha, RdmaWriteWorker.unsentOn, hpend, List.flatMap_append,
      List.append_assoc, List.append_assoc, ← List.append_assoc c.toList,
      ← RdmaWriteWorker.unsentOn, ← hcomm, List.append_assoc]
  refine ⟨?_, hwhole, fun ha => ?_⟩
  · cases c with
    | none =>
      rw [hchunks, hdescs, Option.toList_none, List.append_nil]
      exact h.sent.trans (List.prefix_append _ _)
    | some c => exact ⟨_, hwhole (hread rfl).2⟩
  · have hpend : (r.step s).worker.pendingOn qpn = r.worker.pendingOn qpn ++ it.toList := hiter ha
    rw [hpend]
    cases it with
    | none => simpa using h.finishing halive
    | some it =>
      refine List.pairwise_append.mpr ⟨h.finishing halive, List.pairwise_singleton _ _, ?_⟩
      exact fun it' hit' _ _ => hwrite rfl it' hit'

/-- The worker takes a task. -/
lemma process (halive : r.worker.panicked = none) {attrs : QpTable QpAttr}
    {task : RdmaWriteTask} (hnum : (RdmaWriteStep.process attrs task).Numbered)
    (hord : r.worker.Orderly qpn (.process attrs task)) :
    InOrder qpn (r.step (.process attrs task)) := by
  have hproc := r.worker.process_processes attrs task
  have hstep : r.worker.step (.process attrs task) = r.worker.process attrs task := rfl
  generalize r.worker.process attrs task = res at hproc hstep
  cases hproc with
  | nothing | ack | newComplete =>
    exact h.quiet (by rw [hstep]) (by rw [hstep]) fun _ => halive
  | @submit q wr numPsn launch supported needed launched =>
    rcases r.worker.submit_cases attrs q wr numPsn (eventOp wr) launch with
      ⟨hw, houts⟩ | ⟨qp, n, ctx, hqp, -, -, -, ⟨e, -, hsub⟩ | ⟨event, -, hsub⟩⟩
    · exact h.quiet (by rw [hstep, houts]) (by rw [hstep, hw]) fun _ => halive
    · exact h.quiet (by rw [hstep, hsub]) (by rw [hstep, hsub]) fun _ => halive
    rw [hsub] at hstep
    have hidx : qpnToIndex qp.qpn = qpnToIndex q := hnum attrs q wr qp rfl hqp
    have hlaunch : ∀ w, RdmaWriteWorker.LaunchedOn qpn w ⟨ctx.psn, wr, qp.params ctx.msn⟩
        (launch w ⟨ctx.psn, wr, qp.params ctx.msn⟩) := by
      intro w
      rcases launched with ⟨hop, rfl⟩ | ⟨hop, rfl⟩
      · exact w.launchRead_launchedOn qpn hop
      · exact w.pushFragmenter_launchedOn qpn hop
    have hnone : ∀ w, newWrsOn qpn (launch w ⟨ctx.psn, wr, qp.params ctx.msn⟩).2 = [] := by
      intro w
      rcases launched with ⟨-, rfl⟩ | ⟨-, rfl⟩
      · exact ((RdmaWriteWorker.launches_launchRead w _).2 qpn).1
      · exact ((RdmaWriteWorker.launches_pushFragmenter w _).2 qpn).1
    have hcase :=
      hlaunch { r.worker with sqCtxTable := r.worker.sqCtxTable.setQp q (ctx.advance n) }
    have hwrs := hnone { r.worker with sqCtxTable := r.worker.sqCtxTable.setQp q (ctx.advance n) }
    generalize launch { r.worker with sqCtxTable := r.worker.sqCtxTable.setQp q (ctx.advance n) }
      ⟨ctx.psn, wr, qp.params ctx.msn⟩ = res' at hstep hcase hwrs
    have hidx : qpnToIndex qp.qpn = qpnToIndex q := hnum attrs q wr qp rfl hqp
    have hchunks : OpenRdma.chunksOn qpn (r.worker.step (.process attrs (.write q wr))).outs
        = OpenRdma.chunksOn qpn res'.2 := by
      rw [hstep, RdmaWriteWorker.chunksOn_submitOuts]
    have helems : newWrsOn qpn (r.worker.step (.process attrs (.write q wr))).outs
        = if qpnToIndex qp.qpn = qpnToIndex qpn then [⟨ctx.psn, wr, qp.params ctx.msn⟩] else
          [] := by
      rw [hstep, hidx, RdmaWriteWorker.newWrsOn_append, RdmaWriteWorker.newWrsOn_submitOuts, hwrs,
        List.append_nil]
    have hfew : qpnToIndex qp.qpn = qpnToIndex qpn → ∀ it ∈ r.worker.pendingOn qpn,
        it.inner.count ≤ if wr.opcode = .rdmaRead then 0 else 1 := fun heq =>
      hord qp wr ⟨attrs, q, rfl, hidx.symm.trans heq, hqp⟩
    cases hcase with
    | other ne chunks pending =>
      refine h.accept halive none none (hchunks.trans chunks)
        (helems.trans (if_neg ne)) ?_ (fun _ => rfl) (by rintro ⟨⟩)
        (by rintro ⟨⟩)
      rw [hstep, Option.toList_none, List.append_nil]
      exact pending
    | read eq read =>
      have read : wr.opcode = .rdmaRead := read
      have hfew := hfew eq
      rw [if_pos read] at hfew
      have hon : (RdmaWriteWorker.readChunk ⟨ctx.psn, wr, qp.params ctx.msn⟩).isOn qpn = true :=
        beq_iff_eq.mpr eq
      refine h.accept halive
        (some (RdmaWriteWorker.readChunk ⟨ctx.psn, wr, qp.params ctx.msn⟩)) none (hchunks.trans ?_)
        (helems.trans (if_pos eq)) ?_ ?_ ?_ (by rintro ⟨⟩)
      · simp only [OpenRdma.chunksOn, chunksIn, List.filterMap_cons, List.filterMap_nil,
          List.filter_cons, hon, if_true, List.filter_nil]
        rfl
      · rw [hstep]
        exact fun _ => (List.append_nil _).symm
      · intro _
        rw [List.flatMap_singleton, SendQueueElem.descriptors, if_pos read]
        rfl
      · intro _
        rw [hstep]
        refine ⟨?_, halive⟩
        refine List.flatMap_eq_nil_iff.mpr fun it hit => ?_
        have := it.length_collect_le
        have := hfew it hit
        exact List.length_eq_zero_iff.mp (by omega)
    | queued it eq write iter descriptors =>
      have write : wr.opcode ≠ .rdmaRead := write
      have hfew := hfew eq
      rw [if_neg write] at hfew
      refine h.accept halive none (some it) hchunks (helems.trans (if_pos eq)) ?_ ?_
        (by rintro ⟨⟩) fun _ => hfew
      · rw [hstep]
        intro _
        simp [RdmaWriteWorker.pendingOn, iter]
      · intro _
        simpa using descriptors
    | panicked msg eq =>
      refine h.accept halive none none hchunks helems ?_ ?_ (by rintro ⟨⟩) (by rintro ⟨⟩)
      all_goals
        rw [hstep]
        rintro ⟨⟩

/-- **Every step keeps the order.** -/
theorem step {s : RdmaWriteStep} (hnum : s.Numbered)
    (hord : r.worker.Orderly qpn s) : InOrder qpn (r.step s) := by
  cases hp : r.worker.panicked with
  | some msg =>
    have hdead : r.worker.step s = ⟨r.worker, [], .ok ()⟩ := by
      cases s <;>
        simp [RdmaWriteWorker.step, RdmaWriteWorker.process, RdmaWriteWorker.maintainance, hp]
    exact h.quiet (by rw [hdead]) (by rw [hdead]) (by rw [hdead]; exact id)
  | none =>
    cases s with
    | maintainance => exact h.maintainance hp
    | process attrs task => exact h.process hp hnum hord

/-- So does every run. -/
lemma run {steps : List RdmaWriteStep} (hnum : ∀ s ∈ steps, s.Numbered)
    (hord : r.worker.Always (·.Orderly qpn) steps) :
    InOrder qpn (steps.foldl RdmaWriteRun.step r) := by
  induction steps generalizing r with
  | nil => exact h
  | cons s rest ih =>
    exact ih (h.step (hnum s List.mem_cons_self) hord.1)
      (fun s' hs' => hnum s' (List.mem_cons_of_mem _ hs')) hord.2

end InOrder

/-! ## PSNs -/

/-- The PSNs set aside for a request with payload reach past the start of its last chunk, and no
remote address computed for it overflows.  (A READ has one chunk and one PSN.) -/
def SendWrRdma.ChunksCounted (wr : SendWrRdma) (qp : QpAttr) : Prop :=
  wr.opcode ≠ .rdmaRead → ∀ p n, convertIbvMtuToU16 qp.pmtu = some p →
    numPsn qp.pmtu wr.raddr wr.length = some n →
    wr.RemoteFits p.toUInt64.toNat ∧
      (blockCount (wr.raddr.toNat / p.toUInt64.toNat * p.toUInt64.toNat) 0x10000
        (wr.raddr.toNat + wr.length.toNat) - 1) * (0x10000 / p.toUInt64.toNat) < n.toNat

/-- Every request that the step hands to the queue pair is counted so. -/
def RdmaWriteStep.ChunksCounted (s : RdmaWriteStep) (qpn : UInt32) : Prop :=
  ∀ qp wr, s.Asks qpn qp wr → wr.ChunksCounted qp

/-- The chunks of a granted request start at increasing positions of its grant. -/
lemma Grant.From.descriptors_psn {qpn : UInt32} {ctx : SendQueueContext} {g : Grant} {pos : ℕ}
    (h : Grant.From qpn ctx g) (hcounted : g.wr.ChunksCounted g.qp) (hpsn : ctx.psn = Psn.ofPos pos)
    {x : Posted} (hx : g.posted = some x) :
    ∃ ps : List ℕ, x.elem.descriptors.map WrChunk.psn = ps.map Psn.ofPos ∧ ps.Pairwise (· < ·) ∧
      ∀ p ∈ ps, pos ≤ p ∧ p < pos + g.numPsn.toNat := by
  have hneeded := h.needed
  rw [h.elem x hx, SendQueueElem.descriptors]
  by_cases hop : g.wr.opcode = .rdmaRead
  · rw [if_pos hop]
    refine ⟨[pos], ?_, List.pairwise_singleton _ _, fun p hp => ?_⟩
    · show [ctx.psn] = _
      rw [hpsn]
      rfl
    rw [List.mem_singleton.mp hp]
    exact ⟨le_rfl, Nat.lt_add_of_pos_right h.numPsn_pos⟩
  · rw [psnsNeeded, if_neg hop] at hneeded
    rw [if_neg hop]
    obtain ⟨p, hp⟩ : ∃ p, convertIbvMtuToU16 g.qp.pmtu = some p := by
      cases hp : convertIbvMtuToU16 g.qp.pmtu with
      | none => simp [OpenRdma.numPsn, hp] at hneeded
      | some p => exact ⟨p, rfl⟩
    obtain ⟨hremote, hlast⟩ := hcounted hop p g.numPsn hp hneeded
    have hs : g.wr.Sendable p.toUInt64.toNat := ⟨convertIbvMtuToU16_eq_some hp, hremote⟩
    obtain ⟨it, hit, hitems⟩ :
        ∃ it, wrChunkFragmenter g.wr (g.qp.params ctx.msn) (Psn.ofPos pos) = .ok it ∧ _ :=
      wrChunkFragmenter_isPrefix hs hp rfl
    simp only [hpsn, hit]
    have hcount : (chunkCut g.wr (g.qp.params ctx.msn) pos p.toUInt64.toNat).count
        = blockCount (g.wr.raddr.toNat / p.toUInt64.toNat * p.toUInt64.toNat) 0x10000
          (g.wr.raddr.toNat + g.wr.length.toNat) := by
      rw [Cut.count, chunkCut, chunkCut_size hs]
      rfl
    rw [List.prefix_iff_eq_take.mp hitems, Cut.chunks, ← List.map_take, List.map_map]
    generalize it.collect.items.length = m
    refine ⟨((List.range (chunkCut g.wr (g.qp.params ctx.msn) pos p.toUInt64.toNat).count).take
      m).map fun k => pos + k * (0x10000 / p.toUInt64.toNat), ?_, ?_, ?_⟩
    · rw [List.map_map]
      refine List.map_congr_left fun k hk => ?_
      rw [Function.comp_apply, Cut.chunkAt_eq _ (List.mem_range.mp (List.mem_of_mem_take hk))]
      rfl
    · rw [List.pairwise_map]
      refine (List.pairwise_lt_range.sublist (List.take_sublist _ _)).imp fun {i j} hij => ?_
      exact Nat.add_lt_add_left (Nat.mul_lt_mul_of_pos_right hij (chunkCut_q_pos hs)) pos
    · intro a ha
      obtain ⟨k, hk, rfl⟩ := List.mem_map.mp ha
      have hk := List.mem_range.mp (List.mem_of_mem_take hk)
      rw [hcount] at hk
      have hle := Nat.mul_le_mul_right (0x10000 / p.toUInt64.toNat) (Nat.le_sub_one_of_lt hk)
      exact ⟨Nat.le_add_right _ _, by omega⟩

/-- The chunks of all the requests granted on a queue pair start at increasing positions. -/
lemma descriptors_positions {qpn : UInt32} {gs : List Grant}
    (hgrants : ∀ i g, gs[i]? = some g → ∃ ctx, Grant.From qpn ctx g ∧
      ctx.psn = Psn.ofPos (grantPos gs i))
    (hcounted : ∀ g ∈ gs, g.wr.ChunksCounted g.qp) :
    ∃ ps : List ℕ, ((gs.filterMap Grant.posted).flatMap fun x => x.elem.descriptors).map WrChunk.psn
        = ps.map Psn.ofPos ∧
      ps.Pairwise (· < ·) ∧ ∀ p ∈ ps, p < grantPos gs gs.length := by
  induction gs using List.reverseRecOn with
  | nil => exact ⟨[], rfl, .nil, fun _ h => absurd h List.not_mem_nil⟩
  | append_singleton gs g ih =>
    obtain ⟨ps, hps, hsorted, hbound⟩ := ih
      (fun i g' hi => by
        have hlt : i < gs.length := (List.getElem?_eq_some_iff.mp hi).1
        obtain ⟨ctx, hfrom, hpsn⟩ := hgrants i g' (by rw [List.getElem?_append_left hlt, hi])
        rw [grantPos_append_of_le hlt.le] at hpsn
        exact ⟨ctx, hfrom, hpsn⟩)
      (fun g' hg' => hcounted g' (List.mem_append_left _ hg'))
    rw [List.length_append, List.length_singleton, grantPos_snoc, List.filterMap_append,
      List.flatMap_append, List.map_append, hps]
    cases hx : g.posted with
    | none =>
      refine ⟨ps, by simp [hx], hsorted, fun p hp => ?_⟩
      exact (hbound p hp).trans_le (Nat.le_add_right _ _)
    | some x =>
      obtain ⟨ctx, hfrom, hpsn⟩ := hgrants gs.length g (by simp)
      rw [grantPos_append_of_le le_rfl] at hpsn
      obtain ⟨ps', hps', hsorted', hbound'⟩ := hfrom.descriptors_psn
        (hcounted g (List.mem_append_right _ (List.mem_singleton_self g))) hpsn hx
      refine ⟨ps ++ ps', ?_, List.pairwise_append.mpr ⟨hsorted, hsorted', ?_⟩, ?_⟩
      · simp [hx, hps']
      · exact fun p hp p' hp' => (hbound p hp).trans_le (hbound' p' hp').1
      · intro p hp
        rcases List.mem_append.mp hp with hp | hp
        · exact (hbound p hp).trans_le (Nat.le_add_right _ _)
        · exact (hbound' p hp).2

/-- **A queue pair is transmitted in order.**  In every run from an idle worker in which each
request for the queue pair arrives when at most one chunk of each earlier one is pending (none, if
it is a READ), and in which the PSNs set aside for the requests reach past the start of their last
chunks: the chunks handed to the send handle are those of the accepted requests, request by request,
as far as they have come; and they carry the PSNs of increasing positions. -/
theorem chunks_in_psnOrder (qpn : UInt32) (w : RdmaWriteWorker) (steps : List RdmaWriteStep)
    (fresh : w.sqCtxTable.getQp qpn = some default) (idle : w.pendingFragmenters = [])
    (numbered : ∀ s ∈ steps, s.Numbered) (orderly : w.Always (·.Orderly qpn) steps)
    (counted : ∀ s ∈ steps, s.ChunksCounted qpn) :
    (w.run steps).chunksOn qpn <+: (w.run steps).descriptorsOn qpn ∧
    ∃ positions : List ℕ, ((w.run steps).chunksOn qpn).map WrChunk.psn = positions.map Psn.ofPos ∧
      positions.Pairwise (· < ·) := by
  have hinit : InOrder qpn ⟨w, []⟩ := by
    refine ⟨List.nil_prefix, fun _ => ?_, fun _ => ?_⟩
    · show w.unsentOn qpn = []
      rw [RdmaWriteWorker.unsentOn, RdmaWriteWorker.pendingOn, idle]
      rfl
    · rw [RdmaWriteWorker.pendingOn, idle]
      exact .nil
  have horder : InOrder qpn (w.run steps) := hinit.run numbered orderly
  refine ⟨horder.sent, ?_⟩
  obtain ⟨ctx, gs, hledger⟩ := run_ledger fresh steps
  obtain ⟨ps, hps, hsorted, -⟩ := descriptors_positions
    (fun i g hi => by
      obtain ⟨ctx, hfrom, -, hpsn⟩ := hledger.grants i g hi
      exact ⟨ctx, hfrom, hpsn⟩)
    (fun g hg => by
      obtain ⟨s, hs, hask⟩ := hledger.asked g hg
      exact counted s hs _ _ hask)
  rw [← hledger.posted] at hps
  have htake := congrArg (List.map WrChunk.psn) (List.prefix_iff_eq_take.mp horder.sent)
  rw [List.map_take, RdmaWriteRun.descriptorsOn, hps, ← List.map_take] at htake
  exact ⟨_, htake, hsorted.sublist (List.take_sublist _ _)⟩

/-! ## Two requests -/

/-- Queue pair 0x100, with a path MTU of 256 bytes. -/
def qp256Attrs : QpTable QpAttr := .newWith { (default : QpAttr) with qpn := 0x100, pmtu := 1 }

/-- A request of two chunks, the second of one packet. -/
def twoChunks : SendWrRdma := ⟨⟨7, 0, 0x1000, 0x10100, 1, 0, .rdmaWrite⟩, 0x100000, 1⟩

/-- A request of one packet. -/
def onePacket (op : WorkReqOpCode) : SendWrRdma := ⟨⟨8, 0, 0x1000, 256, 1, 0, op⟩, 0x100000, 1⟩

/-- A request that arrives when the one before it has one chunk left. -/
theorem chunks_in_psnOrder_oneLeft :
    let steps : List RdmaWriteStep := [.process qp256Attrs (.write 0x100 twoChunks), .maintainance,
      .process qp256Attrs (.write 0x100 (onePacket .rdmaWrite)), .maintainance]
    let run := (default : RdmaWriteWorker).run steps
    (run.chunksOn 0x100).length = 3 ∧
    ∃ positions : List ℕ, (run.chunksOn 0x100).map WrChunk.psn = positions.map Psn.ofPos ∧
      positions.Pairwise (· < ·) := by
  intro steps run
  have hasks : ∀ s ∈ steps, ∀ qp wr, s.Asks 0x100 qp wr →
      qp.pmtu = 1 ∧ (wr = twoChunks ∨ wr = onePacket .rdmaWrite) := by
    intro s hs qp wr hask
    obtain ⟨attrs, q, rfl, -, hqp⟩ := hask
    simp only [steps, List.mem_cons, List.not_mem_nil, or_false, reduceCtorEq, false_or,
      RdmaWriteStep.process.injEq, RdmaWriteTask.write.injEq] at hs
    rcases hs with ⟨rfl, rfl, rfl⟩ | ⟨rfl, rfl, rfl⟩
    · exact ⟨by rw [← Option.some.inj hqp]; rfl, .inl rfl⟩
    · exact ⟨by rw [← Option.some.inj hqp]; rfl, .inr rfl⟩
  have hnumbered : ∀ s ∈ steps, s.Numbered := by
    intro s hs attrs q wr qp heq hqp
    subst heq
    simp only [steps, List.mem_cons, List.not_mem_nil, or_false, reduceCtorEq, false_or,
      RdmaWriteStep.process.injEq, RdmaWriteTask.write.injEq] at hs
    rcases hs with ⟨rfl, rfl, rfl⟩ | ⟨rfl, rfl, rfl⟩
    all_goals
      rw [← Option.some.inj hqp]
      rfl
  have hcounted : ∀ s ∈ steps, s.ChunksCounted 0x100 := by
    intro s hs qp wr hask
    obtain ⟨hmtu, hwr⟩ := hasks s hs qp wr hask
    intro _ p n hp hn
    rw [hmtu] at hp hn
    cases hp
    rcases hwr with rfl | rfl
    · have hn' : numPsn 1 twoChunks.raddr twoChunks.length = some 257 := by decide
      rw [hn'] at hn
      cases hn
      exact ⟨SendWrRdma.remoteFits (by decide), by decide⟩
    · have hn' : numPsn 1 (onePacket .rdmaWrite).raddr (onePacket .rdmaWrite).length = some 1 := by
        decide
      rw [hn'] at hn
      cases hn
      exact ⟨SendWrRdma.remoteFits (by decide), by decide⟩
  have hfew : ∀ w : RdmaWriteWorker, (∀ it ∈ w.pendingOn 0x100, it.inner.count ≤ 1) → ∀ s ∈ steps,
      w.Orderly 0x100 s := by
    intro w hw s hs qp wr hask it hit
    obtain ⟨-, hwr⟩ := hasks s hs qp wr hask
    rcases hwr with rfl | rfl
    all_goals exact hw it hit
  have horderly : (default : RdmaWriteWorker).Always (·.Orderly 0x100) steps :=
    ⟨hfew _ (by decide) _ (by simp [steps]), fun _ _ h => (nomatch h),
      hfew _ (by decide +kernel) _ (by simp [steps]), fun _ _ h => (nomatch h), trivial⟩
  exact ⟨by decide +kernel,
    (chunks_in_psnOrder 0x100 default steps rfl rfl hnumbered horderly hcounted).2⟩

/-- **Later requests overtake.**  With two chunks pending, the chunk of the next request (PSN 257)
is handed out in the same round as the first of them, before the second (PSN 256); and a READ in its
place is handed out before both. -/
theorem chunks_overtaken :
    let write := RdmaWriteStep.process qp256Attrs (.write 0x100 twoChunks)
    let next := RdmaWriteStep.process qp256Attrs (.write 0x100 (onePacket .rdmaWrite))
    let read := RdmaWriteStep.process qp256Attrs (.write 0x100 (onePacket .rdmaRead))
    (((default : RdmaWriteWorker).run [write, next, .maintainance, .maintainance]).chunksOn
      0x100).map
        WrChunk.psn = [Psn.ofPos 0, Psn.ofPos 257, Psn.ofPos 256] ∧
    (((default : RdmaWriteWorker).run [write, read, .maintainance, .maintainance]).chunksOn
      0x100).map
        WrChunk.psn = [Psn.ofPos 257, Psn.ofPos 0, Psn.ofPos 256] := by
  decide +kernel

end OpenRdma
