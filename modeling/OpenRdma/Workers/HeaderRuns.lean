import OpenRdma.Workers.ReceiveSide

/-!
# Receiving packets in any order

The headers of a queue pair's packets arrive in any order, and possibly more than once.  A
`HeaderTrace` is the abstract receive side driven by such a sequence; `headerRun_refines` says that
the meta handler and the completion worker together follow it, on a stream that stays below half the
PSN circle and half the MSN circle.
-/

namespace OpenRdma

open QueuePairMessageTracker

/-- The stream position a header reports, on a stream that stays below the wrap. -/
def HeaderWriteMeta.seq (x : HeaderWriteMeta) : ℕ := x.psn.val.toNat

/-- The positions of the packets received. -/
def positions (metas : List HeaderWriteMeta) : List ℕ := metas.map HeaderWriteMeta.seq

/-- The receive base of a set of positions: the first one missing. -/
def IsBase (received : List ℕ) (B : ℕ) : Prop := (∀ p < B, p ∈ received) ∧ B ∉ received

/-- The headers are those of packets of the first `n` messages of the stream, on queue pair
`qpn`. -/
structure HeadersOf (S : MsgStream) (kind : ℕ → HeaderType) (n : ℕ) (qpn : UInt32)
    (metas : List HeaderWriteMeta) : Prop where
  msgs : n ≤ maxSendWr
  psns : ∀ i < n, S.endPos i ≤ maxPsnWindow
  packet : ∀ x ∈ metas, x.dqpn = qpn ∧ ∃ i < n, ∃ p, PacketOf S kind x i p

variable {metas : List HeaderWriteMeta} {qpn : UInt32} {kind : ℕ → HeaderType} {S : MsgStream}

lemma HeadersOf.initial {n : ℕ} {x : HeaderWriteMeta} (h : HeadersOf S kind n qpn (metas ++ [x])) :
    HeadersOf S kind n qpn metas :=
  ⟨h.msgs, h.psns, fun y hy => h.packet y (List.mem_append_left _ hy)⟩

/-- A packet's position is the number its header carries, and lies in the first half circle. -/
lemma HeadersOf.seq_eq {n : ℕ} (h : HeadersOf S kind n qpn metas) {x : HeaderWriteMeta} {i p : ℕ}
    (hi : i < n) (hp : PacketOf S kind x i p) : x.seq = p ∧ p < 2 ^ 23 := by
  have h1 := h.psns i hi
  have h2 := hp.lt_end
  have h3 : maxPsnWindow = 2 ^ 23 := rfl
  have hlt : p < 2 ^ 23 := by omega
  refine ⟨?_, hlt⟩
  rw [HeaderWriteMeta.seq, hp.psn_eq, Psn.ofPos_val]
  exact Nat.mod_eq_of_lt (by omega)

/-- The base to announce, if it moved. -/
def moved (B B' : ℕ) : Option ℕ := if B' = B then none else some B'

lemma moved_getD (B B' : ℕ) : (moved B B').getD B = B' := by
  unfold moved
  split
  · next h => exact h.symm
  · rfl

lemma moved_map (B B' : ℕ) :
    (moved B B').map Psn.ofPos = if B' = B then none else some (Psn.ofPos B') := by
  unfold moved
  split <;> rfl

lemma mem_moved {B B' b : ℕ} : b ∈ moved B B' ↔ B' ≠ B ∧ b = B' := by
  unfold moved
  split
  · next h => simp [h]
  · next h => simp [h, eq_comm]

/-- The abstract receive side, driven by headers. -/
inductive HeaderTrace (S : MsgStream) (kind : ℕ → HeaderType) (n : ℕ) :
    List HeaderWriteMeta → ReorderState → Prop
  | nil : HeaderTrace S kind n [] .initial
  | step {metas : List HeaderWriteMeta} {st : ReorderState} {x : HeaderWriteMeta} {i p B' : ℕ}
      (h : HeaderTrace S kind n metas st) (hi : i < n) (packet : PacketOf S kind x i p)
      (seq : x.seq = p) (base : IsBase (positions (metas ++ [x])) B') :
      HeaderTrace S kind n (metas ++ [x]) (st.step S (registration x i) (moved st.base B'))

namespace HeaderTrace

variable {S : MsgStream} {kind : ℕ → HeaderType} {n : ℕ} {metas : List HeaderWriteMeta}
  {st : ReorderState}

/-- The base of the abstract state is the base of what has been received. -/
lemma isBase (h : HeaderTrace S kind n metas st) : IsBase (positions metas) st.base := by
  cases h with
  | nil => exact ⟨fun p hp => absurd hp (Nat.not_lt_zero _), by simp [positions]⟩
  | step h hi packet seq base => rwa [ReorderState.step_base, moved_getD]

lemma mem_enqueue {Q : KeyedQueue RecvEvent} {x : HeaderWriteMeta} {i : ℕ} {e : ℕ × RecvEvent} :
    e ∈ (ReorderState.enqueue Q (registration x i)).entries ↔
      e ∈ Q.entries ∨ (x.pos.isEnd = true ∧ i ∉ Q.keys ∧ e = (i, x.event)) := by
  unfold registration
  split
  · next hend => simp [ReorderState.enqueue, KeyedQueue.mem_insert, hend]
  · next hend => simp [ReorderState.enqueue, hend]

lemma mem_keys_enqueue {Q : KeyedQueue RecvEvent} {x : HeaderWriteMeta} {i j : ℕ} :
    j ∈ (ReorderState.enqueue Q (registration x i)).keys ↔
      j ∈ Q.keys ∨ (x.pos.isEnd = true ∧ j = i) := by
  unfold registration
  split
  · next hend => simp [ReorderState.enqueue, KeyedQueue.mem_keys_insert, hend]
  · next hend => simp [ReorderState.enqueue, hend]

/-- Only messages of the stream are queued. -/
lemma keys_lt (h : HeaderTrace S kind n metas st) : ∀ j ∈ st.queue.keys, j < n := by
  induction h with
  | nil => simp [ReorderState.initial, KeyedQueue.empty, KeyedQueue.keys]
  | step h hi packet seq base ih =>
    intro j hj
    obtain ⟨e, he⟩ := KeyedQueue.mem_keys.mp hj
    rcases mem_enqueue.mp (ReorderState.mem_step_queue.mp he).1 with he | ⟨-, -, he⟩
    · exact ih j (KeyedQueue.mem_keys.mpr ⟨e, he⟩)
    · rw [(Prod.mk.inj he).1]; exact hi

end HeaderTrace

/-- The completion tasks of a sequence of headers. -/
def headerTasks (h : MetaHandler) (metas : List HeaderWriteMeta) : List CompletionTask :=
  Output.completionTasks (h.run (metas.map ReportMeta.headerWrite)).2

variable {h : MetaHandler}

/-- **The two workers follow the abstract receive side.** -/
theorem headerRun_refines {n : ℕ} {rt : RemoteAckTracker} (hm : HeadersOf S kind n qpn metas)
    (alive : h.panicked = none) (hl : h.recvTable.getQp qpn = some default)
    (hr : h.sendTable.getQp qpn = some rt) :
    ∃ st, HeaderTrace S kind n metas st ∧ st.Refines S (recvRun default (headerTasks h metas)) ∧
      (∀ task ∈ headerTasks h metas, task.qpn = qpn ∧ ¬ IsPostRecv task) ∧
      ∃ lt, (h.run (metas.map ReportMeta.headerWrite)).1.panicked = none ∧
        (h.run (metas.map ReportMeta.headerWrite)).1.recvTable.getQp qpn = some lt ∧
        (h.run (metas.map ReportMeta.headerWrite)).1.sendTable.getQp qpn = some rt ∧
        lt.psnTracker.TracksSet st.base (fun q => decide (q ∈ positions metas)) := by
  induction metas using List.reverseRecOn with
  | nil =>
    refine ⟨.initial, .nil, ReorderState.refines_initial S, ?_, default, alive, hl, hr, ?_⟩
    · exact fun task htask => absurd htask List.not_mem_nil
    · exact PsnTracker.tracksSet_default
  | append_singleton metas x ih =>
    obtain ⟨st, htrace, href, hqpn, lt, halive, hlt, hrt, htracks⟩ := ih hm.initial
    obtain ⟨hq, i, hi, p, hp⟩ := hm.packet x (by simp)
    obtain ⟨hseq, hp23⟩ := hm.seq_eq hi hp
    -- the receive tracker
    have hbound : ∀ q, decide (q ∈ positions metas) = true → q < 2 ^ 23 := by
      intro q hq'
      obtain ⟨y, hy, rfl⟩ := List.mem_map.mp (of_decide_eq_true hq')
      obtain ⟨-, j, hj, p', hp'⟩ := hm.packet y (List.mem_append_left _ hy)
      obtain ⟨h1, h2⟩ := hm.seq_eq hj hp'
      omega
    obtain ⟨B', hBB', htracks', hret⟩ := htracks.ackOne hbound hp23
    have hpos : (fun q => decide (q ∈ positions metas) || decide (q = p))
        = (fun q => decide (q ∈ positions (metas ++ [x]))) := by
      funext q
      simp [positions, hseq]
    rw [hpos] at htracks'
    have hbase : IsBase (positions (metas ++ [x])) B' :=
      ⟨fun q hq' => of_decide_eq_true (htracks'.below q hq'), of_decide_eq_false htracks'.clear⟩
    -- the tasks of this header
    have hqm : (ReportMeta.headerWrite x).qpn = qpn := hq
    obtain ⟨htasks, hl', hr', halive'⟩ := handleMeta_tasks (m := .headerWrite x) halive
      (by simp) (hqm ▸ hlt) (hqm ▸ hrt)
    have honmeta : lt.onMeta (.headerWrite x) = ({ lt with
        psnTracker := (lt.psnTracker.ackOne (Psn.ofPos p)).1 },
        (lt.psnTracker.ackOne (Psn.ofPos p)).2) := by
      simp only [LocalAckTracker.onMeta, LocalAckTracker.ackOne, hp.psn_eq]
    have hheader : headerTasks h (metas ++ [x]) = headerTasks h metas
        ++ metaTasks qpn ((registration x i).map Prod.snd)
          ((moved st.base B').map Psn.ofPos) none := by
      rw [headerTasks, List.map_append, List.map_singleton, MetaHandler.run_append,
        Output.completionTasks_append, htasks, hqm, honmeta, hret, registration_snd, moved_map]
      rfl
    -- everything compared lies in the first half circle
    have hwin : ∀ j < n, SerialNear (2 ^ 23) (S.endPos j) B' := by
      intro j hj
      have h1 := hm.psns j hj
      have h2 := S.endPos_pos j
      have h3 : maxPsnWindow = 2 ^ 23 := rfl
      have h4 : B' ≤ 2 ^ 23 := htracks'.base_le (fun q hq' => by
        have hq' := (congrFun hpos q).trans hq'
        rcases Bool.or_eq_true_iff.mp hq' with hq' | hq'
        · exact hbound q hq'
        · rw [of_decide_eq_true hq']; exact hp23)
      exact ⟨by omega, by omega⟩
    have hmsn : ∀ j < n, SerialNear (2 ^ 15) j i := by
      intro j hj
      have h1 := hm.msgs
      have h2 : maxSendWr = 2 ^ 15 := rfl
      exact ⟨by omega, by omega⟩
    have hkeys := htrace.keys_lt
    refine ⟨st.step S (registration x i) (moved st.base B'), .step htrace hi hp hseq hbase, ?_, ?_,
      (lt.onMeta (.headerWrite x)).1, ?_, ?_, ?_, ?_⟩
    · rw [hheader]
      refine href.step qpn _ none ?_ ?_ ?_
      · intro j e hje
        obtain ⟨hend, rfl, rfl⟩ := registration_eq_some hje
        exact hp.event_meta hend
      · intro j e hje k hk
        obtain ⟨-, rfl, -⟩ := registration_eq_some hje
        exact hmsn k (hkeys k hk)
      · intro b hb j hj
        rw [(mem_moved.mp hb).2]
        rcases HeaderTrace.mem_keys_enqueue.mp hj with hj | ⟨-, rfl⟩
        · exact hwin j (hkeys j hj)
        · exact hwin j hi
    · intro task htask
      rw [hheader] at htask
      rcases List.mem_append.mp htask with htask | htask
      · exact hqpn task htask
      · exact metaTasks_qpn htask
    · rw [List.map_append, List.map_singleton, MetaHandler.run_append]
      exact halive'
    · rw [List.map_append, List.map_singleton, MetaHandler.run_append]
      exact hqm ▸ hl'
    · rw [List.map_append, List.map_singleton, MetaHandler.run_append]
      exact hqm ▸ hr'
    · rw [honmeta]
      rw [ReorderState.step_base, moved_getD]
      exact htracks'

/-! ## Runs of the two workers -/

/-- A queue pair nothing has happened on yet, with completion queues attached. -/
structure FreshQp (h : MetaHandler) (w : CompletionWorker) (attrs : QpTable QpAttr) (qpn : UInt32) :
    Prop where
  handler_alive : h.panicked = none
  worker_alive : w.panicked = none
  recv_tracker : h.recvTable.getQp qpn = some default
  send_tracker : h.sendTable.getQp qpn = some default
  tracker : w.trackerTable.getQp qpn = some default
  cqs : ∃ attr s r, attrs.getQp qpn = some attr ∧ attr.sendCq = some s ∧ attr.recvCq = some r ∧
    s.toNat < maxCqCnt ∧ r.toNat < maxCqCnt

variable {attrs : QpTable QpAttr} {w : CompletionWorker}

lemma FreshQp.lookup (fresh : FreshQp h w attrs qpn) (task : CompletionTask) :
    ∃ attr cqs, attrs.getQp qpn = some attr ∧ CompletionWorker.lookupCqs attr task = .ok cqs := by
  obtain ⟨attr, s, r, hattr, hs, hr, hs', hr'⟩ := fresh.cqs
  have hgs : CompletionWorker.getCq s = some s := if_pos hs'
  have hgr : CompletionWorker.getCq r = some r := if_pos hr'
  cases task with
  | register => exact ⟨attr, _, hattr, rfl⟩
  | ackSend =>
    refine ⟨attr, (s, 0), hattr, ?_⟩
    simp only [CompletionWorker.lookupCqs, hs]
    show (CompletionWorker.expect (CompletionWorker.getCq s) _ >>= fun sendCq => pure (sendCq, 0)) =
      _
    rw [hgs]
    rfl
  | ackRecv =>
    refine ⟨attr, (s, r), hattr, ?_⟩
    simp only [CompletionWorker.lookupCqs, hs, hr]
    show (CompletionWorker.expect (CompletionWorker.getCq s) _ >>= fun sendCq =>
      CompletionWorker.expect (CompletionWorker.getCq r) _ >>= fun recvCq =>
        pure (sendCq, recvCq)) = _
    rw [hgs, hgr]
    rfl

/-- On a new device every queue pair with completion queues is fresh. -/
lemma freshQp_default {attr : QpAttr} {qpn s r : UInt32} (hq : qpnToIndex qpn < maxQpCnt)
    (hs : attr.sendCq = some s) (hr : attr.recvCq = some r) (hs' : s.toNat < maxCqCnt)
    (hr' : r.toNat < maxCqCnt) : FreshQp default default (QpTable.newWith attr) qpn := by
  have hget : ∀ {α : Type} (a : α), (QpTable.newWith a).getQp qpn = some a := fun a => by
    rw [QpTable.getQp_newWith, if_pos hq]
  exact ⟨rfl, rfl, hget _, hget _, hget _, attr, s, r, hget _, hs, hr, hs', hr'⟩

/-- The header of message `i` of a stream of one-packet messages. -/
def onlyHeader (qpn : UInt32) (type : HeaderType) (i : ℕ) : HeaderWriteMeta :=
  { (default : HeaderWriteMeta) with
    pos := .only, msn := msnAt 0 i, psn := Psn.ofPos i, dqpn := qpn, headerType := type }

lemma onlyHeader_packetOf (qpn : UInt32) (kind : ℕ → HeaderType) (i : ℕ) :
    PacketOf (MsgStream.unit 0) kind (onlyHeader qpn (kind i) i) i i := by
  refine ⟨rfl, ?_, Nat.lt_succ_self i, rfl, rfl, iff_of_true rfl rfl⟩
  cases i <;> exact le_rfl

lemma headersOf_onlyHeader {type : HeaderType} {n : ℕ} {is : List ℕ}
    (hn : n ≤ maxSendWr) (his : ∀ i ∈ is, i < n) :
    HeadersOf (MsgStream.unit 0) (fun _ => type) n qpn (is.map (onlyHeader qpn type)) := by
  refine ⟨hn, fun i hi => ?_, fun x hx => ?_⟩
  · have h1 : maxSendWr = 2 ^ 15 := rfl
    have h2 : maxPsnWindow = 2 ^ 23 := rfl
    show i + 1 ≤ maxPsnWindow
    omega
  · obtain ⟨i, hi, rfl⟩ := List.mem_map.mp hx
    exact ⟨rfl, i, his i hi, i, onlyHeader_packetOf qpn (fun _ => type) i⟩

/-- The tasks that post receives. -/
def postTasks (qpn : UInt32) (posts : List PostRecvEvent) : List CompletionTask :=
  posts.map (fun x => CompletionTask.register qpn (.postRecv x))

/-- Post receives, then handle headers and process the resulting tasks in order. -/
def receiveRun (h : MetaHandler) (w : CompletionWorker) (attrs : QpTable QpAttr) (qpn : UInt32)
    (posts : List PostRecvEvent) (metas : List HeaderWriteMeta) : WorkerRun :=
  w.run ((postTasks qpn posts ++ headerTasks h metas).map (fun task => (attrs, task)))

/-- Posting receives only fills the queue of posted receives. -/
lemma runTasks_posts (t : QueuePairMessageTracker) (qpn : UInt32) (posts : List PostRecvEvent) :
    t.runTasks (postTasks qpn posts)
      = ⟨{ t with postRecvQueue := t.postRecvQueue ++ posts }, [], [], none⟩ := by
  induction posts using List.reverseRecOn with
  | nil => simp [postTasks]
  | append_singleton posts x ih =>
    rw [postTasks, List.map_append, List.map_singleton, runTasks_append]
    show (t.runTasks (postTasks qpn posts)).step _ = _
    rw [ih]
    simp [Polled.step, handle, append]

/-- **What such a run pushes for received messages** are the receive completions it polls, each to
the receive queue of the queue pair. -/
theorem receiveRun_pushes (fresh : FreshQp h w attrs qpn) (posts : List PostRecvEvent)
    (metas : List HeaderWriteMeta) :
    ∃ attr recvCq, attrs.getQp qpn = some attr ∧ attr.recvCq = some recvCq ∧
      ((receiveRun h w attrs qpn posts metas).pushes qpn).filter (fun q => !q.2.isSend)
        = (((receiveRun h w attrs qpn posts metas).recvsOn qpn).filterMap Prod.snd).map
          (fun c => (recvCq, c)) := by
  obtain ⟨attr, -, recvCq, hattr, -, hrecvCq, -⟩ := fresh.cqs
  refine ⟨attr, recvCq, hattr, hrecvCq, ?_⟩
  obtain ⟨-, hpushes, hcq⟩ := w.run_pushes qpn
    ((postTasks qpn posts ++ headerTasks h metas).map (fun task => (attrs, task)))
  rw [receiveRun, ← hpushes, List.map_map]
  refine (List.map_id _).symm.trans (List.map_congr_left fun q hq => ?_)
  -- every one goes to the queue of the one attribute table of the run
  obtain ⟨hq, hrecv⟩ := List.mem_filter.mp hq
  obtain ⟨s, hs, hon, attr', hattr', hto⟩ := hcq q hq
  obtain ⟨task, -, rfl⟩ := List.mem_map.mp hs
  have hidx : qpnToIndex task.qpn = qpnToIndex qpn := by simpa [onQp] using hon
  obtain rfl : attr' = attr := by
    simp only [QpTable.getQp, hidx] at hattr' hattr
    exact Option.some.inj (hattr'.symm.trans hattr)
  rw [QpAttr.cqOf, if_neg (by simpa using hrecv), hrecvCq] at hto
  simp [Option.some.inj hto]

/-- **What such a run polls**: the messages the abstract receive side has released, paired with the
posted receives. -/
theorem receiveRun_recvs {n : ℕ} (fresh : FreshQp h w attrs qpn) (hm : HeadersOf S kind n qpn metas)
    (posts : List PostRecvEvent) :
    ∃ st, HeaderTrace S kind n metas st ∧
      (receiveRun h w attrs qpn posts metas).recvsOn qpn
        = deliver ((st.released.map Prod.snd).filter (fun e => e.op ≠ .readResp)) posts ∧
      ((receiveRun h w attrs qpn posts metas).worker.panicked = none ↔
        ((receiveRun h w attrs qpn posts metas).recvsOn qpn).length
          = ((st.released.map Prod.snd).filter (fun e => e.op ≠ .readResp)).length) := by
  obtain ⟨st, htrace, href, hqpn, -⟩ :=
    headerRun_refines hm fresh.handler_alive fresh.recv_tracker fresh.send_tracker
  have htasks : ∀ task ∈ postTasks qpn posts ++ headerTasks h metas, task.qpn = qpn := by
    intro task htask
    rcases List.mem_append.mp htask with htask | htask
    · obtain ⟨x, -, rfl⟩ := List.mem_map.mp htask
      rfl
    · exact (hqpn task htask).1
  have hsteps : ∀ s ∈ (postTasks qpn posts ++ headerTasks h metas).map (fun task => (attrs, task)),
      s.1 = attrs ∧ s.2 ∈ postTasks qpn posts ++ headerTasks h metas := by
    intro s hs
    obtain ⟨task, htask, rfl⟩ := List.mem_map.mp hs
    exact ⟨rfl, htask⟩
  obtain ⟨-, hrecvs, hpan, -⟩ := CompletionWorker.run_single fresh.worker_alive fresh.tracker
    (fun s hs => htasks s.2 (hsteps s hs).2) (fun s hs => (hsteps s hs).1 ▸ fresh.lookup s.2)
  have hsnd : ((postTasks qpn posts ++ headerTasks h metas).map (fun task => (attrs, task))).map
      Prod.snd = postTasks qpn posts ++ headerTasks h metas := by
    rw [List.map_map]; simp
  -- posting comes first, and only fills the queue of posted receives
  have hrun : runTasks default (postTasks qpn posts ++ headerTasks h metas)
      = runTasks { (default : QueuePairMessageTracker) with postRecvQueue := posts }
        (headerTasks h metas) := by
    have := runTasks_posts default qpn posts
    simp only [runTasks, List.foldl_append] at this ⊢
    rw [this]
    rfl
  rw [hsnd, hrun] at hrecvs hpan
  obtain ⟨h1, h2, -⟩ := runTasks_recvs
    (t := { (default : QueuePairMessageTracker) with postRecvQueue := posts }) rfl
    (fun task htask => (hqpn task htask).2)
  have hrel : releasedRecvs (default : QueuePairMessageTracker).recv (headerTasks h metas)
      = (st.released.map Prod.snd).filter (fun e => e.op ≠ .readResp) := by
    rw [releasedRecvs, ← href.released_eq]
    rfl
  simp only [hrel] at h1 h2
  refine ⟨st, htrace, hrecvs.trans h1, ?_⟩
  rw [receiveRun, hpan, hrecvs]
  exact h2

end OpenRdma
