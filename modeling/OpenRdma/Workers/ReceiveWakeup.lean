import OpenRdma.Workers.HeaderRuns
import OpenRdma.Workers.MetaRuns

/-!
# No stranded messages

The completion worker looks at its queue of received messages only when it is told a new base.  A
message that is registered when the base has already passed it stays queued until the base moves
again (`recvEvent_stranded`: a hardware acknowledgement is handled before the header of the packet
it covers).  **`recvEvents_notStranded`** says that this is the only way: as long as no last header
is handled after the base has passed its packet, every message at or before the base has been
released.
-/

namespace OpenRdma

open QueuePairMessageTracker

/-- Every last header is handled while the receive base has not passed its packet. -/
def EndsAhead (h : MetaHandler) (qpn : UInt32) (metas : List ReportMeta) : Prop :=
  ∀ pre x, pre ++ [.headerWrite x] <+: metas → x.pos.isEnd = true →
    (h.run pre).1.recvBase qpn ≤ x.psn

/-- What the receive side looks like then: everything queued ends after the base, and every message
registered is queued or has been released. -/
structure Awake (S : MsgStream) (metas : List ReportMeta) (st : ReorderState) : Prop where
  ahead : ∀ p ∈ st.queue.entries, st.base < S.endPos p.1
  event : ∀ p ∈ st.released ++ st.queue.entries, p.2.msgMeta = S.metaOf p.1
  recorded : ∀ x, ReportMeta.headerWrite x ∈ metas → x.pos.isEnd = true →
    ∃ p ∈ st.released ++ st.queue.entries, p.2.msgMeta = x.event.msgMeta

lemma Awake.initial (S : MsgStream) : Awake S [] .initial :=
  ⟨by simp [ReorderState.initial, KeyedQueue.empty],
    by simp [ReorderState.initial, KeyedQueue.empty], by simp⟩

/-- **One report** keeps it, if a message that is registered ends after the base. -/
lemma Awake.step {S : MsgStream} {kind : ℕ → HeaderType} {lag : ℕ} {metas : List ReportMeta}
    {st : ReorderState} {m : ReportMeta} {reg : Option (ℕ × RecvEvent)} {ack : Option ℕ}
    (inv : Awake S metas st) (hp : Places S kind lag st.base m reg)
    (hahead : ∀ i e, reg = some (i, e) → st.base < S.endPos i) :
    Awake S (metas ++ [m]) (st.step S reg ack) := by
  refine ⟨fun q hq => ?_, fun q hq => ?_, fun x hx hend => ?_⟩
  · obtain ⟨hq, hlt⟩ := ReorderState.mem_step_queue.mp hq
    cases ack with
    | none =>
      rcases ReorderState.mem_enqueue.mp hq with hq | ⟨hreg, -⟩
      · exact inv.ahead q hq
      · exact hahead q.1 q.2 hreg
    | some B' => exact hlt B' rfl
  · rw [ReorderState.step_parts] at hq
    rcases List.mem_append.mp hq with hq | hq
    · exact inv.event q (List.mem_append_left _ hq)
    · rcases ReorderState.mem_enqueue.mp hq with hq | ⟨hreg, -⟩
      · exact inv.event q (List.mem_append_right _ hq)
      · obtain ⟨x, p, -, packet, hend, he, -⟩ := hp.registered hreg
        rw [he]
        exact packet.event_meta hend
  · rw [ReorderState.step_parts]
    rcases List.mem_append.mp hx with hx | hx
    · obtain ⟨q, hq, hqx⟩ := inv.recorded x hx hend
      refine ⟨q, ?_, hqx⟩
      rcases List.mem_append.mp hq with hq | hq
      · exact List.mem_append_left _ hq
      · exact List.mem_append_right _ (ReorderState.mem_enqueue.mpr (.inl hq))
    · -- the message just registered, unless an entry for it is queued already
      obtain rfl := List.mem_singleton.mp hx
      cases hp with
      | @header _ i p packet near window =>
        have hreg : registration x i = some (i, x.event) := if_pos hend
        by_cases hi : i ∈ st.queue.keys
        · obtain ⟨e, he⟩ := KeyedQueue.mem_keys.mp hi
          refine ⟨(i, e), List.mem_append_right _ (ReorderState.mem_enqueue.mpr (.inl he)), ?_⟩
          rw [packet.event_meta hend]
          exact inv.event _ (List.mem_append_right _ he)
        · exact ⟨(i, x.event), List.mem_append_right _
            (ReorderState.mem_enqueue.mpr (.inr ⟨hreg, hi⟩)), rfl⟩

/-- The completion worker has processed, for the queue pair `qpn`, exactly the given tasks of the
receive side, among any tasks of the send side, posted receives and tasks of other queue pairs. -/
def ProcessesRecvs (qpn : UInt32) (tasks : List CompletionTask)
    (steps : List (QpTable QpAttr × CompletionTask)) : Prop :=
  ((steps.map Prod.snd).filter (onQp qpn)).filter isRecvTask = tasks.filter isRecvTask

instance (qpn : UInt32) (tasks : List CompletionTask)
    (steps : List (QpTable QpAttr × CompletionTask)) : Decidable (ProcessesRecvs qpn tasks steps) :=
  inferInstanceAs (Decidable (_ = _))

/-- **No lost receive wakeup.**  If no last header is handled after the receive base has passed its
packet, then once the resulting tasks have been processed no message that ends at or before the base
is queued, and every one of those registered has been released to the completion path. -/
theorem recvEvents_notStranded {S : MsgStream} {kind : ℕ → HeaderType} {lag : ℕ} {h : MetaHandler}
    {w : CompletionWorker} {attrs : QpTable QpAttr} {qpn : UInt32} {metas : List ReportMeta}
    (fresh : FreshQp h w attrs qpn) (placed : Placed S kind lag h qpn metas)
    (ahead : EndsAhead h qpn metas) {steps : List (QpTable QpAttr × CompletionTask)}
    (hsteps : ProcessesRecvs qpn (reportTasks h metas) steps)
    (alive : (w.run steps).worker.panicked = none) :
    ∃ lt t, (h.run metas).1.recvTable.getQp qpn = some lt ∧
      (w.run steps).worker.trackerTable.getQp qpn = some t ∧
      (∀ e ∈ t.recv.inner, ¬ e.msgMeta.endPsn ≤ lt.basePsn) ∧
      ∀ x, ReportMeta.headerWrite x ∈ metas → x.pos.isEnd = true →
        x.event.msgMeta.endPsn ≤ lt.basePsn →
        ∃ e ∈ (recvRun default ((steps.map Prod.snd).filter (onQp qpn))).2,
          e.msgMeta = x.event.msgMeta := by
  obtain ⟨st, lt, inv, href, hnear, -, -, -, hlt, hwin, -⟩ := metaRun_rule fresh.handler_alive
    fresh.recv_tracker fresh.send_tracker placed (Awake S) (Awake.initial S) (by
      intro pre m st reg ack hpre hI hbase hp hB
      refine hI.step hp (fun i e hreg => ?_)
      obtain ⟨x, p, rfl, packet, hend, -, hpe, near, -⟩ := hp.registered hreg
      have hle := ahead pre x hpre hend
      obtain ⟨h1, h2⟩ := near
      rw [hbase, packet.psn_eq, Psn.le_ofPos ⟨by omega, by omega⟩] at hle
      omega)
  -- the worker's buffer is the one of the reports' tasks
  obtain ⟨tasks, -, hbefore, -, -, hend⟩ := CompletionWorker.run_project fresh.tracker steps
  obtain ⟨rfl, ht, -⟩ := hend alive
  have hrun : recvRun default ((steps.map Prod.snd).filter (onQp qpn))
      = recvRun default (reportTasks h metas) := by
    rw [← recvRun_filter default (reportTasks h metas), ← hsteps, recvRun_filter]
  have hrecv := runTasks_recv hbefore
  change _ = (recvRun default _).1 at hrecv
  rw [hrun] at hrecv
  -- nothing queued ends at or before the base
  have hqueued : ∀ q ∈ st.queue.entries, ¬ q.2.msgMeta.endPsn ≤ lt.basePsn := by
    intro q hq hle
    have h1 := inv.ahead q hq
    have h2 := (hnear q.1 (KeyedQueue.mem_keys.mpr ⟨q.2, hq⟩)).1
    rw [inv.event q (List.mem_append_right _ hq), show lt.basePsn = Psn.ofPos st.base from
      hwin.base_eq] at hle
    have := (Psn.le_ofPos (n := S.endPos q.1) (m := st.base) ⟨by omega, by omega⟩).mp hle
    omega
  refine ⟨lt, _, hlt, ht, fun e he => ?_, fun x hx hend hle => ?_⟩
  · rw [hrecv, href.represents.items_eq] at he
    obtain ⟨q, hq, rfl⟩ := List.mem_map.mp he
    exact hqueued q hq
  · obtain ⟨q, hq, hqx⟩ := inv.recorded x hx hend
    rcases List.mem_append.mp hq with hq | hq
    · refine ⟨q.2, ?_, hqx⟩
      rw [hrun, href.released_eq]
      exact List.mem_map_of_mem hq
    · exact absurd (hqx ▸ hle) (hqueued q hq)

/-- A hardware acknowledgement moves the base past a message whose header came before it. -/
theorem recvEvents_notStranded_ackAfterHeader :
    let metas : List ReportMeta :=
      [.headerWrite (onlyHeader 0x100 .send 1), .ackLocalHw ⟨0x100, Psn.ofPos 0, 3⟩]
    let attrs := QpTable.newWith { (default : QpAttr) with sendCq := some 0, recvCq := some 0 }
    let tasks := postTasks 0x100 [⟨0x100, 7⟩] ++ reportTasks default metas
    let run := (default : CompletionWorker).run (tasks.map (fun task => (attrs, task)))
    (∃ t, run.worker.trackerTable.getQp 0x100 = some t ∧
      ∀ e ∈ t.recv.inner, ¬ e.msgMeta.endPsn ≤ Psn.ofPos 2) ∧
    (run.recvsOn 0x100).filterMap Prod.snd = [.recv 7 none] := by
  intro metas attrs tasks run
  have hheader : Placed (MsgStream.unit 0) (fun _ => .send) 0 default 0x100
      [.headerWrite (onlyHeader 0x100 .send 1)] :=
    (placed_nil _ _ _ _ _).snoc (B := 0) rfl rfl (.header
      (onlyHeader_packetOf 0x100 (fun _ => .send) 1) ⟨by decide, by decide⟩
      fun _ => msgWindow_unit (by decide) (by decide))
  have placed : Placed (MsgStream.unit 0) (fun _ => .send) 0 default 0x100 metas :=
    hheader.snoc (B := 0) (by decide +kernel) rfl (.ackLocal (q := 0) rfl ⟨by decide, by decide⟩)
  have ahead : EndsAhead default 0x100 metas := by
    intro pre x hpre _
    rcases pre with _ | ⟨a, _ | ⟨b, pre⟩⟩
    · simp only [List.nil_append, List.cons_prefix_cons, metas,
        ReportMeta.headerWrite.injEq] at hpre
      obtain ⟨rfl, -⟩ := hpre
      decide
    · simp [metas] at hpre
    · simp [metas] at hpre
  have fresh : FreshQp default default attrs 0x100 :=
    freshQp_default (by decide) rfl rfl (by decide) (by decide)
  have hsteps : ProcessesRecvs 0x100 (reportTasks default metas)
      (tasks.map (fun task => (attrs, task))) := by decide +kernel
  have alive : ((default : CompletionWorker).run
      (tasks.map (fun task => (attrs, task)))).worker.panicked = none := by decide +kernel
  obtain ⟨lt, t, hlt, ht, hnone, -⟩ := recvEvents_notStranded fresh placed ahead hsteps alive
  have hrun : run = (default : CompletionWorker).run (tasks.map (fun task => (attrs, task))) := rfl
  rw [← hrun] at ht
  refine ⟨⟨t, ht, fun e he => ?_⟩, by decide +kernel⟩
  have hbase : lt.basePsn = Psn.ofPos 2 := by
    have h2 : ((default : MetaHandler).run metas).1.recvBase 0x100 = Psn.ofPos 2 := by
      decide +kernel
    rwa [MetaHandler.recvBase, hlt] at h2
  rw [← hbase]
  exact hnone e he

/-- **The proviso is needed.**  The hardware acknowledges packet 0 before its header is handled: the
header registers a message that ends at the base, and nothing releases it. -/
theorem recvEvent_stranded :
    let metas : List ReportMeta :=
      [.ackLocalHw ⟨0x100, Psn.ofPos 0, 1⟩, .headerWrite (onlyHeader 0x100 .send 0)]
    let attrs := QpTable.newWith { (default : QpAttr) with sendCq := some 0, recvCq := some 0 }
    let tasks := postTasks 0x100 [⟨0x100, 7⟩] ++ reportTasks default metas
    let run := (default : CompletionWorker).run (tasks.map (fun task => (attrs, task)))
    Placed (MsgStream.unit 0) (fun _ => .send) 1 default 0x100 metas ∧
    run.worker.panicked = none ∧
    ∃ lt ∈ ((default : MetaHandler).run metas).1.recvTable.getQp 0x100,
      ∃ t ∈ run.worker.trackerTable.getQp 0x100,
        ∃ e ∈ t.recv.inner, e.msgMeta.endPsn ≤ lt.basePsn := by
  have hack : Placed (MsgStream.unit 0) (fun _ => .send) 1 default 0x100
      [.ackLocalHw ⟨0x100, Psn.ofPos 0, 1⟩] :=
    (placed_nil _ _ _ _ _).snoc (B := 0) rfl rfl (.ackLocal (q := 0) rfl ⟨by decide, by decide⟩)
  refine ⟨hack.snoc (B := 1) (by decide +kernel) rfl (.header
    (onlyHeader_packetOf 0x100 (fun _ => .send) 0) ⟨by decide, by decide⟩
    fun _ => msgWindow_unit (by decide) (by decide)), by decide +kernel, by decide +kernel⟩

end OpenRdma
