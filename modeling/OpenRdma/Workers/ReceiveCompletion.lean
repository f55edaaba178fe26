import OpenRdma.Workers.HeaderRuns

/-!
# Receive completions

Two facts about the messages a queue pair delivers, for headers that arrive in any order.

* **`recvCompletions_inOrder`** — when every packet is reported once, the messages delivered are
  exactly those of which no packet is missing, nor any packet before them; they come out in MSN
  order, and the `k`-th that consumes a receive gets the `k`-th posted one.
* **`recvCompletion_atMostOnce`** — when packets are reported repeatedly, a message that consumes a
  receive is delivered at most once, provided its last packet is never reported again after the
  receive base has passed it.  Without that proviso it can be delivered again
  (`recvCompletion_twice`): the reorder buffer only recognises the messages it still holds.
-/

namespace OpenRdma

open QueuePairMessageTracker

/-! ## Which messages consume a receive -/

def HeaderType.consumes : HeaderType → Bool
  | .send | .sendWithImm | .writeWithImm => true
  | .write | .readResp => false

lemma HeaderWriteMeta.event_consumes (x : HeaderWriteMeta) :
    x.event.op.completion.isSome = x.headerType.consumes := by
  cases h : x.headerType <;> simp [HeaderWriteMeta.event, h, RecvEventOp.completion,
    HeaderType.consumes]

lemma HeaderWriteMeta.event_readResp (x : HeaderWriteMeta) :
    x.event.op = .readResp ↔ x.headerType = .readResp := by
  cases h : x.headerType <;> simp [HeaderWriteMeta.event, h]

namespace HeaderTrace

variable {S : MsgStream} {kind : ℕ → HeaderType} {n : ℕ} {metas : List HeaderWriteMeta}
  {st : ReorderState}

/-- The base never moves back. -/
lemma base_mono {x : HeaderWriteMeta} {B' : ℕ} (h : HeaderTrace S kind n metas st)
    (base : IsBase (positions (metas ++ [x])) B') : st.base ≤ B' := by
  by_contra hlt
  refine base.2 ?_
  rw [positions, List.map_append]
  exact List.mem_append_left _ (h.isBase.1 B' (by omega))

/-! ## Every packet once -/

/-- What the receive side looks like when every packet is reported once: released and queued
together, in this order, are the messages whose last packet has arrived, and the base separates the
two. -/
structure InOrder (S : MsgStream) (metas : List HeaderWriteMeta) (st : ReorderState) : Prop where
  sorted : (st.released ++ st.queue.entries).Pairwise (fun p q => p.1 < q.1)
  mem : ∀ j e, (j, e) ∈ st.released ++ st.queue.entries ↔
    ∃ x ∈ metas, x.pos.isEnd = true ∧ x.seq + 1 = S.endPos j ∧ e = x.event
  below : ∀ p ∈ st.released, S.endPos p.1 ≤ st.base
  above : ∀ p ∈ st.queue.entries, st.base < S.endPos p.1

/-- Moving the base of such a state moves the messages it passes from queued to released. -/
lemma InOrder.move {B' : ℕ} {reg : Option (ℕ × RecvEvent)} (hB : st.base ≤ B')
    (h : InOrder S metas { st with queue := ReorderState.enqueue st.queue reg }) :
    InOrder S metas (st.step S reg (moved st.base B')) := by
  obtain ⟨hsorted, hmem, hbelow, habove⟩ := h
  refine ⟨?_, fun j e => ?_, fun p hp => ?_, fun p hp => ?_⟩
  · rw [ReorderState.step_parts]; exact hsorted
  · rw [ReorderState.step_parts]; exact hmem j e
  · rw [ReorderState.step_base, moved_getD]
    rcases ReorderState.mem_step_released.mp hp with hp | ⟨-, b, hb, hle⟩
    · exact (hbelow p hp).trans hB
    · rwa [(mem_moved.mp hb).2] at hle
  · rw [ReorderState.step_base, moved_getD]
    obtain ⟨hp, hlt⟩ := ReorderState.mem_step_queue.mp hp
    by_cases heq : B' = st.base
    · rw [heq]; exact habove p hp
    · exact hlt B' (mem_moved.mpr ⟨heq, rfl⟩)

theorem inOrder (h : HeaderTrace S kind n metas st) (hnd : (positions metas).Nodup) :
    InOrder S metas st := by
  induction h with
  | nil => exact ⟨by simp [ReorderState.initial, KeyedQueue.empty],
      by simp [ReorderState.initial, KeyedQueue.empty], by simp [ReorderState.initial],
      by simp [ReorderState.initial, KeyedQueue.empty]⟩
  | @step metas st x i p B' h hi packet seq base ih =>
    rw [positions, List.map_append, List.map_singleton] at hnd
    obtain ⟨hnd, -, hdisj⟩ := List.nodup_append.mp hnd
    have inv := ih hnd
    have hfresh : p ∉ positions metas := fun hp =>
      hdisj p hp x.seq (List.mem_singleton_self _) seq.symm
    -- everything before the base has arrived, so a new packet lies at or after it
    have hge : st.base ≤ p := by
      by_contra hlt
      exact hfresh (h.isBase.1 p (by omega))
    refine InOrder.move (h.base_mono base) ?_
    by_cases hend : x.pos.isEnd = true
    · have hpe : p + 1 = S.endPos i := packet.isEnd_iff.mp hend
      have hnew : ∀ e, (i, e) ∉ st.released ++ st.queue.entries := by
        intro e he
        obtain ⟨y, hy, -, hye, -⟩ := (inv.mem i e).mp he
        exact hfresh (List.mem_map.mpr ⟨y, hy, by omega⟩)
      have hkey : i ∉ st.queue.keys := fun hk => by
        obtain ⟨e, he⟩ := KeyedQueue.mem_keys.mp hk
        exact hnew e (List.mem_append_right _ he)
      have hin : ∀ q, q ∈ (ReorderState.enqueue st.queue (registration x i)).entries ↔
          q ∈ st.queue.entries ∨ q = (i, x.event) := fun q => by
        rw [mem_enqueue]; simp [hend, hkey]
      refine ⟨?_, fun j e => ?_, inv.below, fun q hq => ?_⟩
      · refine List.pairwise_append.mpr ⟨(List.pairwise_append.mp inv.sorted).1,
          KeyedQueue.sorted _, fun q hq q' hq' => ?_⟩
        rcases (hin q').mp hq' with hq' | rfl
        · exact (List.pairwise_append.mp inv.sorted).2.2 q hq q' hq'
        · have := inv.below q hq
          exact S.strictMono.lt_iff_lt.mp (show S.endPos q.1 < S.endPos i by omega)
      · have hold := inv.mem j e
        simp only [List.mem_append, List.mem_singleton, or_and_right, exists_or, exists_eq_left]
          at hold ⊢
        rw [hin, Prod.mk.injEq, ← or_assoc, hold]
        refine or_congr Iff.rfl ⟨?_, ?_⟩
        · rintro ⟨rfl, rfl⟩
          exact ⟨hend, by omega, rfl⟩
        · rintro ⟨-, hje, rfl⟩
          exact ⟨S.strictMono.injective (by omega), rfl⟩
      · rcases (hin q).mp hq with hq | rfl
        · exact inv.above q hq
        · show st.base < S.endPos i
          omega
    · have hnone : registration x i = none := by simp [registration, hend]
      rw [hnone]
      refine ⟨inv.sorted, fun j e => ?_, inv.below, inv.above⟩
      refine (inv.mem j e).trans ⟨?_, ?_⟩
      · rintro ⟨y, hy, hrest⟩
        exact ⟨y, List.mem_append_left _ hy, hrest⟩
      · rintro ⟨y, hy, hy', hrest⟩
        rcases List.mem_append.mp hy with hy | hy
        · exact ⟨y, hy, hy', hrest⟩
        · rw [List.mem_singleton.mp hy] at hy'
          exact absurd hy' hend

end HeaderTrace

/-- The messages of which no packet is missing, nor any packet before them. -/
def completeMessages (S : MsgStream) (n : ℕ) (metas : List HeaderWriteMeta) : List ℕ :=
  (List.range n).filter (fun i => decide (∀ p < S.endPos i, p ∈ positions metas))

variable {kind : ℕ → HeaderType} {metas : List HeaderWriteMeta} {S : MsgStream}

/-- The released messages are the complete ones, in order. -/
lemma HeaderTrace.released_keys {n : ℕ} {qpn : UInt32} {st : ReorderState}
    (h : HeaderTrace S kind n metas st) (hm : HeadersOf S kind n qpn metas)
    (inv : InOrder S metas st) : st.released.map Prod.fst = completeMessages S n metas := by
  have hsorted : (st.released.map Prod.fst).Pairwise (· < ·) :=
    List.pairwise_map.mpr (List.pairwise_append.mp inv.sorted).1
  refine hsorted.eq_of_mem_iff (List.pairwise_lt_range.filter _) (fun i => ?_)
  -- a message is complete exactly if it ends at or before the base
  have hbase : (∀ p < S.endPos i, p ∈ positions metas) ↔ S.endPos i ≤ st.base := by
    refine ⟨fun hall => ?_, fun hle p hp => h.isBase.1 p (by omega)⟩
    by_contra hlt
    exact h.isBase.2 (hall st.base (by omega))
  rw [completeMessages, List.mem_filter, List.mem_range, decide_eq_true_eq, hbase, List.mem_map]
  constructor
  · rintro ⟨⟨j, e⟩, hje, rfl⟩
    refine ⟨?_, inv.below _ hje⟩
    obtain ⟨x, hx, hend, hseq, -⟩ := (inv.mem j e).mp (List.mem_append_left _ hje)
    obtain ⟨-, i, hi, p, hp⟩ := hm.packet x hx
    have h1 := (hm.seq_eq hi hp).1
    have h2 := hp.isEnd_iff.mp hend
    rwa [S.strictMono.injective (show S.endPos j = S.endPos i by omega)]
  · rintro ⟨hi, hle⟩
    -- its last packet has arrived, so it is released or queued; and nothing queued ends this early
    have hpos := S.endPos_pos i
    obtain ⟨x, hx, hxs⟩ := List.mem_map.mp (h.isBase.1 (S.endPos i - 1) (by omega))
    obtain ⟨-, j, hj, p, hp⟩ := hm.packet x hx
    have hseq := (hm.seq_eq hj hp).1
    have hstart := S.startPos_lt i
    obtain rfl : j = i := S.eq_of_mem hp.start_le hp.lt_end (by omega) (by omega)
    have hend : x.pos.isEnd = true := hp.isEnd_iff.mpr (by omega)
    have hmem := (inv.mem j x.event).mpr ⟨x, hx, hend, by omega, rfl⟩
    rcases List.mem_append.mp hmem with hmem | hmem
    · exact ⟨_, hmem, rfl⟩
    · have := inv.above _ hmem
      simp only at this
      omega

/-- **In-order, order-independent receive completion.**  The messages delivered are the complete
ones in MSN order, each as the event of its last packet; a completion is pushed, to the receive
queue of the queue pair, for exactly those that consume a receive, and these take the posted
receives in order. -/
theorem recvCompletions_inOrder {S : MsgStream} {kind : ℕ → HeaderType} {n : ℕ} {qpn : UInt32}
    {metas : List HeaderWriteMeta} {h : MetaHandler} {w : CompletionWorker} {attrs : QpTable QpAttr}
    {posts : List PostRecvEvent} (fresh : FreshQp h w attrs qpn)
    (hm : HeadersOf S kind n qpn metas) (once : (positions metas).Nodup)
    (types : ∀ i < n, kind i ≠ .readResp)
    (enough : (List.range n).countP (fun i => (kind i).consumes) ≤ posts.length) :
    let run := receiveRun h w attrs qpn posts metas
    run.worker.panicked = none ∧
    (∃ lastOf : ℕ → HeaderWriteMeta,
      (∀ i ∈ completeMessages S n metas,
        lastOf i ∈ metas ∧ PacketOf S kind (lastOf i) i (S.endPos i - 1)) ∧
      (run.recvsOn qpn).map Prod.fst
        = (completeMessages S n metas).map (fun i => (lastOf i).event)) ∧
    (∀ p ∈ run.recvsOn qpn, p.2.isSome = p.1.op.completion.isSome) ∧
    ((run.recvsOn qpn).filterMap Prod.snd).map Completion.wrId
      = (posts.map PostRecvEvent.wrId).take (consumed (run.recvsOn qpn)) ∧
    ∃ attr recvCq, attrs.getQp qpn = some attr ∧ attr.recvCq = some recvCq ∧
      (run.pushes qpn).filter (fun q => !q.2.isSend)
        = ((run.recvsOn qpn).filterMap Prod.snd).map (fun c => (recvCq, c)) := by
  obtain ⟨st, htrace, hrecvs, halive⟩ := receiveRun_recvs fresh hm posts
  have inv := htrace.inOrder once
  have hkeys := htrace.released_keys hm inv
  -- each released message is the event of its last packet
  have hlast : ∀ p ∈ st.released, ∃ x ∈ metas, PacketOf S kind x p.1 (S.endPos p.1 - 1) ∧
      p.1 < n ∧ p.2 = x.event := by
    rintro ⟨j, e⟩ hje
    obtain ⟨x, hx, hend, hseq, rfl⟩ := (inv.mem j e).mp (List.mem_append_left _ hje)
    obtain ⟨-, i, hi, p, hp⟩ := hm.packet x hx
    have h1 := (hm.seq_eq hi hp).1
    have h2 := hp.isEnd_iff.mp hend
    obtain rfl : j = i := S.strictMono.injective (show S.endPos j = S.endPos i by omega)
    exact ⟨x, hx, by rwa [show S.endPos j - 1 = p by omega], hi, rfl⟩
  have hop : ∀ e ∈ st.released.map Prod.snd, e.op ≠ .readResp := by
    intro e he
    obtain ⟨p, hp, rfl⟩ := List.mem_map.mp he
    obtain ⟨x, -, hx, hlt, hpe⟩ := hlast p hp
    rw [hpe, ne_eq, x.event_readResp, hx.type_eq]
    exact types p.1 hlt
  rw [List.filter_eq_self.mpr (fun e he => by simpa using hop e he)] at hrecvs halive
  -- there are enough receives for them
  have hcount : (st.released.map Prod.snd).countP (fun e => e.op.completion.isSome)
      ≤ posts.length := by
    refine le_trans ?_ enough
    have hcongr : (st.released.map Prod.snd).countP (fun e => e.op.completion.isSome)
        = (st.released.map Prod.fst).countP (fun i => (kind i).consumes) := by
      rw [List.countP_map, List.countP_map]
      refine List.countP_congr (fun p hp => ?_)
      obtain ⟨x, -, hx, -, hpe⟩ := hlast p hp
      simp only [Function.comp_apply, hpe, x.event_consumes, hx.type_eq]
    rw [hcongr, hkeys, completeMessages]
    exact List.filter_sublist.countP_le
  have hfull := deliver_length_of_le hcount
  refine ⟨halive.mpr (by rw [hrecvs, hfull]), ?_, ?_, ?_, receiveRun_pushes fresh posts metas⟩
  · have hpick : ∀ i ∈ completeMessages S n metas, ∃ x ∈ metas,
        PacketOf S kind x i (S.endPos i - 1) ∧ ∀ e, (i, e) ∈ st.released → e = x.event := by
      intro i hi
      rw [← hkeys] at hi
      obtain ⟨p, hp, rfl⟩ := List.mem_map.mp hi
      obtain ⟨x, hx, hpk, -, hpe⟩ := hlast p hp
      refine ⟨x, hx, hpk, fun e he => ?_⟩
      -- two released entries with one key are the same entry
      have hnd : (st.released.map Prod.fst).Nodup := by
        rw [hkeys]; exact (List.nodup_range).filter _
      have := List.inj_on_of_nodup_map hnd he hp rfl
      rw [← hpe, ← this]
    choose! lastOf hmem hpk hev using hpick
    refine ⟨lastOf, fun i hi => ⟨hmem i hi, hpk i hi⟩, ?_⟩
    have hpre := deliver_events (st.released.map Prod.snd) posts
    have heq := hpre.eq_of_length (by rw [List.length_map, hfull])
    rw [hrecvs, heq, ← hkeys, List.map_map]
    refine List.map_congr_left (fun p hp => ?_)
    exact hev p.1 (hkeys ▸ List.mem_map_of_mem hp) p.2 hp
  · intro p hp
    rw [hrecvs] at hp
    exact deliver_isSome hp
  · rw [hrecvs, deliver_wrIds, List.map_take]

/-- Two one-packet messages, reported in the wrong order. -/
theorem recvCompletions_inOrder_swapped :
    let metas := [1, 0].map (onlyHeader 0x100 .send)
    let run := receiveRun default default
      (QpTable.newWith { (default : QpAttr) with sendCq := some 0, recvCq := some 0 })
      0x100 [⟨0x100, 7⟩, ⟨0x100, 8⟩] metas
    completeMessages (MsgStream.unit 0) 2 metas = [0, 1] ∧ run.worker.panicked = none ∧
      run.pushes 0x100 = [(0, .recv 7 none), (0, .recv 8 none)] :=
  ⟨by decide,
    (recvCompletions_inOrder (freshQp_default (by decide) rfl rfl (by decide) (by decide))
      (headersOf_onlyHeader (n := 2) (by decide) (by decide)) (by decide) (by simp) (by decide)).1,
    by decide⟩

/-! ## Packets reported repeatedly -/

/-- Every last packet of a message that consumes a receive is reported while the receive base has
not passed it. -/
def EndsNotStale (h : MetaHandler) (qpn : UInt32) (metas : List HeaderWriteMeta) : Prop :=
  ∀ pre x, pre ++ [x] <+: metas → x.pos.isEnd = true → x.headerType.consumes = true →
    ∀ t ∈ (h.run (pre.map ReportMeta.headerWrite)).1.recvTable.getQp qpn, t.basePsn ≤ x.psn

/-- What the receive side looks like then: of the messages that consume a receive, those queued end
after the base and those released do not, and none has been released twice. -/
structure AtMostOnce (S : MsgStream) (kind : ℕ → HeaderType) (n : ℕ) (st : ReorderState) :
    Prop where
  queued : ∀ p ∈ st.queue.entries, (kind p.1).consumes = true → st.base < S.endPos p.1
  released : ∀ p ∈ st.released, S.endPos p.1 ≤ st.base
  once : ((st.released.filter (fun p => (kind p.1).consumes)).map Prod.fst).Nodup
  event : ∀ p ∈ st.released ++ st.queue.entries, p.1 < n ∧ p.2.msgMeta.msn = msnAt S.msn0 p.1 ∧
    p.2.op.completion.isSome = (kind p.1).consumes

lemma AtMostOnce.step {n : ℕ} {st : ReorderState} {x : HeaderWriteMeta} {i p B' : ℕ}
    (inv : AtMostOnce S kind n st) (hi : i < n) (packet : PacketOf S kind x i p) (hB : st.base ≤ B')
    (hstale : x.pos.isEnd = true → (kind i).consumes = true → st.base < S.endPos i) :
    AtMostOnce S kind n (st.step S (registration x i) (moved st.base B')) := by
  have hevent : ∀ q ∈ (ReorderState.enqueue st.queue (registration x i)).entries,
      q.1 < n ∧ q.2.msgMeta.msn = msnAt S.msn0 q.1 ∧
        q.2.op.completion.isSome = (kind q.1).consumes := by
    intro q hq
    rcases HeaderTrace.mem_enqueue.mp hq with hq | ⟨-, -, rfl⟩
    · exact inv.event q (List.mem_append_right _ hq)
    · exact ⟨hi, packet.msn_eq, by rw [x.event_consumes, packet.type_eq]⟩
  have habove : ∀ q ∈ (ReorderState.enqueue st.queue (registration x i)).entries,
      (kind q.1).consumes = true → st.base < S.endPos q.1 := by
    intro q hq hc
    rcases HeaderTrace.mem_enqueue.mp hq with hq | ⟨hend, -, rfl⟩
    · exact inv.queued q hq hc
    · exact hstale hend hc
  refine ⟨fun q hq hc => ?_, fun q hq => ?_, ?_, fun q hq => ?_⟩
  · rw [ReorderState.step_base, moved_getD]
    obtain ⟨hq, hlt⟩ := ReorderState.mem_step_queue.mp hq
    by_cases heq : B' = st.base
    · rw [heq]; exact habove q hq hc
    · exact hlt B' (mem_moved.mpr ⟨heq, rfl⟩)
  · rw [ReorderState.step_base, moved_getD]
    rcases ReorderState.mem_step_released.mp hq with hq | ⟨-, b, hb, hle⟩
    · exact (inv.released q hq).trans hB
    · rwa [(mem_moved.mp hb).2] at hle
  · by_cases heq : B' = st.base
    · simpa [moved, heq, ReorderState.step] using inv.once
    · simp only [moved, heq, if_false, ReorderState.step, List.filter_append, List.map_append]
      refine List.nodup_append.mpr ⟨inv.once, ?_, ?_⟩
      · exact (KeyedQueue.nodup_keys _).sublist
          ((List.filter_sublist.trans List.filter_sublist).map _)
      · -- what is released now ends after the old base, what was released before does not
        rintro a ha b hb rfl
        obtain ⟨q, hq, rfl⟩ := List.mem_map.mp ha
        obtain ⟨q', hq', heq⟩ := List.mem_map.mp hb
        obtain ⟨hq', hc⟩ := List.mem_filter.mp hq'
        have h1 := inv.released q (List.mem_of_mem_filter hq)
        have h2 := habove q' (KeyedQueue.mem_keep.mp hq').1 hc
        rw [heq] at h2
        omega
  · rw [ReorderState.step_parts] at hq
    rcases List.mem_append.mp hq with hq | hq
    · exact inv.event q (List.mem_append_left _ hq)
    · exact hevent q hq

/-- The invariant holds along every trace in which no last packet of such a message is stale. -/
theorem HeaderTrace.atMostOnce {n : ℕ}
    {st : ReorderState} (h : HeaderTrace S kind n metas st)
    (hstale : ∀ pre x, pre ++ [x] <+: metas → x.pos.isEnd = true → x.headerType.consumes = true →
      ∀ B, IsBase (positions pre) B → B ≤ x.seq) : AtMostOnce S kind n st := by
  induction h with
  | nil => exact ⟨by simp [ReorderState.initial, KeyedQueue.empty], by simp [ReorderState.initial],
      by simp [ReorderState.initial], by simp [ReorderState.initial, KeyedQueue.empty]⟩
  | @step metas st x i p B' h hi packet seq base ih =>
    have inv := ih (fun pre y hpre => hstale pre y (hpre.trans (List.prefix_append _ _)))
    refine inv.step hi packet (h.base_mono base) (fun hend hc => ?_)
    have hle := hstale metas x List.prefix_rfl hend (by rwa [packet.type_eq]) st.base h.isBase
    have hpe := packet.isEnd_iff.mp hend
    omega

/-- In terms of the abstract receive side, a report is stale when its position lies before the
base. -/
lemma EndsNotStale.isBase {n : ℕ} {qpn : UInt32} {h : MetaHandler} {rt : RemoteAckTracker}
    (hstale : EndsNotStale h qpn metas) (hm : HeadersOf S kind n qpn metas)
    (alive : h.panicked = none) (hl : h.recvTable.getQp qpn = some default)
    (hr : h.sendTable.getQp qpn = some rt) {pre : List HeaderWriteMeta} {x : HeaderWriteMeta}
    (hpre : pre ++ [x] <+: metas) (hend : x.pos.isEnd = true) (hc : x.headerType.consumes = true)
    {B : ℕ} (hB : IsBase (positions pre) B) : B ≤ x.seq := by
  have hm' : HeadersOf S kind n qpn (pre ++ [x]) :=
    ⟨hm.msgs, hm.psns, fun y hy => hm.packet y (hpre.subset hy)⟩
  obtain ⟨st, htrace, -, -, t, -, ht, -, htracks⟩ := headerRun_refines hm'.initial alive hl hr
  obtain ⟨-, i, hi, p, hp⟩ := hm'.packet x (by simp)
  obtain ⟨hseq, hlt⟩ := hm'.seq_eq hi hp
  have hbase : B = st.base := by
    rcases Nat.lt_trichotomy B st.base with h1 | h1 | h1
    · exact absurd (htrace.isBase.1 B h1) hB.2
    · exact h1
    · exact absurd (hB.1 st.base h1) htrace.isBase.2
  have hle : st.base ≤ 2 ^ 23 := by
    refine htracks.base_le (fun q hq => ?_)
    obtain ⟨y, hy, rfl⟩ := List.mem_map.mp (of_decide_eq_true hq)
    obtain ⟨-, j, hj, p', hp'⟩ := hm'.packet y (List.mem_append_left _ hy)
    obtain ⟨h1, h2⟩ := hm'.seq_eq hj hp'
    omega
  have hpsn := hstale pre x hpre hend hc t ht
  have hnear : SerialNear (2 ^ 23) st.base p := ⟨by omega, by omega⟩
  rw [show t.basePsn = Psn.ofPos st.base from htracks.tracks.1, hp.psn_eq,
    Psn.le_ofPos hnear] at hpsn
  omega

/-- **At most one receive completion per message.**  If no last packet of a message that consumes a
receive is reported after the receive base has passed it, every message produces at most one
completion and consumes at most one posted receive, whatever else is repeated; and what is pushed to
the receive queue is one entry for each of these completions. -/
theorem recvCompletion_atMostOnce {S : MsgStream} {kind : ℕ → HeaderType} {n : ℕ} {qpn : UInt32}
    {metas : List HeaderWriteMeta} {h : MetaHandler} {w : CompletionWorker} {attrs : QpTable QpAttr}
    {posts : List PostRecvEvent} (fresh : FreshQp h w attrs qpn)
    (hm : HeadersOf S kind n qpn metas) (hstale : EndsNotStale h qpn metas) :
    let polls := (receiveRun h w attrs qpn posts metas).recvsOn qpn
    (∀ msn, consumed (polls.filter (fun p => p.1.msgMeta.msn = msn)) ≤ 1) ∧
    (polls.filterMap Prod.snd).map Completion.wrId
      = (posts.map PostRecvEvent.wrId).take (consumed polls) ∧
    ∃ attr recvCq, attrs.getQp qpn = some attr ∧ attr.recvCq = some recvCq ∧
      ((receiveRun h w attrs qpn posts metas).pushes qpn).filter (fun q => !q.2.isSend)
        = (polls.filterMap Prod.snd).map (fun c => (recvCq, c)) := by
  obtain ⟨st, htrace, hrecvs, -⟩ := receiveRun_recvs fresh hm posts
  have inv := htrace.atMostOnce (fun pre x hpre hend hc B hB =>
    hstale.isBase hm fresh.handler_alive fresh.recv_tracker fresh.send_tracker hpre hend hc hB)
  refine ⟨fun msn => ?_, by rw [hrecvs, deliver_wrIds, List.map_take],
    receiveRun_pushes fresh posts metas⟩
  -- a completion is the completion of a released message
  have hpolls : consumed (((receiveRun h w attrs qpn posts metas).recvsOn qpn).filter
      (fun p => p.1.msgMeta.msn = msn))
      ≤ st.released.countP (fun p => decide (msnAt S.msn0 p.1 = msn) && (kind p.1).consumes) := by
    rw [hrecvs, consumed, List.countP_filter]
    calc (deliver _ posts).countP (fun p => p.2.isSome && decide (p.1.msgMeta.msn = msn))
        = ((deliver _ posts).map Prod.fst).countP
            (fun e => e.op.completion.isSome && decide (e.msgMeta.msn = msn)) := by
          rw [List.countP_map]
          refine List.countP_congr (fun p hp => ?_)
          simp only [Function.comp_apply, deliver_isSome hp]
      _ ≤ (st.released.map Prod.snd).countP
            (fun e => e.op.completion.isSome && decide (e.msgMeta.msn = msn)) :=
          ((deliver_events _ posts).sublist.trans List.filter_sublist).countP_le
      _ = st.released.countP (fun p => decide (msnAt S.msn0 p.1 = msn) && (kind p.1).consumes) := by
          rw [List.countP_map]
          refine List.countP_congr (fun p hp => ?_)
          obtain ⟨-, hmsn, hop⟩ := inv.event p (List.mem_append_left _ hp)
          simp only [Function.comp_apply, hmsn, hop, Bool.and_comm]
  -- and no two released messages that consume a receive share an MSN
  refine hpolls.trans ?_
  rw [← List.countP_filter, show (fun p : ℕ × RecvEvent => decide (msnAt S.msn0 p.1 = msn))
    = (fun j => decide (msnAt S.msn0 j = msn)) ∘ Prod.fst from rfl, ← List.countP_map]
  set keys := (st.released.filter (fun p => (kind p.1).consumes)).map Prod.fst with hkeys
  by_cases hex : ∃ j ∈ keys, msnAt S.msn0 j = msn
  · obtain ⟨j, hj, rfl⟩ := hex
    have hlt : ∀ k ∈ keys, k < n := by
      intro k hk
      obtain ⟨q, hq, rfl⟩ := List.mem_map.mp hk
      exact (inv.event q (List.mem_append_left _ (List.mem_of_mem_filter hq))).1
    have hinj :
        ∀ k ∈ keys, (decide (msnAt S.msn0 k = msnAt S.msn0 j) = true ↔ (k == j) = true) := by
      intro k hk
      have h1 := hlt k hk
      have h2 := hlt j hj
      have h3 := hm.msgs
      have h4 : maxSendWr = 2 ^ 15 := rfl
      rw [decide_eq_true_eq, msnAt_inj S.msn0 ⟨by omega, by omega⟩, beq_iff_eq]
    rw [List.countP_congr hinj]
    exact List.nodup_iff_count_le_one.mp inv.once j
  · rw [List.countP_eq_zero.mpr]
    · exact Nat.zero_le 1
    · exact fun j hj => by simpa using fun he => hex ⟨j, hj, he⟩

/-- A retransmission that arrives before its original has been released is recognised. -/
theorem recvCompletion_atMostOnce_retransmitted :
    let run := receiveRun default default
      (QpTable.newWith { (default : QpAttr) with sendCq := some 0, recvCq := some 0 })
      0x100 [⟨0x100, 7⟩, ⟨0x100, 8⟩] ([1, 1, 0].map (onlyHeader 0x100 .send))
    consumed ((run.recvsOn 0x100).filter (fun p => p.1.msgMeta.msn = 1)) ≤ 1 ∧
      run.pushes 0x100 = [(0, .recv 7 none), (0, .recv 8 none)] := by
  refine ⟨(recvCompletion_atMostOnce (freshQp_default (by decide) rfl rfl (by decide) (by decide))
    (headersOf_onlyHeader (n := 2) (by decide) (by decide)) ?_).1 1, by decide⟩
  intro pre x hpre _ _
  rcases pre with _ | ⟨a, _ | ⟨b, _ | ⟨c, pre⟩⟩⟩
  · simp at hpre
    subst hpre
    decide
  · simp at hpre
    obtain ⟨rfl, rfl⟩ := hpre
    decide
  · simp at hpre
    obtain ⟨rfl, rfl, rfl⟩ := hpre
    decide
  · simp at hpre

/-- **The proviso is needed.**  Message 0 is delivered, its packet is reported again, and the next
message's packet moves the base: message 0 is delivered a second time, and takes the receive meant
for message 1. -/
theorem recvCompletion_twice :
    let metas := [0, 0, 1].map (onlyHeader 0x100 .send)
    let attrs := QpTable.newWith { (default : QpAttr) with sendCq := some 0, recvCq := some 0 }
    let run := receiveRun default default attrs 0x100 [⟨0x100, 7⟩, ⟨0x100, 8⟩, ⟨0x100, 9⟩] metas
    FreshQp default default attrs 0x100 ∧
    HeadersOf (MsgStream.unit 0) (fun _ => .send) 2 0x100 metas ∧
    consumed ((run.recvsOn 0x100).filter (fun p => p.1.msgMeta.msn = 0)) = 2 ∧
    run.pushes 0x100 = [(0, .recv 7 none), (0, .recv 8 none), (0, .recv 9 none)] :=
  ⟨freshQp_default (by decide) rfl rfl (by decide) (by decide),
    headersOf_onlyHeader (by decide) (by decide), by decide, by decide⟩

end OpenRdma
