import OpenRdma.RdmaUtils.PsnWindow
import OpenRdma.Workers.ReceiveSide

/-!
# Reports of all kinds, anywhere on the PSN circle

Headers and the acknowledgements of the hardware both move the receive base, in whatever order the
report queues are polled.  `Places` reads such a report against the stream: the packets it is about
lie near the base, and a message it registers is not too many messages away from the base.  Nothing
is assumed about order or repetition.

* **`metaRun_rule`** — the meta handler and the completion worker together follow the abstract
  receive side, so a property that every abstract step keeps holds of what they have done.
-/

namespace OpenRdma

open QueuePairMessageTracker

/-! ## Reports against the stream -/

/-- Message `i` is at most `lag` messages behind the first one that ends after `B`, and fewer than
`maxSendWr - lag` after it. -/
def MsgWindow (S : MsgStream) (lag B i : ℕ) : Prop :=
  (∀ k, S.endPos k ≤ B → k < i + lag) ∧ ∀ k, B < S.endPos k → i + lag < k + maxSendWr

/-- Two messages in the window are less than half the MSN circle apart. -/
lemma MsgWindow.lt {S : MsgStream} {lag B i j : ℕ} (hi : MsgWindow S lag B i)
    (hj : MsgWindow S lag B j) : i < j + maxSendWr := by
  classical
  have hex : ∃ k, B < S.endPos k := ⟨B + 1, lt_of_lt_of_le (Nat.lt_succ_self B)
    S.strictMono.le_apply⟩
  have hc := hi.2 _ (Nat.find_spec hex)
  have hcj : Nat.find hex ≤ j + lag := by
    rcases Nat.eq_zero_or_pos (Nat.find hex) with h0 | hpos
    · omega
    · have := hj.1 (Nat.find hex - 1) (Nat.le_of_not_lt (Nat.find_min hex (by omega)))
      omega
  omega

/-- The window in a stream of one-packet messages. -/
lemma msgWindow_unit {m₀ : UInt16} {lag B i : ℕ} (hlo : B ≤ i + lag)
    (hhi : i + lag < B + maxSendWr) : MsgWindow (MsgStream.unit m₀) lag B i := by
  refine ⟨fun k hk => ?_, fun k hk => ?_⟩
  · have hk : k + 1 ≤ B := hk
    omega
  · have hk : B < k + 1 := hk
    omega

/-- The report `m`, read against the stream while the base is at position `B`; and the message it
registers. -/
inductive Places (S : MsgStream) (kind : ℕ → HeaderType) (lag B : ℕ) :
    ReportMeta → Option (ℕ × RecvEvent) → Prop
  | header {x : HeaderWriteMeta} {i p : ℕ} (packet : PacketOf S kind x i p) (near : NearBase B p)
      (window : x.pos.isEnd = true → MsgWindow S lag B i) :
      Places S kind lag B (.headerWrite x) (registration x i)
  | ackLocal {x : AckMetaLocalHw} {q : ℕ} (now : x.psnNow = Psn.ofPos q) (near : NearBase B q) :
      Places S kind lag B (.ackLocalHw x) none
  | nakLocal {x : NakMetaLocalHw} {q q' : ℕ} (pre : x.psnPre = Psn.ofPos q) (near : NearBase B q)
      (now : x.psnNow = Psn.ofPos q') (near' : NearBase B q') :
      Places S kind lag B (.nakLocalHw x) none
  | ackRemote {x : AckMetaRemoteDriver} : Places S kind lag B (.ackRemoteDriver x) none
  | nakRemote {x : NakMetaRemoteHw} : Places S kind lag B (.nakRemoteHw x) none
  | nakDriver {x : NakMetaRemoteDriver} : Places S kind lag B (.nakRemoteDriver x) none

namespace Places

variable {S : MsgStream} {kind : ℕ → HeaderType} {lag B : ℕ} {m : ReportMeta}
  {reg : Option (ℕ × RecvEvent)}

lemma ne_cnp (h : Places S kind lag B m reg) (x : CnpMeta) : m ≠ .cnp x := by
  cases h <;> simp

lemma registers_eq (h : Places S kind lag B m reg) : m.registers = reg.map Prod.snd := by
  cases h with
  | header packet near window => exact (registration_snd _ _).symm
  | _ => rfl

/-- A registered message is the one at the end of which a packet near the base lies. -/
lemma registered (h : Places S kind lag B m reg) {i : ℕ} {e : RecvEvent}
    (hreg : reg = some (i, e)) :
    ∃ x p, m = .headerWrite x ∧ PacketOf S kind x i p ∧ x.pos.isEnd = true ∧ e = x.event ∧
      p + 1 = S.endPos i ∧ NearBase B p ∧ MsgWindow S lag B i := by
  cases h with
  | @header x i' p packet near window =>
    obtain ⟨hend, rfl, rfl⟩ := registration_eq_some hreg
    exact ⟨x, p, rfl, packet, hend, rfl, packet.isEnd_iff.mp hend, near, window hend⟩
  | _ => exact absurd hreg (by simp)

/-- **The base moves by less than `2 ^ 22`, and is announced if it moves.** -/
lemma onMeta_moves (h : Places S kind lag B m reg) {t : LocalAckTracker}
    (hw : t.psnTracker.Window B (B + 2 ^ 22 - 1)) :
    ∃ B', PsnTracker.Moves B (B + 2 ^ 22 - 1) ((t.onMeta m).1.psnTracker, (t.onMeta m).2) B' := by
  cases h with
  | header packet near window =>
    simp only [LocalAckTracker.onMeta, packet.psn_eq]
    exact LocalAckTracker.ackOne_moves hw near
  | ackLocal now near =>
    simp only [LocalAckTracker.onMeta, now]
    exact LocalAckTracker.ackBitmap_moves _ hw near
  | nakLocal pre near now near' =>
    simp only [LocalAckTracker.onMeta, pre, now]
    exact LocalAckTracker.nakBitmap_moves _ _ hw near near'
  | _ => exact ⟨B, le_rfl, hw, .inl ⟨rfl, rfl⟩⟩

end Places

/-! ## The position of the base -/

/-- The receive base of a queue pair. -/
def MetaHandler.recvBase (h : MetaHandler) (qpn : UInt32) : Psn :=
  ((h.recvTable.getQp qpn).getD default).basePsn

/-- The position of the receive base after some reports: how far it has moved in all. -/
def basePos (h : MetaHandler) (qpn : UInt32) (metas : List ReportMeta) : ℕ :=
  (metas.foldl (fun acc m => ((acc.1.handleMeta m).handler,
    acc.2 + ((acc.1.handleMeta m).handler.recvBase qpn - acc.1.recvBase qpn).val.toNat)) (h, 0)).2

lemma basePos_append (h : MetaHandler) (qpn : UInt32) (metas : List ReportMeta) (m : ReportMeta) :
    basePos h qpn (metas ++ [m]) = basePos h qpn metas
      + ((h.run (metas ++ [m])).1.recvBase qpn - (h.run metas).1.recvBase qpn).val.toNat := by
  have hfst : ∀ metas : List ReportMeta, (metas.foldl (fun acc m => ((acc.1.handleMeta m).handler,
      acc.2 + ((acc.1.handleMeta m).handler.recvBase qpn - acc.1.recvBase qpn).val.toNat))
      (h, 0)).1 = (h.run metas).1 := by
    intro metas
    induction metas using List.reverseRecOn with
    | nil => rfl
    | append_singleton metas m ih =>
      rw [List.foldl_append, MetaHandler.run_append, List.foldl_cons, List.foldl_nil, ih]
  rw [basePos, List.foldl_append, List.foldl_cons, List.foldl_nil, hfst, MetaHandler.run_append]
  rfl

lemma Psn.ofPos_sub {B B' : ℕ} (hle : B ≤ B') (hlt : B' < B + 2 ^ 24) :
    (Psn.ofPos B' - Psn.ofPos B).val.toNat = B' - B := by
  rw [Psn.sub_val, Psn.ofPos_val, Psn.ofPos_val]
  omega

/-! ## Runs -/

/-- The completion tasks of a sequence of reports. -/
def reportTasks (h : MetaHandler) (metas : List ReportMeta) : List CompletionTask :=
  Output.completionTasks (h.run metas).2

/-- Every report can be read against the stream. -/
def Placed (S : MsgStream) (kind : ℕ → HeaderType) (lag : ℕ) (h : MetaHandler) (qpn : UInt32)
    (metas : List ReportMeta) : Prop :=
  ∀ pre m, pre ++ [m] <+: metas → m.qpn = qpn ∧ ∃ reg, Places S kind lag (basePos h qpn pre) m reg

lemma placed_nil (S : MsgStream) (kind : ℕ → HeaderType) (lag : ℕ) (h : MetaHandler)
    (qpn : UInt32) : Placed S kind lag h qpn [] := by
  intro pre m hpre
  simp at hpre

/-- One more report, with the base at position `B`. -/
lemma Placed.snoc {S : MsgStream} {kind : ℕ → HeaderType} {lag : ℕ} {h : MetaHandler} {qpn : UInt32}
    {metas : List ReportMeta} (hplaced : Placed S kind lag h qpn metas) {m : ReportMeta}
    {reg : Option (ℕ × RecvEvent)} {B : ℕ} (hB : basePos h qpn metas = B) (hq : m.qpn = qpn)
    (hp : Places S kind lag B m reg) : Placed S kind lag h qpn (metas ++ [m]) := by
  intro pre m' hpre
  rcases List.prefix_concat_iff.mp hpre with heq | hpre
  · obtain ⟨rfl, rfl⟩ : pre = metas ∧ m' = m := by
      obtain ⟨h1, h2⟩ := List.append_inj' heq rfl
      exact ⟨h1, by simpa using h2⟩
    exact ⟨hq, reg, hB ▸ hp⟩
  · exact hplaced pre m' hpre

/-- The queued messages end near the base, and are in the message window. -/
def QueueNear (S : MsgStream) (lag : ℕ) (st : ReorderState) : Prop :=
  ∀ j ∈ st.queue.keys, S.endPos j ≤ st.base + 2 ^ 22 ∧ st.base ≤ S.endPos j + 2 ^ 22 ∧
    MsgWindow S lag st.base j

section Step

variable {S : MsgStream} {kind : ℕ → HeaderType} {lag : ℕ} {m : ReportMeta} {st : ReorderState}
  {reg : Option (ℕ × RecvEvent)} {ack : Option ℕ}

lemma ReorderState.mem_keys_enqueue {Q : KeyedQueue RecvEvent} {j : ℕ} :
    j ∈ (enqueue Q reg).keys ↔ j ∈ Q.keys ∨ ∃ e, reg = some (j, e) := by
  rcases reg with _ | ⟨i, e⟩
  · simp [enqueue]
  · simp only [enqueue, KeyedQueue.mem_keys_insert, Option.some.injEq, Prod.mk.injEq]
    constructor
    · rintro (h | rfl)
      · exact .inl h
      · exact .inr ⟨e, rfl, rfl⟩
    · rintro (h | ⟨e', rfl, -⟩)
      · exact .inl h
      · exact .inr rfl

lemma ReorderState.mem_enqueue {Q : KeyedQueue RecvEvent} {q : ℕ × RecvEvent} :
    q ∈ (enqueue Q reg).entries ↔ q ∈ Q.entries ∨ (reg = some q ∧ q.1 ∉ Q.keys) := by
  rcases reg with _ | ⟨i, e⟩
  · simp [enqueue]
  · rw [enqueue, KeyedQueue.mem_insert]
    refine or_congr Iff.rfl ⟨?_, ?_⟩
    · rintro ⟨hi, rfl⟩
      exact ⟨rfl, hi⟩
    · rintro ⟨heq, hi⟩
      obtain rfl := Option.some.inj heq
      exact ⟨hi, rfl⟩

lemma QueueNear.enqueue (hq : QueueNear S lag st) (hp : Places S kind lag st.base m reg) :
    QueueNear S lag { st with queue := ReorderState.enqueue st.queue reg } := by
  intro j hj
  rcases ReorderState.mem_keys_enqueue.mp hj with hj | ⟨e, hreg⟩
  · exact hq j hj
  · obtain ⟨x, p, -, -, -, -, hpe, near, window⟩ := hp.registered hreg
    obtain ⟨h1, h2⟩ := near
    exact ⟨by show _ ≤ st.base + _; omega, by show st.base ≤ _; omega, window⟩

/-- An announced base releases everything behind it, so what stays queued is ahead of it. -/
lemma QueueNear.step (hq : QueueNear S lag st) (hp : Places S kind lag st.base m reg)
    (hB : st.base ≤ ack.getD st.base) : QueueNear S lag (st.step S reg ack) := by
  cases ack with
  | none => exact hq.enqueue hp
  | some B' =>
    intro j hj
    obtain ⟨e, he⟩ := KeyedQueue.mem_keys.mp hj
    obtain ⟨he, hlt⟩ := ReorderState.mem_step_queue.mp he
    have hlt := hlt B' rfl
    obtain ⟨h1, -, h3⟩ := hq.enqueue hp j (KeyedQueue.mem_keys.mpr ⟨e, he⟩)
    simp only [ReorderState.step_base, Option.getD_some] at hB h1 hlt ⊢
    refine ⟨by omega, by omega, fun k hk => ?_, fun k hk => h3.2 k (lt_of_le_of_lt hB hk)⟩
    have := S.strictMono.lt_iff_lt.mp (lt_of_le_of_lt hk hlt)
    omega

end Step

/-- **The two workers follow the abstract receive side.**  A property of the reports and the
abstract state that holds at first, and that every report keeps, holds of an abstract state that
describes the receive base and the completion worker's buffer. -/
theorem metaRun_rule {S : MsgStream} {kind : ℕ → HeaderType} {lag : ℕ} {h : MetaHandler}
    {qpn : UInt32} {metas : List ReportMeta} {rt : RemoteAckTracker} (alive : h.panicked = none)
    (hl : h.recvTable.getQp qpn = some default) (hr : h.sendTable.getQp qpn = some rt)
    (placed : Placed S kind lag h qpn metas)
    (I : List ReportMeta → ReorderState → Prop) (init : I [] .initial)
    (step : ∀ pre m st reg ack, pre ++ [m] <+: metas → I pre st →
      (h.run pre).1.recvBase qpn = Psn.ofPos st.base → Places S kind lag st.base m reg →
      st.base ≤ ack.getD st.base → I (pre ++ [m]) (st.step S reg ack)) :
    ∃ st lt, I metas st ∧ st.Refines S (recvRun default (reportTasks h metas)) ∧
      QueueNear S lag st ∧ st.base = basePos h qpn metas ∧
      (∀ task ∈ reportTasks h metas, task.qpn = qpn ∧ ¬ IsPostRecv task) ∧
      (h.run metas).1.panicked = none ∧ (h.run metas).1.recvTable.getQp qpn = some lt ∧
      lt.psnTracker.Window st.base (st.base + 2 ^ 22 - 1) ∧
      ∃ rt, (h.run metas).1.sendTable.getQp qpn = some rt := by
  induction metas using List.reverseRecOn with
  | nil =>
    refine ⟨.initial, default, init, ReorderState.refines_initial S, ?_, rfl, ?_, alive, hl, ?_, rt,
      hr⟩
    · intro j hj
      simp [ReorderState.initial, KeyedQueue.empty, KeyedQueue.keys] at hj
    · exact fun task htask => absurd htask List.not_mem_nil
    · exact ⟨rfl, Nat.zero_le _, fun i hi => absurd (show bitAt [] i = true from hi) (by simp)⟩
  | append_singleton metas m ih =>
    obtain ⟨st, lt, hI, href, hqn, hbase, hqpn, halive, hlt, hwin, rt', hrt⟩ := ih
      (fun pre m' hp => placed pre m' (hp.trans (List.prefix_append _ _)))
      (fun pre m' st reg ack hp => step pre m' st reg ack (hp.trans (List.prefix_append _ _)))
    obtain ⟨hq, reg, hp⟩ := placed metas m List.prefix_rfl
    rw [← hbase] at hp
    obtain ⟨B', hB, hwin', hreport⟩ := hp.onMeta_moves hwin
    obtain ⟨htasks, hl', hr', halive'⟩ := handleMeta_tasks halive hp.ne_cnp (hq ▸ hlt) (hq ▸ hrt)
    -- the report as an announcement
    obtain ⟨ack, hack, hgetD, hmem⟩ : ∃ ack : Option ℕ, ack.map Psn.ofPos = (lt.onMeta m).2 ∧
        ack.getD st.base = B' ∧ ∀ b ∈ ack, b = B' := by
      rcases hreport with ⟨hnone, heq⟩ | hsome
      · exact ⟨none, hnone.symm, heq.symm, by simp⟩
      · exact ⟨some B', hsome.symm, rfl, fun b hb => (Option.mem_some.mp hb).symm⟩
    have hreports : reportTasks h (metas ++ [m]) = reportTasks h metas
        ++ metaTasks qpn (reg.map Prod.snd) (ack.map Psn.ofPos) (rt'.onMeta m).2 := by
      rw [reportTasks, MetaHandler.run_append, Output.completionTasks_append, htasks, hq,
        hp.registers_eq, hack]
      rfl
    have hle := hwin'.base_le
    have hnear := hqn.enqueue hp
    have hrecv : (h.run (metas ++ [m])).1.recvTable.getQp qpn = some (lt.onMeta m).1 := by
      rw [MetaHandler.run_append]; exact hq ▸ hl'
    have hbases : (h.run metas).1.recvBase qpn = Psn.ofPos st.base := by
      rw [MetaHandler.recvBase, hlt]
      exact hwin.base_eq
    refine ⟨st.step S reg ack, (lt.onMeta m).1, ?_, ?_, ?_, ?_, ?_, ?_, hrecv, ?_,
      (rt'.onMeta m).1, ?_⟩
    · exact step metas m st reg ack List.prefix_rfl hI hbases hp (hgetD ▸ hB)
    · rw [hreports]
      refine href.step qpn reg _ ?_ ?_ ?_
      · intro i e hreg
        obtain ⟨x, p, -, packet, hend, rfl, -⟩ := hp.registered hreg
        exact packet.event_meta hend
      · intro i e hreg j hj
        obtain ⟨-, -, -, -, -, -, -, -, window⟩ := hp.registered hreg
        have h1 := window.lt (hqn j hj).2.2
        have h2 := (hqn j hj).2.2.lt window
        simp only [maxSendWr] at h1 h2
        exact ⟨by omega, by omega⟩
      · intro b hb i hi
        rw [hmem b hb]
        obtain ⟨h1, h2, -⟩ := hnear i hi
        simp only at h1 h2
        exact ⟨by omega, by omega⟩
    · exact hqn.step hp (hgetD ▸ hB)
    · rw [ReorderState.step_base, hgetD, basePos_append, ← hbase, hbases, MetaHandler.recvBase,
        hrecv]
      show B' = st.base + ((lt.onMeta m).1.psnTracker.basePsn - _).val.toNat
      rw [hwin'.base_eq, Psn.ofPos_sub hB (by omega)]
      omega
    · intro task htask
      rw [hreports] at htask
      rcases List.mem_append.mp htask with htask | htask
      · exact hqpn task htask
      · exact metaTasks_qpn htask
    · rw [MetaHandler.run_append]; exact halive'
    · rw [ReorderState.step_base, hgetD]
      exact hwin'.mono (by omega)
    · rw [MetaHandler.run_append]; exact hq ▸ hr'

end OpenRdma
