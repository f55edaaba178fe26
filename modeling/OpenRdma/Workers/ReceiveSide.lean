import OpenRdma.Workers.CompletionRuns
import OpenRdma.Workers.MetaReport

/-!
# The receive side of a queue pair

Two workers share it: the meta handler moves the receive base and registers messages, the completion
worker queues them and releases them as the base passes.  Here one report is followed through both.

* **`handleMeta_tasks`** — the completion tasks of a report: the registration, then the new base if
  it moved.
* `ReorderState` — the abstract receive side: the base, the messages waiting for it, and those
  released.  **`Refines.step`**: the tasks of a report take the abstract step.
-/

namespace OpenRdma

open QueuePairMessageTracker

/-! ## One report -/

/-- What a report does to the receive tracker of its queue pair, and the new base if it moved. -/
def LocalAckTracker.onMeta (t : LocalAckTracker) : ReportMeta → LocalAckTracker × Option Psn
  | .headerWrite x => t.ackOne x.psn
  | .headerRead x => if x.ackReq then t.ackOne x.psn else (t, none)
  | .ackLocalHw x => t.ackBitmap x.psnNow x.nowBitmap
  | .nakLocalHw x => t.nakBitmap x.psnPre x.preBitmap x.psnNow x.nowBitmap
  | .ackRemoteDriver _ | .nakRemoteHw _ | .nakRemoteDriver _ | .cnp _ => (t, none)

/-- What a report does to the send tracker of its queue pair, and the new base if it moved. -/
def RemoteAckTracker.onMeta (t : RemoteAckTracker) : ReportMeta → RemoteAckTracker × Option Psn
  | .ackRemoteDriver x => t.ackBefore x.psnNow
  | .nakRemoteHw x => t.nakBitmap x.msn x.psnPre x.preBitmap x.psnNow x.nowBitmap
  | .nakRemoteDriver x => t.ackBefore x.psnPre
  | .headerWrite _ | .headerRead _ | .ackLocalHw _ | .nakLocalHw _ | .cnp _ => (t, none)

/-- The message a report registers: one whose last packet it is about. -/
def ReportMeta.registers : ReportMeta → Option RecvEvent
  | .headerWrite x => if x.pos.isEnd then some x.event else none
  | .headerRead x =>
    if x.ackReq then some ⟨x.dqpn, .recvRead, ⟨x.msn, x.psn + (1 : UInt32)⟩, true⟩ else none
  | _ => none

/-- The completion tasks of a report, in the order they are sent. -/
def metaTasks (qpn : UInt32) (registers : Option RecvEvent) (recvBase sendBase : Option Psn) :
    List CompletionTask :=
  (registers.map (fun e => .register qpn (.recv e))).toList
    ++ (recvBase.map (fun b => .ackRecv qpn b)).toList
    ++ (sendBase.map (fun b => .ackSend qpn b)).toList

lemma metaTasks_qpn {qpn : UInt32} {reg : Option RecvEvent} {rb sb : Option Psn}
    {task : CompletionTask} (h : task ∈ metaTasks qpn reg rb sb) :
    task.qpn = qpn ∧ ¬ IsPostRecv task := by
  simp only [metaTasks, List.mem_append, Option.mem_toList, Option.map_eq_some_iff] at h
  rcases h with (⟨e, -, rfl⟩ | ⟨b, -, rfl⟩) | ⟨b, -, rfl⟩
  · exact ⟨rfl, id⟩
  · exact ⟨rfl, id⟩
  · exact ⟨rfl, id⟩

lemma completionTasks_onMove_receiver (r : Option Psn) (qpn : UInt32) :
    Output.completionTasks (MetaHandler.onMove r (MetaHandler.receiverUpdates qpn))
      = (r.map (fun b => CompletionTask.ackRecv qpn b)).toList := by
  cases r <;> rfl

lemma completionTasks_onMove_sender (r : Option Psn) (qpn : UInt32) :
    Output.completionTasks (MetaHandler.onMove r (MetaHandler.senderUpdates qpn))
      = (r.map (fun b => CompletionTask.ackSend qpn b)).toList := by
  cases r <;> rfl

/-- **One report, seen by its queue pair.** -/
theorem handleMeta_tasks {h : MetaHandler} {m : ReportMeta} {lt : LocalAckTracker}
    {rt : RemoteAckTracker} (alive : h.panicked = none) (hcnp : ∀ x, m ≠ .cnp x)
    (hl : h.recvTable.getQp m.qpn = some lt) (hr : h.sendTable.getQp m.qpn = some rt) :
    Output.completionTasks (h.handleMeta m).outs
      = metaTasks m.qpn m.registers (lt.onMeta m).2 (rt.onMeta m).2 ∧
    (h.handleMeta m).handler.recvTable.getQp m.qpn = some (lt.onMeta m).1 ∧
    (h.handleMeta m).handler.sendTable.getQp m.qpn = some (rt.onMeta m).1 ∧
    (h.handleMeta m).handler.panicked = none := by
  have hcons : ∀ (t : AckTimeoutTask) (outs : List Output),
      Output.completionTasks (.ackTimeout t :: outs) = Output.completionTasks outs := fun _ _ => rfl
  simp only [MetaHandler.handleMeta, alive, Option.isSome_none, Bool.false_eq_true, if_false, hcons]
  cases m with
  | headerWrite x =>
    have hl : h.recvTable.getQp x.dqpn = some lt := hl
    have hnak : ∀ (c : Bool) (r : AckResponse),
        Output.completionTasks (if c then [.ackResp r] else []) = [] := fun c r => by
      cases c <;> rfl
    simp only [MetaHandler.handleHeaderWrite, hl, ReportMeta.qpn, QpTable.getQp_setQp_self hl,
      Output.completionTasks_append, completionTasks_onMove_receiver, hnak, metaTasks,
      ReportMeta.registers, LocalAckTracker.onMeta, RemoteAckTracker.onMeta]
    refine ⟨?_, trivial, hr, alive⟩
    cases x.pos.isEnd
    · simp
    · simp [Output.completionTasks]
  | headerRead x =>
    have hl : h.recvTable.getQp x.dqpn = some lt := hl
    cases hack : x.ackReq with
    | false =>
      simp only [MetaHandler.handleHeaderRead, hack, ReportMeta.qpn, metaTasks,
        ReportMeta.registers, LocalAckTracker.onMeta, RemoteAckTracker.onMeta]
      exact ⟨rfl, hl, hr, alive⟩
    | true =>
      simp only [MetaHandler.handleHeaderRead, hack, hl, ReportMeta.qpn,
        QpTable.getQp_setQp_self hl, Output.completionTasks_append,
        completionTasks_onMove_receiver, metaTasks, ReportMeta.registers,
        LocalAckTracker.onMeta, RemoteAckTracker.onMeta, if_true]
      exact ⟨rfl, trivial, hr, alive⟩
  | ackLocalHw x | nakLocalHw x =>
    have hl : h.recvTable.getQp x.qpn = some lt := hl
    simp only [MetaHandler.handleAckLocalHw, MetaHandler.handleNakLocalHw, MetaHandler.updateRecv,
      hl, ReportMeta.qpn, QpTable.getQp_setQp_self hl, completionTasks_onMove_receiver, metaTasks,
      ReportMeta.registers, LocalAckTracker.onMeta, RemoteAckTracker.onMeta]
    exact ⟨by simp, trivial, hr, alive⟩
  | ackRemoteDriver x | nakRemoteHw x | nakRemoteDriver x =>
    have hr : h.sendTable.getQp x.qpn = some rt := hr
    simp only [MetaHandler.handleAckRemoteDriver, MetaHandler.handleNakRemoteHw,
      MetaHandler.handleNakRemoteDriver, MetaHandler.updateSend, hr, ReportMeta.qpn,
      QpTable.getQp_setQp_self hr, completionTasks_onMove_sender, metaTasks,
      ReportMeta.registers, LocalAckTracker.onMeta, RemoteAckTracker.onMeta]
    exact ⟨by simp, hl, trivial, alive⟩
  | cnp x => exact absurd rfl (hcnp x)

/-! ## The abstract receive side -/

/-- What the two workers amount to: the receive base, the messages waiting for it, and the messages
released so far, all by stream position and message number. -/
structure ReorderState where
  base : ℕ
  queue : KeyedQueue RecvEvent
  released : List (ℕ × RecvEvent)

namespace ReorderState

def initial : ReorderState := ⟨0, KeyedQueue.empty, []⟩

/-- Queue the message a report registers, if it registers one. -/
def enqueue (Q : KeyedQueue RecvEvent) : Option (ℕ × RecvEvent) → KeyedQueue RecvEvent
  | none => Q
  | some (i, e) => Q.insert i e

/-- One report: a message may be queued, and then a base may be announced, which releases everything
that ends at or before it. -/
def step (S : MsgStream) (st : ReorderState) (reg : Option (ℕ × RecvEvent)) :
    Option ℕ → ReorderState
  | none => { st with queue := enqueue st.queue reg }
  | some B' => ⟨B', (enqueue st.queue reg).keep (fun i => !decide (S.endPos i ≤ B')),
      st.released ++ ((enqueue st.queue reg).keep (fun i => decide (S.endPos i ≤ B'))).entries⟩

section Step

variable {S : MsgStream} {st : ReorderState} {reg : Option (ℕ × RecvEvent)} {ack : Option ℕ}

@[simp] lemma step_base : (st.step S reg ack).base = ack.getD st.base := by
  cases ack <;> rfl

lemma mem_step_queue {e : ℕ × RecvEvent} :
    e ∈ (st.step S reg ack).queue.entries ↔
      e ∈ (enqueue st.queue reg).entries ∧ ∀ B' ∈ ack, B' < S.endPos e.1 := by
  cases ack <;> simp [step, KeyedQueue.mem_keep]

lemma mem_step_released {e : ℕ × RecvEvent} :
    e ∈ (st.step S reg ack).released ↔ e ∈ st.released ∨
      (e ∈ (enqueue st.queue reg).entries ∧ ∃ B' ∈ ack, S.endPos e.1 ≤ B') := by
  cases ack <;> simp [step, KeyedQueue.mem_keep]

/-- Released and queued together are what they were, with the new message queued. -/
lemma step_parts : (st.step S reg ack).released ++ (st.step S reg ack).queue.entries
    = st.released ++ (enqueue st.queue reg).entries := by
  cases ack with
  | none => rfl
  | some B' =>
    simp only [step]
    rw [List.append_assoc, ← KeyedQueue.split_entries _ (S.downClosed_le B')]

end Step

/-- The completion worker's buffer, and what it has released, are the abstract ones. -/
structure Refines (S : MsgStream) (st : ReorderState)
    (out : MessageTracker RecvEvent × List RecvEvent) : Prop where
  base_eq : out.1.basePsn = Psn.ofPos st.base
  represents : MessageTracker.Represents S st.queue out.1.inner
  released_eq : out.2 = st.released.map Prod.snd

lemma refines_initial (S : MsgStream) : Refines S initial (recvRun default []) :=
  ⟨rfl, MessageTracker.represents_empty S, rfl⟩

/-- **The tasks of a report take the abstract step**, as long as the numbers compared lie within
half a circle of each other. -/
theorem Refines.step {S : MsgStream} {st : ReorderState} {tasks : List CompletionTask}
    {ack : Option ℕ} (h : Refines S st (recvRun default tasks)) (qpn : UInt32)
    (reg : Option (ℕ × RecvEvent)) (sendBase : Option Psn)
    (hmeta : ∀ i e, reg = some (i, e) → e.msgMeta = S.metaOf i)
    (hmsn : ∀ i e, reg = some (i, e) → ∀ j ∈ st.queue.keys, SerialNear (2 ^ 15) j i)
    (hpsn : ∀ B' ∈ ack,
      ∀ i ∈ (enqueue st.queue reg).keys, SerialNear (2 ^ 23) (S.endPos i) B') :
    Refines S (st.step S reg ack) (recvRun default (tasks
      ++ metaTasks qpn (reg.map Prod.snd) (ack.map Psn.ofPos) sendBase)) := by
  obtain ⟨hbase, hQ, hrel⟩ := h
  set r := (recvRun default tasks).1 with hr
  -- the registration
  obtain ⟨r₁, hr₁, hb₁, hrun₁⟩ : ∃ r₁,
      MessageTracker.Represents S (enqueue st.queue reg) r₁.inner ∧
      r₁.basePsn = Psn.ofPos st.base ∧
      recvRun r ((reg.map Prod.snd).map (fun e => .register qpn (.recv e))).toList = (r₁, []) := by
    cases reg with
    | none => exact ⟨r, hQ, hbase, rfl⟩
    | some ie =>
      obtain ⟨i, e⟩ := ie
      obtain ⟨hrep, hb⟩ := MessageTracker.append_represents hQ (hmeta i e rfl) (hmsn i e rfl)
      exact ⟨r.append e, hrep, hb.trans hbase, rfl⟩
  -- the send base is of no concern to the receive side
  have hsend : ∀ r, recvRun r (sendBase.map (fun b => CompletionTask.ackSend qpn b)).toList
      = (r, []) := fun r => by cases sendBase <;> rfl
  simp only [metaTasks, recvRun_append_list, ← hr, hrun₁, hsend, List.nil_append, List.append_nil]
  cases ack with
  | none => exact ⟨hb₁, hr₁, by simpa [recvRun, ReorderState.step] using hrel⟩
  | some B' =>
    obtain ⟨hitems, hrep, hb, -⟩ := MessageTracker.popAll_represents hr₁ (hpsn B' rfl)
    refine ⟨hb, hrep, ?_⟩
    simp only [ReorderState.step, List.map_append, ← hrel]
    exact congrArg _ hitems

end ReorderState

/-! ## Headers against the stream -/

/-- The report `x` is about the packet at position `p`, which belongs to message `i`. -/
structure PacketOf (S : MsgStream) (kind : ℕ → HeaderType) (x : HeaderWriteMeta) (i p : ℕ) :
    Prop where
  psn_eq : x.psn = Psn.ofPos p
  start_le : S.startPos i ≤ p
  lt_end : p < S.endPos i
  msn_eq : x.msn = msnAt S.msn0 i
  type_eq : x.headerType = kind i
  isEnd_iff : x.pos.isEnd = true ↔ p + 1 = S.endPos i

lemma PacketOf.event_meta {S : MsgStream} {kind : ℕ → HeaderType} {x : HeaderWriteMeta} {i p : ℕ}
    (h : PacketOf S kind x i p) (hend : x.pos.isEnd = true) : x.event.msgMeta = S.metaOf i := by
  have hpsn : x.psn + (1 : UInt32) = Psn.ofPos (S.endPos i) := by
    rw [h.psn_eq, Psn.ofPos_add, ← h.isEnd_iff.mp hend]
    rfl
  simp only [HeaderWriteMeta.event, MsgStream.metaOf, h.msn_eq, hpsn]

/-- The message a header registers, with its number. -/
def registration (x : HeaderWriteMeta) (i : ℕ) : Option (ℕ × RecvEvent) :=
  if x.pos.isEnd then some (i, x.event) else none

lemma registration_snd (x : HeaderWriteMeta) (i : ℕ) :
    (registration x i).map Prod.snd = ReportMeta.registers (.headerWrite x) := by
  cases h : x.pos.isEnd <;> simp [registration, ReportMeta.registers, h]

lemma registration_eq_some {x : HeaderWriteMeta} {i j : ℕ} {e : RecvEvent}
    (h : registration x i = some (j, e)) : x.pos.isEnd = true ∧ j = i ∧ e = x.event := by
  unfold registration at h
  split at h
  · next hend =>
      obtain ⟨rfl, rfl⟩ := Prod.mk.inj (Option.some.inj h)
      exact ⟨hend, rfl, rfl⟩
  · exact absurd h (by simp)

end OpenRdma
