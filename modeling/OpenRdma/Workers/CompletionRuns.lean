import OpenRdma.Core.Checked
import OpenRdma.Workers.CompletionQueues

/-!
# Runs of the completion worker

A run of one queue pair's tracker over a list of tasks (`runTasks`), what the two reorder buffers do
in it (`sendStep`, `recvStep` — each direction evolves on its own), and the receives it polls:
`runTasks_recvs` says that they are the released messages paired with the posted receives.

A run of the worker is over the tasks of all queue pairs.  **`run_project`** reduces it to one queue
pair: what the worker polls for a table index is what that index's tracker polls over its own tasks,
up to the point where a panic of the worker cuts the run short.  **`run_pushes`** says that what it
pushes to the completion queues is what it polls.
-/

namespace OpenRdma

namespace QueuePairMessageTracker

/-! ## One queue pair -/

/-- One more task, unless a panic has ended the run. -/
def Polled.step (acc : Polled) (task : CompletionTask) : Polled :=
  if acc.crashed.isSome then acc
  else
    let p := acc.tracker.handle task
    ⟨p.tracker, acc.sends ++ p.sends, acc.recvs ++ p.recvs, p.crashed⟩

def runTasks (t : QueuePairMessageTracker) (tasks : List CompletionTask) : Polled :=
  tasks.foldl Polled.step ⟨t, [], [], none⟩

@[simp] lemma runTasks_nil (t : QueuePairMessageTracker) : t.runTasks [] = ⟨t, [], [], none⟩ := rfl

lemma runTasks_append (t : QueuePairMessageTracker) (tasks : List CompletionTask)
    (task : CompletionTask) : t.runTasks (tasks ++ [task]) = (t.runTasks tasks).step task := by
  simp [runTasks, List.foldl_append]

/-- Every task of the list finds the run still alive. -/
def AliveBefore (t : QueuePairMessageTracker) (tasks : List CompletionTask) : Prop :=
  ∀ pre task, pre ++ [task] <+: tasks → (t.runTasks pre).crashed = none

lemma aliveBefore_nil (t : QueuePairMessageTracker) : t.AliveBefore [] := by
  intro pre task h
  simp at h

variable {t : QueuePairMessageTracker} {tasks : List CompletionTask}

lemma aliveBefore_append {task : CompletionTask} :
    t.AliveBefore (tasks ++ [task]) ↔
      t.AliveBefore tasks ∧ (t.runTasks tasks).crashed = none := by
  constructor
  · exact fun h => ⟨fun pre task' hp => h pre task' (hp.trans (List.prefix_append _ _)),
      h tasks task List.prefix_rfl⟩
  · rintro ⟨h, hlast⟩ pre task' hp
    rcases List.prefix_concat_iff.mp hp with heq | hp
    · rw [(List.append_inj' heq rfl).1]
      exact hlast
    · exact h pre task' hp

/-- The send side's reorder buffer under one task, and the events it releases. -/
def sendStep (s : MessageTracker SendEvent) :
    CompletionTask → MessageTracker SendEvent × List SendEvent
  | .register _ (.send e) => (s.append e, [])
  | .ackSend _ b => ((s.ack b).popAll.state, (s.ack b).popAll.items)
  | _ => (s, [])

/-- The receive side's reorder buffer under one task, and the events it releases. -/
def recvStep (r : MessageTracker RecvEvent) :
    CompletionTask → MessageTracker RecvEvent × List RecvEvent
  | .register _ (.recv e) => (r.append e, [])
  | .ackRecv _ b => ((r.ack b).popAll.state, (r.ack b).popAll.items)
  | _ => (r, [])

/-- The receive side over a list of tasks: its buffer, and all it has released. -/
def recvRun (r : MessageTracker RecvEvent) (tasks : List CompletionTask) :
    MessageTracker RecvEvent × List RecvEvent :=
  tasks.foldl (fun acc task => ((recvStep acc.1 task).1, acc.2 ++ (recvStep acc.1 task).2)) (r, [])

lemma recvRun_append (r : MessageTracker RecvEvent) (tasks : List CompletionTask)
    (task : CompletionTask) :
    recvRun r (tasks ++ [task]) = ((recvStep (recvRun r tasks).1 task).1,
      (recvRun r tasks).2 ++ (recvStep (recvRun r tasks).1 task).2) := by
  simp [recvRun, List.foldl_append]

lemma recvRun_append_list (r : MessageTracker RecvEvent) (tasks tasks' : List CompletionTask) :
    recvRun r (tasks ++ tasks') = ((recvRun (recvRun r tasks).1 tasks').1,
      (recvRun r tasks).2 ++ (recvRun (recvRun r tasks).1 tasks').2) := by
  induction tasks' using List.reverseRecOn with
  | nil => simp [recvRun]
  | append_singleton tasks' task ih =>
    rw [← List.append_assoc, recvRun_append, recvRun_append, ih]
    simp

/-- Whether a task concerns the receive side's reorder buffer. -/
def isRecvTask : CompletionTask → Bool
  | .register _ (.recv _) | .ackRecv _ _ => true
  | _ => false

lemma recvStep_of_not_recvTask {task : CompletionTask} (h : isRecvTask task = false)
    (r : MessageTracker RecvEvent) : recvStep r task = (r, []) := by
  cases task with
  | register qpn event =>
    cases event with
    | recv e => exact absurd h (by simp [isRecvTask])
    | send e | postRecv x => rfl
  | ackSend qpn b => rfl
  | ackRecv qpn b => exact absurd h (by simp [isRecvTask])

/-- The tasks of the other side do not matter. -/
lemma recvRun_filter (r : MessageTracker RecvEvent) (tasks : List CompletionTask) :
    recvRun r (tasks.filter isRecvTask) = recvRun r tasks := by
  induction tasks using List.reverseRecOn with
  | nil => rfl
  | append_singleton tasks task ih =>
    rw [List.filter_append, recvRun_append]
    cases h : isRecvTask task with
    | true => rw [List.filter_cons_of_pos h, List.filter_nil, recvRun_append, ih]
    | false => simp [h, ih, recvStep_of_not_recvTask h]

/-- A task that posts a receive. -/
def IsPostRecv : CompletionTask → Prop
  | .register _ (.postRecv _) => True
  | _ => False

/-! ### What one task does -/

/-- The loop over the send completions leaves everything but the merge queue alone. -/
lemma pollSends_frame (t : QueuePairMessageTracker) :
    t.pollSends.state.send = t.send ∧ t.pollSends.state.recv = t.recv ∧
      t.pollSends.state.postRecvQueue = t.postRecvQueue ∧
      t.pollSends.state.merge.recv = t.merge.recv := by
  obtain ⟨done, waiting, used, left, -, -, -, hr, -⟩ := t.pollSends_spec
  rw [hr]
  exact ⟨rfl, rfl, rfl, rfl⟩

lemma ackRecv_eq (t : QueuePairMessageTracker) (qpn : UInt32) (b : Psn) :
    t.ackRecv b = { t with
      recv := (recvStep t.recv (.ackRecv qpn b)).1
      merge := { t.merge with
        recv := t.merge.recv
          ++ (recvStep t.recv (.ackRecv qpn b)).2.filter (fun e => e.op ≠ .readResp)
        recvReadResp := t.merge.recvReadResp
          ++ (recvStep t.recv (.ackRecv qpn b)).2.filter (fun e => e.op = .readResp) } } := by
  simp only [ackRecv, recvStep, MergeQueue.foldl_pushRecv]

lemma ackSend_eq (t : QueuePairMessageTracker) (qpn : UInt32) (b : Psn) :
    t.ackSend b = { t with
      send := (sendStep t.send (.ackSend qpn b)).1
      merge := { t.merge with
        send := t.merge.send ++ (sendStep t.send (.ackSend qpn b)).2 } } := by
  simp only [ackSend, sendStep, MergeQueue.foldl_pushSend]

/-- The receive side of one task, when every receive polled so far has been delivered. -/
theorem handle_recvs (hm : t.merge.recv = []) (task : CompletionTask)
    (hp : ¬ IsPostRecv task) :
    let released := (recvStep t.recv task).2.filter (fun e => e.op ≠ .readResp)
    (t.handle task).recvs = deliver released t.postRecvQueue ∧
    (t.handle task).tracker.recv = (recvStep t.recv task).1 ∧
    (t.handle task).tracker.postRecvQueue
      = t.postRecvQueue.drop (consumed (deliver released t.postRecvQueue)) ∧
    (t.handle task).tracker.merge.recv
      = released.drop (deliver released t.postRecvQueue).length ∧
    ((t.handle task).crashed = none
      ↔ (deliver released t.postRecvQueue).length = released.length) := by
  cases task with
  | register qpn event =>
    cases event with
    | send e => simp [handle, append, recvStep, deliver, consumed, hm]
    | recv e => simp [handle, append, recvStep, deliver, consumed, hm]
    | postRecv x => exact absurd trivial hp
  | ackSend qpn b =>
    obtain ⟨-, hr, hpost, hmr⟩ := (t.ackSend b).pollSends_frame
    rw [t.ackSend_eq qpn b] at hr hpost hmr
    simp only [handle, recvStep, deliver, consumed, List.filter_nil, List.countP_nil,
      List.drop_zero, List.length_nil, t.ackSend_eq qpn b]
    exact ⟨trivial, hr, hpost, hmr.trans hm, trivial⟩
  | ackRecv qpn b =>
    obtain ⟨-, hr, hpost, hmr⟩ := (t.ackRecv b).pollSends_frame
    rw [t.ackRecv_eq qpn b] at hr hpost hmr
    simp only [hm, List.nil_append] at hr hpost hmr
    have hne : ∀ e ∈ (t.ackRecv b).pollSends.state.merge.recv, e.op ≠ .readResp := by
      rw [t.ackRecv_eq qpn b]
      simp only [hm, List.nil_append, hmr]
      intro e he
      simpa using (List.mem_filter.mp he).2
    obtain ⟨msg, hpoll, hmsg⟩ := (t.ackRecv b).pollSends.state.pollRecvs_spec hne
    rw [t.ackRecv_eq qpn b] at hpoll hmsg
    simp only [hm, List.nil_append, hmr, hpost] at hpoll hmsg
    simp only [handle, t.ackRecv_eq qpn b, hm, List.nil_append, hpoll]
    exact ⟨trivial, hr, trivial, trivial, hmsg⟩

/-- The loop over the receive completions touches only the posted receives and the receive side of
the merge queue. -/
lemma pollRecvs_frame (t : QueuePairMessageTracker) :
    t.pollRecvs.state.send = t.send ∧ t.pollRecvs.state.recv = t.recv ∧
      t.pollRecvs.state.merge.send = t.merge.send ∧
      t.pollRecvs.state.merge.recvReadResp = t.merge.recvReadResp := by
  have hturn : ∀ (t : QueuePairMessageTracker) a t', t.pollRecvCompletion = .item a t' →
      (t'.send = t.send ∧ t'.recv = t.recv ∧ t'.merge.send = t.merge.send ∧
        t'.merge.recvReadResp = t.merge.recvReadResp) ∧
      t'.merge.recv.length < t.merge.recv.length := by
    intro t a t' h
    cases hr : t.merge.recv with
    | nil => simp [pollRecvCompletion, MergeQueue.popRecv, hr] at h
    | cons e rest =>
      cases hop : e.op <;> cases hq : t.postRecvQueue <;>
        simp only [pollRecvCompletion, MergeQueue.popRecv, hr, hop, hq, Turn.item.injEq,
          reduceCtorEq] at h <;> obtain ⟨-, rfl⟩ := h <;> simp
  refine drain_rule (μ := fun t => t.merge.recv.length)
    (P := fun t r => r.state.send = t.send ∧ r.state.recv = t.recv ∧
      r.state.merge.send = t.merge.send ∧ r.state.merge.recvReadResp = t.merge.recvReadResp)
    (fun t a t' h => (hturn t a t' h).2) ?_ ?_ ?_ _ t (Nat.lt_succ_self _)
  · exact fun t _ => ⟨rfl, rfl, rfl, rfl⟩
  · exact fun t _ _ => ⟨rfl, rfl, rfl, rfl⟩
  · rintro t a t' r h ⟨h1, h2, h3, h4⟩
    obtain ⟨⟨g1, g2, g3, g4⟩, -⟩ := hturn t a t' h
    exact ⟨h1.trans g1, h2.trans g2, h3.trans g3, h4.trans g4⟩

/-- **The send side of one task.**  The events it releases queue up behind those already waiting,
and a first part of that queue completes, each READ in it taking one response. -/
theorem handle_sends (t : QueuePairMessageTracker) (task : CompletionTask) :
    ∃ done waiting used left,
      t.merge.send ++ (sendStep t.send task).2 = done ++ waiting ∧
      t.merge.recvReadResp ++ (recvStep t.recv task).2.filter (fun e => e.op = .readResp)
        = used ++ left ∧
      used.length = readCount done ∧
      (t.handle task).sends = done.map (fun e => (e, e.completion)) ∧
      (t.handle task).tracker.merge.send = waiting ∧
      (t.handle task).tracker.merge.recvReadResp = left ∧
      (t.handle task).tracker.send = (sendStep t.send task).1 ∧
      (t.handle task).tracker.recv = (recvStep t.recv task).1 := by
  cases task with
  | register qpn event =>
    refine ⟨[], t.merge.send, [], t.merge.recvReadResp, ?_⟩
    cases event <;> simp [handle, append, sendStep, recvStep, readCount]
  | ackSend qpn b =>
    obtain ⟨done, waiting, used, left, hs, hr, hlen, hpoll, -⟩ := (t.ackSend b).pollSends_spec
    rw [t.ackSend_eq qpn b] at hs hr hpoll
    refine ⟨done, waiting, used, left, hs, ?_, hlen, ?_⟩
    · simpa [recvStep] using hr
    · simp only [handle, t.ackSend_eq qpn b, hpoll, recvStep, and_self]
  | ackRecv qpn b =>
    obtain ⟨done, waiting, used, left, hs, hr, hlen, hpoll, -⟩ := (t.ackRecv b).pollSends_spec
    rw [t.ackRecv_eq qpn b] at hs hr hpoll
    obtain ⟨f1, f2, f3, f4⟩ := (t.ackRecv b).pollSends.state.pollRecvs_frame
    rw [t.ackRecv_eq qpn b, hpoll] at f1 f2 f3 f4
    refine ⟨done, waiting, used, left, ?_, hr, hlen, ?_⟩
    · simpa [sendStep] using hs
    · simp only [handle, t.ackRecv_eq qpn b, hpoll, sendStep]
      exact ⟨trivial, f3, f4, f1, f2⟩

/-- What the two loops poll are completions of their own sides. -/
lemma handle_isSend (t : QueuePairMessageTracker) (task : CompletionTask) :
    (∀ p ∈ (t.handle task).sends, p.2.isSend = true) ∧
      ∀ p ∈ (t.handle task).recvs, ∀ c ∈ p.2, c.isSend = false := by
  have hsend : ∀ t : QueuePairMessageTracker, ∀ p ∈ t.pollSends.items, p.2.isSend = true := by
    refine fun t => drain_items (fun t p t' h => ?_) _ t
    cases hpop : t.merge.popSend with
    | none => simp [pollSendCompletion, hpop] at h
    | some x =>
      simp only [pollSendCompletion, hpop, Turn.item.injEq] at h
      rw [← h.1, SendEvent.completion]
      cases x.1.op <;> rfl
  have hrecv : ∀ t : QueuePairMessageTracker, ∀ p ∈ t.pollRecvs.items, ∀ c ∈ p.2,
      c.isSend = false := by
    refine fun t => drain_items (fun t p t' h => ?_) _ t
    cases hr : t.merge.recv with
    | nil => simp [pollRecvCompletion, MergeQueue.popRecv, hr] at h
    | cons e rest =>
      cases hop : e.op <;> cases hq : t.postRecvQueue <;>
        simp only [pollRecvCompletion, MergeQueue.popRecv, hr, hop, hq, Turn.item.injEq,
          reduceCtorEq] at h <;> obtain ⟨rfl, -⟩ := h <;>
        simp [RecvEventOp.completion, Completion.isSend]
  cases task with
  | register qpn event => simp [handle]
  | ackSend qpn b => exact ⟨hsend _, by simp [handle]⟩
  | ackRecv qpn b => exact ⟨hsend _, hrecv _⟩

/-- The receive side's reorder buffer after a run. -/
lemma runTasks_recv
    (h : t.AliveBefore tasks) : (t.runTasks tasks).tracker.recv = (recvRun t.recv tasks).1 := by
  induction tasks using List.reverseRecOn with
  | nil => rfl
  | append_singleton tasks task ih =>
    obtain ⟨hbefore, hcr⟩ := aliveBefore_append.mp h
    obtain ⟨-, -, -, -, -, -, -, -, -, -, -, hrecv⟩ := (t.runTasks tasks).tracker.handle_sends task
    simp only [runTasks_append, Polled.step, hcr, Option.isSome_none, Bool.false_eq_true, if_false,
      recvRun_append, hrecv, ih hbefore]

/-! ### Pairing with the posted receives -/

section Deliver

variable {e : RecvEvent} {es fs : List RecvEvent} {posts : List PostRecvEvent}

lemma deliver_cons_none (h : e.op.completion = none) :
    deliver (e :: es) posts = (e, none) :: deliver es posts := by
  simp only [deliver, h]

lemma deliver_cons_some {c : UInt64 → Completion} {x : PostRecvEvent}
    (h : e.op.completion = some c) :
    deliver (e :: es) (x :: posts) = (e, some (c x.wrId)) :: deliver es posts := by
  simp only [deliver, h]

lemma deliver_cons_stuck {c : UInt64 → Completion} (h : e.op.completion = some c) :
    deliver (e :: es) [] = [] := by
  simp only [deliver, h]

/-- Induction along a pairing: a message that consumes nothing, one that takes the next receive, and
one that finds none. -/
lemma deliver_induction {P : List RecvEvent → List PostRecvEvent → Prop} (nil : ∀ posts, P [] posts)
    (skip : ∀ e es posts, e.op.completion = none → P es posts → P (e :: es) posts)
    (take : ∀ e es x posts c, e.op.completion = some c → P es posts → P (e :: es) (x :: posts))
    (stuck : ∀ e es c, e.op.completion = some c → P (e :: es) []) (es : List RecvEvent)
    (posts : List PostRecvEvent) : P es posts := by
  induction es generalizing posts with
  | nil => exact nil posts
  | cons e es ih =>
    cases hc : e.op.completion with
    | none => exact skip e es posts hc (ih posts)
    | some c =>
      cases posts with
      | nil => exact stuck e es c hc
      | cons x posts => exact take e es x posts c hc (ih posts)

lemma deliver_length_le (es : List RecvEvent) (posts : List PostRecvEvent) :
    (deliver es posts).length ≤ es.length := by
  induction es, posts using deliver_induction with
  | nil posts => simp [deliver]
  | skip e es posts hc ih => simpa [deliver_cons_none hc] using ih
  | take e es x posts c hc ih => simpa [deliver_cons_some hc] using ih
  | stuck e es c hc => simp [deliver_cons_stuck hc]

/-- A pairing that is not stuck goes on with what it has left. -/
lemma deliver_append (h : (deliver es posts).length = es.length) :
    deliver (es ++ fs) posts
      = deliver es posts ++ deliver fs (posts.drop (consumed (deliver es posts))) := by
  induction es, posts using deliver_induction with
  | nil posts => simp [deliver, consumed]
  | skip e es posts hc ih =>
    rw [deliver_cons_none hc, List.length_cons, List.length_cons, Nat.add_right_cancel_iff] at h
    simp [deliver_cons_none hc, ih h, consumed]
  | take e es x posts c hc ih =>
    rw [deliver_cons_some hc, List.length_cons, List.length_cons, Nat.add_right_cancel_iff] at h
    simp [deliver_cons_some hc, ih h, consumed]
  | stuck e es c hc => simp [deliver_cons_stuck hc] at h

/-- A stuck pairing stays stuck. -/
lemma deliver_append_of_lt (h : (deliver es posts).length < es.length) :
    deliver (es ++ fs) posts = deliver es posts := by
  induction es, posts using deliver_induction with
  | nil posts => simp at h
  | skip e es posts hc ih =>
    rw [deliver_cons_none hc, List.length_cons, List.length_cons] at h
    rw [List.cons_append, deliver_cons_none hc, deliver_cons_none hc, ih (by omega)]
  | take e es x posts c hc ih =>
    rw [deliver_cons_some hc, List.length_cons, List.length_cons] at h
    rw [List.cons_append, deliver_cons_some hc, deliver_cons_some hc, ih (by omega)]
  | stuck e es c hc => rw [List.cons_append, deliver_cons_stuck hc, deliver_cons_stuck hc]

/-- The messages of a pairing are the first ones, in order. -/
lemma deliver_events (es : List RecvEvent) (posts : List PostRecvEvent) :
    (deliver es posts).map Prod.fst <+: es := by
  induction es, posts using deliver_induction with
  | nil posts => simp [deliver]
  | skip e es posts hc ih => simpa [deliver_cons_none hc] using ih
  | take e es x posts c hc ih => simpa [deliver_cons_some hc] using ih
  | stuck e es c hc => simp [deliver_cons_stuck hc]

/-- **The `k`-th completion carries the work request id of the `k`-th posted receive.** -/
lemma deliver_wrIds (es : List RecvEvent) (posts : List PostRecvEvent) :
    ((deliver es posts).filterMap Prod.snd).map Completion.wrId
      = (posts.take (consumed (deliver es posts))).map PostRecvEvent.wrId := by
  induction es, posts using deliver_induction with
  | nil posts => simp [deliver, consumed]
  | skip e es posts hc ih => simpa [deliver_cons_none hc, consumed] using ih
  | take e es x posts c hc ih =>
    have hw : (c x.wrId).wrId = x.wrId := by
      cases hop : e.op <;> simp only [hop, RecvEventOp.completion, Option.some.injEq,
        reduceCtorEq] at hc <;> rw [← hc] <;> rfl
    simpa [deliver_cons_some hc, consumed, hw] using ih
  | stuck e es c hc => simp [deliver_cons_stuck hc, consumed]

/-- What is polled is a completion exactly for the messages that consume a receive. -/
lemma deliver_isSome {p : RecvEvent × Option Completion} (h : p ∈ deliver es posts) :
    p.2.isSome = p.1.op.completion.isSome := by
  induction es, posts using deliver_induction with
  | nil posts => exact absurd h List.not_mem_nil
  | skip e es posts hc ih =>
    rw [deliver_cons_none hc] at h
    rcases List.mem_cons.mp h with rfl | h
    · rw [hc]; rfl
    · exact ih h
  | take e es x posts c hc ih =>
    rw [deliver_cons_some hc] at h
    rcases List.mem_cons.mp h with rfl | h
    · rw [hc]; rfl
    · exact ih h
  | stuck e es c hc =>
    rw [deliver_cons_stuck hc] at h
    exact absurd h List.not_mem_nil

/-- With enough posted receives the pairing is never stuck. -/
lemma deliver_length_of_le (h : es.countP (fun e => e.op.completion.isSome) ≤ posts.length) :
    (deliver es posts).length = es.length := by
  induction es, posts using deliver_induction with
  | nil posts => simp [deliver]
  | skip e es posts hc ih => simpa [deliver_cons_none hc] using ih (by simpa [hc] using h)
  | take e es x posts c hc ih => simpa [deliver_cons_some hc] using ih (by simpa [hc] using h)
  | stuck e es c hc => simp [hc] at h

end Deliver

/-! ### What a run polls -/

/-- The messages a run releases to the receive side of the merge queue. -/
def releasedRecvs (r : MessageTracker RecvEvent) (tasks : List CompletionTask) : List RecvEvent :=
  (recvRun r tasks).2.filter (fun e => e.op ≠ .readResp)

/-- **A run polls the released messages, paired with the posted receives.**  It crashes exactly when
that pairing gets stuck. -/
theorem runTasks_recvs (hm : t.merge.recv = []) (hp : ∀ task ∈ tasks, ¬ IsPostRecv task) :
    (t.runTasks tasks).recvs = deliver (releasedRecvs t.recv tasks) t.postRecvQueue ∧
    ((t.runTasks tasks).crashed = none ↔
      (t.runTasks tasks).recvs.length = (releasedRecvs t.recv tasks).length) ∧
    ((t.runTasks tasks).crashed = none →
      (t.runTasks tasks).tracker.recv = (recvRun t.recv tasks).1 ∧
      (t.runTasks tasks).tracker.merge.recv = [] ∧
      (t.runTasks tasks).tracker.postRecvQueue
        = t.postRecvQueue.drop (consumed (t.runTasks tasks).recvs)) := by
  induction tasks using List.reverseRecOn with
  | nil => simp [releasedRecvs, recvRun, deliver, hm, consumed]
  | append_singleton tasks task ih =>
    obtain ⟨hrecvs, hcrash, hstate⟩ := ih (fun a ha => hp a (List.mem_append_left _ ha))
    have hrel : releasedRecvs t.recv (tasks ++ [task]) = releasedRecvs t.recv tasks
        ++ (recvStep (recvRun t.recv tasks).1 task).2.filter (fun e => e.op ≠ .readResp) := by
      simp only [releasedRecvs, recvRun_append, List.filter_append]
    rw [runTasks_append, Polled.step, hrel]
    by_cases hc : (t.runTasks tasks).crashed = none
    · -- the run is alive: everything released so far has been paired
      obtain ⟨htr, hmr, hpost⟩ := hstate hc
      have hfull := hcrash.mp hc
      rw [hrecvs] at hfull
      obtain ⟨h1, h2, h3, h4, h5⟩ :=
        handle_recvs hmr task (hp task (List.mem_append_right _ (List.mem_singleton_self _)))
      rw [htr, hpost, hrecvs] at h1 h3 h4 h5
      rw [htr] at h2
      simp only [hc, Option.isSome_none, Bool.false_eq_true, if_false]
      rw [deliver_append hfull, h1, hrecvs]
      refine ⟨rfl, ?_, fun hnone => ⟨?_, ?_, ?_⟩⟩
      · rw [h5, List.length_append, List.length_append, hfull]
        omega
      · rw [h2, recvRun_append]
      · rw [h4, h5.mp hnone, List.drop_length]
      · rw [h3, List.drop_drop, consumed, consumed, consumed, List.countP_append]
    · -- the run is over: the pairing is stuck, and more messages do not help
      have hlt : (deliver (releasedRecvs t.recv tasks) t.postRecvQueue).length
          < (releasedRecvs t.recv tasks).length := by
        refine lt_of_le_of_ne (deliver_length_le _ _) (fun heq => hc (hcrash.mpr ?_))
        rw [hrecvs, heq]
      have hsome : (t.runTasks tasks).crashed.isSome = true := Option.isSome_iff_ne_none.mpr hc
      rw [if_pos hsome, deliver_append_of_lt hlt, List.length_append]
      refine ⟨hrecvs, ⟨fun h => absurd h hc, fun h => ?_⟩, fun h => absurd h hc⟩
      rw [hrecvs] at h
      omega

end QueuePairMessageTracker

/-! ## The worker -/

/-- A run of the worker: its state, and every task with what processing it did. -/
structure WorkerRun where
  worker : CompletionWorker
  log : List (CompletionTask × Processed)

namespace CompletionWorker

/-- Process tasks in order, each with the queue pair attributes at its moment. -/
def run (w : CompletionWorker) (steps : List (QpTable QpAttr × CompletionTask)) : WorkerRun :=
  steps.foldl (fun acc s => ⟨(acc.worker.process s.1 s.2).worker,
    acc.log ++ [(s.2, acc.worker.process s.1 s.2)]⟩) ⟨w, []⟩

end CompletionWorker

/-- Whether a task is for the queue pair `qpn`. -/
def onQp (qpn : UInt32) (task : CompletionTask) : Bool := qpnToIndex task.qpn == qpnToIndex qpn

namespace WorkerRun

/-- The send completions polled for a queue pair. -/
def sendsOn (r : WorkerRun) (qpn : UInt32) : List (SendEvent × Completion) :=
  (r.log.filter (fun p => onQp qpn p.1)).flatMap (fun p => p.2.sends)

/-- The receive completions polled for a queue pair. -/
def recvsOn (r : WorkerRun) (qpn : UInt32) : List (RecvEvent × Option Completion) :=
  (r.log.filter (fun p => onQp qpn p.1)).flatMap (fun p => p.2.recvs)

/-- The completions pushed for a queue pair, each with the handle of its completion queue. -/
def pushes (r : WorkerRun) (qpn : UInt32) : List (UInt32 × Completion) :=
  (r.log.filter (fun p => onQp qpn p.1)).flatMap (fun p => Output.cqPushes p.2.outs)

/-- A run with one more task. -/
def step (r : WorkerRun) (attrs : QpTable QpAttr) (task : CompletionTask) : WorkerRun :=
  ⟨(r.worker.process attrs task).worker, r.log ++ [(task, r.worker.process attrs task)]⟩

lemma sendsOn_step (r : WorkerRun) (attrs : QpTable QpAttr) (task : CompletionTask) (qpn : UInt32) :
    (r.step attrs task).sendsOn qpn
      = r.sendsOn qpn ++ if onQp qpn task then (r.worker.process attrs task).sends else [] := by
  cases h : onQp qpn task <;> simp [step, sendsOn, List.filter_append, h]

lemma recvsOn_step (r : WorkerRun) (attrs : QpTable QpAttr) (task : CompletionTask) (qpn : UInt32) :
    (r.step attrs task).recvsOn qpn
      = r.recvsOn qpn ++ if onQp qpn task then (r.worker.process attrs task).recvs else [] := by
  cases h : onQp qpn task <;> simp [step, recvsOn, List.filter_append, h]

lemma pushes_step (r : WorkerRun) (attrs : QpTable QpAttr) (task : CompletionTask) (qpn : UInt32) :
    (r.step attrs task).pushes qpn = r.pushes qpn
      ++ if onQp qpn task then Output.cqPushes (r.worker.process attrs task).outs else [] := by
  cases h : onQp qpn task <;> simp [step, pushes, List.filter_append, h]

end WorkerRun

/-- The completion queue the attributes of a queue pair name for a completion. -/
def QpAttr.cqOf (attr : QpAttr) (c : Completion) : Option UInt32 :=
  if c.isSend then attr.sendCq else attr.recvCq

namespace CompletionWorker

open QueuePairMessageTracker

lemma run_append (w : CompletionWorker) (steps : List (QpTable QpAttr × CompletionTask))
    (s : QpTable QpAttr × CompletionTask) : w.run (steps ++ [s]) = (w.run steps).step s.1 s.2 := by
  simp [run, WorkerRun.step, List.foldl_append]

/-- What processing a task can do: nothing, because the worker is or gets killed by a panic before
it starts; or what the tracker of the task's queue pair does. -/
lemma process_cases (w : CompletionWorker) (attrs : QpTable QpAttr) (task : CompletionTask) :
    ((w.process attrs task).sends = [] ∧ (w.process attrs task).recvs = [] ∧
      (w.process attrs task).outs = [] ∧ (w.process attrs task).worker.panicked.isSome) ∨
    ∃ t cqs attr, w.panicked = none ∧ w.trackerTable.getQp task.qpn = some t ∧
      attrs.getQp task.qpn = some attr ∧ lookupCqs attr task = .ok cqs ∧
      (w.process attrs task).sends = (t.handle task).sends ∧
      (w.process attrs task).recvs = (t.handle task).recvs ∧
      (w.process attrs task).outs = (t.handle task).sends.flatMap (sendOutputs task.qpn cqs.1)
        ++ (t.handle task).recvs.flatMap (recvOutputs task.qpn cqs.2) ∧
      (w.process attrs task).worker
        = ⟨w.trackerTable.setQp task.qpn (t.handle task).tracker, (t.handle task).crashed⟩ := by
  unfold process
  by_cases hp : w.panicked.isSome
  · rw [if_pos hp]
    exact .inl ⟨rfl, rfl, rfl, hp⟩
  · rw [if_neg hp]
    have hnone : w.panicked = none := by simpa using hp
    cases ht : w.trackerTable.getQp task.qpn with
    | none => exact .inl ⟨rfl, rfl, rfl, rfl⟩
    | some t =>
      cases ha : attrs.getQp task.qpn with
      | none => exact .inl ⟨rfl, rfl, rfl, rfl⟩
      | some attr =>
        cases hc : lookupCqs attr task with
        | error msg => simp only [hc]; exact .inl ⟨trivial, trivial, trivial, rfl⟩
        | ok cqs => exact .inr ⟨t, cqs, attr, hnone, rfl, rfl, hc, by simp [hc]⟩

/-- **A run, seen by one queue pair.**  What the worker polls for a queue pair is what its tracker
polls over a first part of the tasks of that queue pair, the one before the worker panicked: all of
them, unless it did. -/
theorem run_project {w : CompletionWorker} {qpn : UInt32} {t : QueuePairMessageTracker}
    (ht : w.trackerTable.getQp qpn = some t) (steps : List (QpTable QpAttr × CompletionTask)) :
    ∃ tasks, tasks <+: (steps.map Prod.snd).filter (onQp qpn) ∧ t.AliveBefore tasks ∧
      (w.run steps).sendsOn qpn = (t.runTasks tasks).sends ∧
      (w.run steps).recvsOn qpn = (t.runTasks tasks).recvs ∧
      ((w.run steps).worker.panicked = none →
        tasks = (steps.map Prod.snd).filter (onQp qpn) ∧
        (w.run steps).worker.trackerTable.getQp qpn = some (t.runTasks tasks).tracker ∧
        (t.runTasks tasks).crashed = none) := by
  induction steps using List.reverseRecOn with
  | nil => exact ⟨[], List.nil_prefix, t.aliveBefore_nil, rfl, rfl, fun _ => ⟨rfl, ht, rfl⟩⟩
  | append_singleton steps s ih =>
    obtain ⟨tasks, hpre, hbefore, hsends, hrecvs, halive⟩ := ih
    rw [run_append, WorkerRun.sendsOn_step, WorkerRun.recvsOn_step, List.map_append,
      List.filter_append, WorkerRun.step]
    rcases (w.run steps).worker.process_cases s.1 s.2 with
      ⟨hs, hr, -, hdead⟩ | ⟨t', cqs, attr, hnone, ht', -, -, hs, hr, -, hw'⟩
    · refine ⟨tasks, hpre.trans (List.prefix_append _ _), hbefore, ?_, ?_, fun h => ?_⟩
      · rw [hs, hsends]; simp
      · rw [hr, hrecvs]; simp
      · rw [h] at hdead; exact absurd hdead (by simp)
    · obtain ⟨htasks, htr, hcr⟩ := halive hnone
      rw [hs, hr, hw']
      by_cases hq : onQp qpn s.2
      · -- the task is this queue pair's: its tracker takes the same step
        have hidx : qpnToIndex s.2.qpn = qpnToIndex qpn := by simpa [onQp] using hq
        have hsame : (w.run steps).worker.trackerTable.getQp s.2.qpn
            = (w.run steps).worker.trackerTable.getQp qpn := by
          simp only [QpTable.getQp, hidx]
        obtain rfl : t' = (t.runTasks tasks).tracker := by
          rw [hsame, htr] at ht'
          exact (Option.some.inj ht').symm
        have hstep : t.runTasks (tasks ++ [s.2]) = (t.runTasks tasks).step s.2 :=
          t.runTasks_append tasks s.2
        simp only [Polled.step, hcr, Option.isSome_none,
          Bool.false_eq_true, if_false] at hstep
        refine ⟨tasks ++ [s.2], ?_, aliveBefore_append.mpr ⟨hbefore, hcr⟩, ?_, ?_,
          fun h => ⟨?_, ?_, ?_⟩⟩
        · rw [htasks]; simp [hq]
        · simp only [hq, if_true, hsends, hstep]
        · simp only [hq, if_true, hrecvs, hstep]
        · rw [htasks]; simp [hq]
        · rw [hstep, QpTable.getQp_setQp, if_pos]
          refine ⟨hidx.symm, ?_⟩
          by_contra hlt
          simp [QpTable.getQp, hlt] at ht'
        · rw [hstep]; exact h
      · -- another queue pair's task leaves this tracker alone
        have hidx : qpnToIndex qpn ≠ qpnToIndex s.2.qpn := by
          intro h; exact hq (by simp [onQp, h])
        refine ⟨tasks, hpre.trans (List.prefix_append _ _), hbefore, ?_, ?_,
          fun h => ⟨?_, ?_, ?_⟩⟩
        · simp [hq, hsends]
        · simp [hq, hrecvs]
        · rw [htasks]; simp [hq]
        · rw [QpTable.getQp_setQp_ne _ hidx, htr]
        · exact hcr

/-- A run over the tasks of one queue pair whose CQ lookups succeed is the run of its tracker. -/
theorem run_single {w : CompletionWorker} {qpn : UInt32} {t : QueuePairMessageTracker}
    (hw : w.panicked = none) (ht : w.trackerTable.getQp qpn = some t)
    {steps : List (QpTable QpAttr × CompletionTask)} (hqp : ∀ s ∈ steps, s.2.qpn = qpn)
    (hcq : ∀ s ∈ steps, ∃ attr cqs, s.1.getQp qpn = some attr ∧ lookupCqs attr s.2 = .ok cqs) :
    (w.run steps).sendsOn qpn = (t.runTasks (steps.map Prod.snd)).sends ∧
    (w.run steps).recvsOn qpn = (t.runTasks (steps.map Prod.snd)).recvs ∧
    (w.run steps).worker.panicked = (t.runTasks (steps.map Prod.snd)).crashed ∧
    (w.run steps).worker.trackerTable.getQp qpn
      = some (t.runTasks (steps.map Prod.snd)).tracker := by
  induction steps using List.reverseRecOn with
  | nil => exact ⟨rfl, rfl, hw, ht⟩
  | append_singleton steps s ih =>
    obtain ⟨hsends, hrecvs, hpan, htr⟩ := ih (fun a ha => hqp a (List.mem_append_left _ ha))
      (fun a ha => hcq a (List.mem_append_left _ ha))
    have hq := hqp s (List.mem_append_right _ (List.mem_singleton_self _))
    obtain ⟨attr, cqs, hattr, hlook⟩ := hcq s (List.mem_append_right _ (List.mem_singleton_self _))
    have hon : onQp qpn s.2 = true := by simp [onQp, hq]
    rw [run_append, WorkerRun.sendsOn_step, WorkerRun.recvsOn_step, List.map_append,
      List.map_singleton, runTasks_append, WorkerRun.step, if_pos hon, if_pos hon, hsends, hrecvs,
      Polled.step]
    cases hcr : (t.runTasks (steps.map Prod.snd)).crashed with
    | none =>
      simp only [process, hpan, hcr, hq, htr, hattr, hlook]
      simp [QpTable.getQp_setQp_self htr]
    | some msg =>
      simp only [process, hpan, hcr]
      simp [hcr, htr, hpan]

/-! ## What is pushed -/

lemma expect_eq_ok {α : Type} {x : Option α} {msg : String} {a : α} :
    expect x msg = .ok a ↔ x = some a := by
  cases x <;> simp [expect]

lemma getCq_eq_some {handle cq : UInt32} (h : getCq handle = some cq) : handle = cq := by
  rw [getCq, Option.ite_none_right_eq_some] at h
  exact Option.some.inj h.2

/-- The queues a successful lookup finds are those the attributes name, for the sides the task
polls. -/
lemma sendCq_of_lookupCqs {attr : QpAttr} {task : CompletionTask} {cqs : UInt32 × UInt32}
    (h : lookupCqs attr task = .ok cqs) (t : QueuePairMessageTracker) :
    ((t.handle task).sends ≠ [] → attr.sendCq = some cqs.1) ∧
      ((t.handle task).recvs ≠ [] → attr.recvCq = some cqs.2) := by
  cases task with
  | register qpn event => simp [handle]
  | ackSend qpn b =>
    obtain ⟨s, hs, h⟩ := Checked.bind_eq_ok h
    obtain ⟨cq, hcq, h⟩ := Checked.bind_eq_ok h
    obtain rfl : (cq, 0) = cqs := Except.ok.inj h
    obtain rfl := getCq_eq_some (expect_eq_ok.mp hcq)
    exact ⟨fun _ => expect_eq_ok.mp hs, by simp [handle]⟩
  | ackRecv qpn b =>
    obtain ⟨s, hs, h⟩ := Checked.bind_eq_ok h
    obtain ⟨r, hr, h⟩ := Checked.bind_eq_ok h
    obtain ⟨cq, hcq, h⟩ := Checked.bind_eq_ok h
    obtain ⟨cq', hcq', h⟩ := Checked.bind_eq_ok h
    obtain rfl : (cq, cq') = cqs := Except.ok.inj h
    obtain rfl := getCq_eq_some (expect_eq_ok.mp hcq)
    obtain rfl := getCq_eq_some (expect_eq_ok.mp hcq')
    exact ⟨fun _ => expect_eq_ok.mp hs, fun _ => expect_eq_ok.mp hr⟩

lemma cqPushes_sends (qpn cq : UInt32) (sends : List (SendEvent × Completion)) :
    Output.cqPushes (sends.flatMap (sendOutputs qpn cq)) = sends.map (fun p => (cq, p.2)) := by
  induction sends with
  | nil => rfl
  | cons p sends ih => simpa [sendOutputs, Output.cqPushes] using ih

lemma cqPushes_recvs (qpn cq : UInt32) (recvs : List (RecvEvent × Option Completion)) :
    Output.cqPushes (recvs.flatMap (recvOutputs qpn cq))
      = (recvs.filterMap Prod.snd).map (fun c => (cq, c)) := by
  induction recvs with
  | nil => rfl
  | cons p recvs ih =>
    rw [List.flatMap_cons, Output.cqPushes, List.filterMap_append]
    refine (congrArg _ ih).trans ?_
    obtain ⟨e, _ | c⟩ := p <;> cases hack : e.ackReq <;> simp [recvOutputs, hack]

/-- One task pushes the completions it polls. -/
lemma process_pushes (w : CompletionWorker) (attrs : QpTable QpAttr) (task : CompletionTask) :
    let p := w.process attrs task
    ((Output.cqPushes p.outs).filter (fun q => q.2.isSend)).map Prod.snd = p.sends.map Prod.snd ∧
    ((Output.cqPushes p.outs).filter (fun q => !q.2.isSend)).map Prod.snd
      = p.recvs.filterMap Prod.snd ∧
    ∀ q ∈ Output.cqPushes p.outs, ∃ attr, attrs.getQp task.qpn = some attr ∧
      attr.cqOf q.2 = some q.1 := by
  intro p
  rcases w.process_cases attrs task with
    ⟨hs, hr, ho, -⟩ | ⟨t, cqs, attr, -, -, hattr, hcqs, hs, hr, ho, -⟩
  · simp [p, hs, hr, ho, Output.cqPushes]
  · obtain ⟨hsend, hrecv⟩ := t.handle_isSend task
    obtain ⟨hsendCq, hrecvCq⟩ := sendCq_of_lookupCqs hcqs t
    have houts : Output.cqPushes p.outs = (t.handle task).sends.map (fun q => (cqs.1, q.2))
        ++ ((t.handle task).recvs.filterMap Prod.snd).map (fun c => (cqs.2, c)) := by
      rw [ho, Output.cqPushes, List.filterMap_append]
      exact congrArg₂ _ (cqPushes_sends ..) (cqPushes_recvs ..)
    set sent := (t.handle task).sends.map (fun q => (cqs.1, q.2)) with hsent
    set received := ((t.handle task).recvs.filterMap Prod.snd).map (fun c => (cqs.2, c)) with hrec
    have hsends : ∀ q ∈ sent, q.2.isSend = true ∧ attr.sendCq = some q.1 := by
      intro q hq
      obtain ⟨x, hx, rfl⟩ := List.mem_map.mp hq
      exact ⟨hsend x hx, hsendCq (List.ne_nil_of_mem hx)⟩
    have hrecvs : ∀ q ∈ received, q.2.isSend = false ∧ attr.recvCq = some q.1 := by
      intro q hq
      obtain ⟨c, hc, rfl⟩ := List.mem_map.mp hq
      obtain ⟨x, hx, hxc⟩ := List.mem_filterMap.mp hc
      exact ⟨hrecv x hx c hxc, hrecvCq (List.ne_nil_of_mem hx)⟩
    rw [houts, hs, hr, List.filter_append, List.filter_append]
    refine ⟨?_, ?_, fun q hq => ⟨attr, hattr, ?_⟩⟩
    · rw [List.filter_eq_self.mpr (fun q hq => (hsends q hq).1),
        List.filter_eq_nil_iff.mpr (fun q hq => by simp [(hrecvs q hq).1]), List.append_nil, hsent,
        List.map_map]
      rfl
    · rw [List.filter_eq_nil_iff.mpr (fun q hq => by simp [(hsends q hq).1]),
        List.filter_eq_self.mpr (fun q hq => by simp [(hrecvs q hq).1]), List.nil_append, hrec,
        List.map_map]
      exact List.map_id _
    · rw [QpAttr.cqOf]
      rcases List.mem_append.mp hq with hq | hq
      · rw [(hsends q hq).1, if_pos rfl, (hsends q hq).2]
      · rw [(hrecvs q hq).1, if_neg Bool.false_ne_true, (hrecvs q hq).2]

/-- **What a run pushes for a queue pair** are the completions it polls, each to the queue that the
attributes name for its side at that moment. -/
theorem run_pushes (w : CompletionWorker) (qpn : UInt32)
    (steps : List (QpTable QpAttr × CompletionTask)) :
    (((w.run steps).pushes qpn).filter (fun q => q.2.isSend)).map Prod.snd
      = ((w.run steps).sendsOn qpn).map Prod.snd ∧
    (((w.run steps).pushes qpn).filter (fun q => !q.2.isSend)).map Prod.snd
      = ((w.run steps).recvsOn qpn).filterMap Prod.snd ∧
    ∀ q ∈ (w.run steps).pushes qpn, ∃ s ∈ steps, onQp qpn s.2 ∧
      ∃ attr, s.1.getQp s.2.qpn = some attr ∧ attr.cqOf q.2 = some q.1 := by
  induction steps using List.reverseRecOn with
  | nil => exact ⟨rfl, rfl, by simp [run, WorkerRun.pushes]⟩
  | append_singleton steps s ih =>
    obtain ⟨hsend, hrecv, hcq⟩ := ih
    obtain ⟨hsend', hrecv', hcq'⟩ := (w.run steps).worker.process_pushes s.1 s.2
    rw [run_append, WorkerRun.pushes_step, WorkerRun.sendsOn_step, WorkerRun.recvsOn_step]
    have hbefore : ∀ q ∈ (w.run steps).pushes qpn, ∃ s' ∈ steps ++ [s], onQp qpn s'.2 ∧
        ∃ attr, s'.1.getQp s'.2.qpn = some attr ∧ attr.cqOf q.2 = some q.1 := by
      intro q hq
      obtain ⟨s', hs', h⟩ := hcq q hq
      exact ⟨s', List.mem_append_left _ hs', h⟩
    by_cases hon : onQp qpn s.2
    · simp only [hon, if_true, List.filter_append, List.map_append, List.filterMap_append,
        hsend, hrecv, hsend', hrecv', true_and]
      intro q hq
      rcases List.mem_append.mp hq with hq | hq
      · exact hbefore q hq
      · exact ⟨s, by simp, hon, hcq' q hq⟩
    · simp only [hon, Bool.false_eq_true, if_false, List.append_nil]
      exact ⟨hsend, hrecv, hbefore⟩

end CompletionWorker

end OpenRdma
