import OpenRdma.Workers.CompletionRuns

/-!
# Send completions

Whatever tasks the completion worker gets for a queue pair, its send completions come out in the
order the requests were registered, each once, and none before an acknowledged base has passed the
request's last packet.

The tasks are read against the stream of requests: a `SendStep` is a task together with the position
it is about, and `SendRun` says which sequences can occur — requests registered in MSN order, fewer
than `0x8000` of them outstanding and the bases within half the PSN circle of what is outstanding.
The bases need not be non-decreasing, and the receive-side tasks in between are arbitrary.

* **`sendCompletions_ordered`** — what follows for runs of the worker.
-/

namespace OpenRdma

open QueuePairMessageTracker

/-! ## Tasks with their positions -/

/-- Whether a task is one for the send side: the registration of a request, or an
acknowledgement. -/
def isSendTask : CompletionTask → Bool
  | .register _ (.send _) | .ackSend _ _ => true
  | _ => false

/-- What happens to the requests of a queue pair. -/
inductive SendStep where
  /-- Request number `i` is registered. -/
  | register (qpn : UInt32) (i : ℕ) (e : SendEvent)
  /-- Everything before position `B` is acknowledged. -/
  | ackSend (qpn : UInt32) (B : ℕ)
  | other (task : CompletionTask)

namespace SendStep

def task : SendStep → CompletionTask
  | register qpn _ e => .register qpn (.send e)
  | ackSend qpn B => .ackSend qpn (Psn.ofPos B)
  | other task => task

end SendStep

/-- The requests registered so far, with their numbers. -/
def registered (ss : List SendStep) : List (ℕ × SendEvent) :=
  ss.filterMap fun s => match s with
    | .register _ i e => some (i, e)
    | _ => none

/-- The bases acknowledged so far. -/
def sendBases (ss : List SendStep) : List ℕ :=
  ss.filterMap fun s => match s with
    | .ackSend _ B => some B
    | _ => none

/-- The READ responses that the receive side has released so far. -/
def readResponses (ss : List SendStep) : List RecvEvent :=
  (recvRun default (ss.map SendStep.task)).2.filter (fun e => e.op = .readResp)

/-- The sequences of tasks that can occur, with the number after the last registered request and the
requests no base has passed since they were registered. -/
inductive SendRun (S : MsgStream) : List SendStep → ℕ → List ℕ → Prop
  | nil : SendRun S [] 0 []
  | register {ss : List SendStep} {next : ℕ} {outstanding : List ℕ} {qpn : UInt32} {i : ℕ}
      {e : SendEvent} (h : SendRun S ss next outstanding) (order : next ≤ i)
      (msgMeta : e.msgMeta = S.metaOf i) (window : ∀ j ∈ outstanding, i < j + maxSendWr) :
      SendRun S (ss ++ [.register qpn i e]) (i + 1) (outstanding ++ [i])
  | ackSend {ss : List SendStep} {next : ℕ} {outstanding : List ℕ} {qpn : UInt32} {B : ℕ}
      (h : SendRun S ss next outstanding)
      (window : ∀ j ∈ outstanding, SerialNear maxPsnWindow (S.endPos j) B) :
      SendRun S (ss ++ [.ackSend qpn B]) next
        (outstanding.filter (fun j => !decide (S.endPos j ≤ B)))
  | other {ss : List SendStep} {next : ℕ} {outstanding : List ℕ} {task : CompletionTask}
      (h : SendRun S ss next outstanding) (side : isSendTask task = false) :
      SendRun S (ss ++ [.other task]) next outstanding

variable {outstanding : List ℕ} {S : MsgStream}

/-- A first part of a run is a run. -/
lemma SendRun.take {ss ss' : List SendStep} {next : ℕ} (h : SendRun S ss next outstanding)
    (hp : ss' <+: ss) : ∃ next' outstanding', SendRun S ss' next' outstanding' := by
  induction h with
  | nil =>
    rw [List.prefix_nil.mp hp]
    exact ⟨_, _, .nil⟩
  | register h order msgMeta window ih =>
    rcases List.prefix_concat_iff.mp hp with rfl | hp
    · exact ⟨_, _, .register h order msgMeta window⟩
    · exact ih hp
  | ackSend h window ih =>
    rcases List.prefix_concat_iff.mp hp with rfl | hp
    · exact ⟨_, _, .ackSend h window⟩
    · exact ih hp
  | other h side ih =>
    rcases List.prefix_concat_iff.mp hp with rfl | hp
    · exact ⟨_, _, .other h side⟩
    · exact ih hp

/-- Requests are registered in increasing order of their numbers. -/
lemma SendRun.sorted {ss : List SendStep} {next : ℕ} (h : SendRun S ss next outstanding) :
    (registered ss).Pairwise (fun r r' => r.1 < r'.1) ∧ ∀ r ∈ registered ss, r.1 < next := by
  induction h with
  | nil => simp [registered]
  | @register ss next outstanding qpn i e h order msgMeta window ih =>
    have hreg : registered (ss ++ [.register qpn i e]) = registered ss ++ [(i, e)] := by
      simp [registered, List.filterMap_append]
    rw [hreg, List.pairwise_append]
    refine ⟨⟨ih.1, List.pairwise_singleton _ _, fun r hr r' hr' => ?_⟩, fun r hr => ?_⟩
    · rw [List.mem_singleton.mp hr']
      exact lt_of_lt_of_le (ih.2 r hr) order
    · rcases List.mem_append.mp hr with hr | hr
      · have := ih.2 r hr; omega
      · rw [List.mem_singleton.mp hr]; exact Nat.lt_succ_self i
  | ackSend h window ih => simpa [registered, List.filterMap_append] using ih
  | other h side ih => simpa [registered, List.filterMap_append] using ih

/-! ## The invariant -/

/-- Completed, waiting in the merge queue, still in the reorder buffer: in this order, all that was
registered. -/
structure SendInv (S : MsgStream) (ss : List SendStep) (outstanding : List ℕ) (acc : Polled) where
  done : List (ℕ × SendEvent)
  waiting : List (ℕ × SendEvent)
  queue : KeyedQueue SendEvent
  registered_eq : registered ss = done ++ waiting ++ queue.entries
  sends_eq : acc.sends = done.map (fun r => (r.2, r.2.completion))
  merge_eq : acc.tracker.merge.send = waiting.map Prod.snd
  represents : MessageTracker.Represents S queue acc.tracker.send.inner
  keys_eq : queue.keys = outstanding
  acked : ∀ r ∈ done ++ waiting, ∃ B ∈ sendBases ss, S.endPos r.1 ≤ B
  responses : readCount (done.map Prod.snd) + acc.tracker.merge.recvReadResp.length
    = (readResponses ss).length
  recv_eq : acc.tracker.recv = (recvRun default (ss.map SendStep.task)).1

/-- The state before any task. -/
def SendInv.initial (S : MsgStream) : SendInv S [] [] (runTasks default []) where
  done := []
  waiting := []
  queue := KeyedQueue.empty
  registered_eq := rfl
  sends_eq := rfl
  merge_eq := rfl
  represents := MessageTracker.represents_empty S
  keys_eq := rfl
  acked := by simp
  responses := rfl
  recv_eq := rfl

/-- **One task.**  `new` is what the task registers, `released` what it releases to the merge queue,
and `queue'` what the reorder buffer keeps. -/
lemma SendInv.step {ss : List SendStep} {acc : Polled} (inv : SendInv S ss outstanding acc)
    (alive : acc.crashed = none) (s : SendStep) (new released : List (ℕ × SendEvent))
    {queue' : KeyedQueue SendEvent} (hnew : registered (ss ++ [s]) = registered ss ++ new)
    (hsplit : inv.queue.entries ++ new = released ++ queue'.entries)
    (hrel : (sendStep acc.tracker.send s.task).2 = released.map Prod.snd)
    (hrep : MessageTracker.Represents S queue' (sendStep acc.tracker.send s.task).1.inner)
    (hacked : ∀ r ∈ released, ∃ B ∈ sendBases (ss ++ [s]), S.endPos r.1 ≤ B) :
    Nonempty (SendInv S (ss ++ [s]) queue'.keys (acc.step s.task)) := by
  obtain ⟨done, waiting, used, left, hs, hr, hlen, hsends, hmerge, hresp, hsend, hrecv⟩ :=
    acc.tracker.handle_sends s.task
  -- the completed part of the merge queue, with the request numbers
  rw [inv.merge_eq, hrel, ← List.map_append] at hs
  obtain ⟨doneR, waitingR, hdw, hd, hw⟩ := List.map_eq_append_iff.mp hs
  have hrun : recvRun default ((ss ++ [s]).map SendStep.task)
      = ((recvStep acc.tracker.recv s.task).1, (recvRun default (ss.map SendStep.task)).2
        ++ (recvStep acc.tracker.recv s.task).2) := by
    rw [List.map_append, List.map_singleton, recvRun_append, ← inv.recv_eq]
  have hbases : ∀ B ∈ sendBases ss, B ∈ sendBases (ss ++ [s]) := fun B hB => by
    rw [sendBases, List.filterMap_append]
    exact List.mem_append_left _ hB
  have hstep : acc.step s.task = ⟨(acc.tracker.handle s.task).tracker,
      acc.sends ++ (acc.tracker.handle s.task).sends,
      acc.recvs ++ (acc.tracker.handle s.task).recvs, (acc.tracker.handle s.task).crashed⟩ := by
    simp [Polled.step, alive]
  refine ⟨⟨inv.done ++ doneR, waitingR, queue', ?_, ?_, ?_, ?_, rfl, ?_, ?_, ?_⟩⟩
  · calc registered (ss ++ [s])
        = inv.done ++ inv.waiting ++ (inv.queue.entries ++ new) := by
          rw [hnew, inv.registered_eq, List.append_assoc]
      _ = inv.done ++ (inv.waiting ++ released) ++ queue'.entries := by
          rw [hsplit]; simp only [List.append_assoc]
      _ = inv.done ++ doneR ++ waitingR ++ queue'.entries := by
          rw [hdw]; simp only [List.append_assoc]
  · rw [hstep, List.map_append, inv.sends_eq, hsends, ← hd, List.map_map]
    rfl
  · rw [hstep, hmerge, hw]
  · rw [hstep]
    simpa only [hsend] using hrep
  · intro r hr'
    rw [List.append_assoc, ← hdw, ← List.append_assoc] at hr'
    rcases List.mem_append.mp hr' with hr' | hr'
    · obtain ⟨B, hB, hle⟩ := inv.acked r hr'
      exact ⟨B, hbases B hB, hle⟩
    · exact hacked r hr'
  · have hcount := congrArg List.length hr
    rw [List.length_append, List.length_append, hlen] at hcount
    have hprev := inv.responses
    rw [hstep, hresp, List.map_append, hd, readCount, List.countP_append]
    simp only [readResponses, hrun, List.filter_append, List.length_append] at hprev ⊢
    rw [readCount] at hprev hcount
    omega
  · rw [hstep, hrecv, hrun]

/-- **The invariant holds along every run.** -/
theorem SendRun.inv {ss : List SendStep} {next : ℕ}
    (h : SendRun S ss next outstanding) (halive : AliveBefore default (ss.map SendStep.task)) :
    Nonempty (SendInv S ss outstanding (runTasks default (ss.map SendStep.task))) := by
  induction h with
  | nil => exact ⟨SendInv.initial S⟩
  | @register ss next outstanding qpn i e h order msgMeta window ih =>
    rw [List.map_append, List.map_singleton] at halive ⊢
    obtain ⟨hbefore, hcr⟩ := aliveBefore_append.mp halive
    obtain ⟨inv⟩ := ih hbefore
    have hlt : ∀ j ∈ inv.queue.keys, j < i := by
      intro j hj
      obtain ⟨a, ha⟩ := KeyedQueue.mem_keys.mp hj
      have := h.sorted.2 (j, a) (by rw [inv.registered_eq]; exact List.mem_append_right _ ha)
      exact lt_of_lt_of_le this order
    have hnear : ∀ j ∈ inv.queue.keys, SerialNear (2 ^ 15) j i := by
      intro j hj
      have h1 := hlt j hj
      have h2 := window j (inv.keys_eq ▸ hj)
      simp only [maxSendWr] at h2
      exact ⟨by omega, by omega⟩
    have hins := KeyedQueue.insert_of_lt (a := e) hlt
    have hkeys : (inv.queue.insert i e).keys = outstanding ++ [i] :=
      (KeyedQueue.keys_insert_of_lt hlt).trans (congrArg (· ++ [i]) inv.keys_eq)
    rw [runTasks_append, ← hkeys]
    refine inv.step hcr (.register qpn i e) [(i, e)] [] ?_ hins.symm rfl ?_
      (by simp)
    · simp [registered, List.filterMap_append]
    · exact (MessageTracker.append_represents inv.represents msgMeta hnear).1
  | @ackSend ss next outstanding qpn B h window ih =>
    rw [List.map_append, List.map_singleton] at halive ⊢
    obtain ⟨hbefore, hcr⟩ := aliveBefore_append.mp halive
    obtain ⟨inv⟩ := ih hbefore
    obtain ⟨hitems, hrep, -, -⟩ := MessageTracker.popAll_represents (B := B) inv.represents
      (fun j hj => window j (inv.keys_eq ▸ hj))
    have hkeys : (inv.queue.keep (fun j => !decide (S.endPos j ≤ B))).keys
        = outstanding.filter (fun j => !decide (S.endPos j ≤ B)) :=
      (KeyedQueue.keys_keep _ _).trans (congrArg (List.filter _) inv.keys_eq)
    rw [runTasks_append, ← hkeys]
    refine inv.step hcr (.ackSend qpn B) []
      (inv.queue.keep (fun j => decide (S.endPos j ≤ B))).entries ?_ ?_ hitems hrep ?_
    · simp [registered, List.filterMap_append]
    · rw [List.append_nil]
      exact inv.queue.split_entries (S.downClosed_le B)
    · intro r hr
      refine ⟨B, ?_, by simpa using (KeyedQueue.mem_keep.mp hr).2⟩
      simp [sendBases, List.filterMap_append]
  | @other ss next outstanding task h side ih =>
    rw [List.map_append, List.map_singleton] at halive ⊢
    obtain ⟨hbefore, hcr⟩ := aliveBefore_append.mp halive
    obtain ⟨inv⟩ := ih hbefore
    have hsend : ∀ s, sendStep s task = (s, []) := by
      intro s
      cases task with
      | register qpn event => cases event <;> first | rfl | simp [isSendTask] at side
      | ackSend qpn b => simp [isSendTask] at side
      | ackRecv qpn b => rfl
    rw [runTasks_append, ← inv.keys_eq]
    refine inv.step hcr (.other task) [] [] ?_ (by simp) ?_ ?_ (by simp)
    · simp [registered, List.filterMap_append]
    · simp [SendStep.task, hsend]
    · simpa [SendStep.task, hsend] using inv.represents

/-! ## Runs of the worker -/

/-- **Send completions are ordered, unique and sound.**  After any run of the worker, over the tasks
of any queue pairs, the send completions pushed for a queue pair that started fresh are those of its
first `k` registered requests, in order, each once and to a send queue of its attributes; a base at
or past the end of each has been processed; and there are at most as many READs among them as READ
responses have been released.  A prefix of a run is a run, so all of this holds at the moment each
completion is pushed. -/
theorem sendCompletions_ordered {S : MsgStream} {w : CompletionWorker} {qpn : UInt32}
    (fresh : w.trackerTable.getQp qpn = some default)
    {ss : List SendStep} {next : ℕ} {outstanding : List ℕ} (h : SendRun S ss next outstanding)
    {steps : List (QpTable QpAttr × CompletionTask)}
    (hsteps : (steps.map Prod.snd).filter (onQp qpn) = ss.map SendStep.task) :
    (registered ss).Pairwise (fun r r' => r.1 < r'.1) ∧
    ∃ k, (w.run steps).sendsOn qpn
        = ((registered ss).take k).map (fun r => (r.2, r.2.completion)) ∧
      (((w.run steps).pushes qpn).filter (fun q => q.2.isSend)).map Prod.snd
        = ((registered ss).take k).map (fun r => r.2.completion) ∧
      (∀ q ∈ (w.run steps).pushes qpn, q.2.isSend = true → ∃ s ∈ steps, onQp qpn s.2 ∧
        ∃ attr, s.1.getQp s.2.qpn = some attr ∧ attr.sendCq = some q.1) ∧
      (∀ r ∈ (registered ss).take k, ∃ B ∈ sendBases ss, S.endPos r.1 ≤ B) ∧
      readCount (((registered ss).take k).map Prod.snd) ≤ (readResponses ss).length := by
  refine ⟨h.sorted.1, ?_⟩
  obtain ⟨tasks, hpre, halive, hsends, -, -⟩ := CompletionWorker.run_project fresh steps
  rw [hsteps] at hpre
  -- the part of the run before a panic
  obtain ⟨ss', rest, rfl, rfl⟩ : ∃ ss' rest, ss = ss' ++ rest ∧ tasks = ss'.map SendStep.task := by
    obtain ⟨rest, hrest⟩ := hpre
    obtain ⟨ss', rest', h1, h2, -⟩ := List.map_eq_append_iff.mp hrest.symm
    exact ⟨ss', rest', h1, h2.symm⟩
  obtain ⟨next', outstanding', h'⟩ := h.take (List.prefix_append ss' rest)
  obtain ⟨inv⟩ := h'.inv halive
  have htake : (registered (ss' ++ rest)).take inv.done.length = inv.done := by
    rw [registered, List.filterMap_append]
    show (registered ss' ++ _).take _ = _
    rw [inv.registered_eq, List.append_assoc, List.append_assoc, List.take_left]
  obtain ⟨hpushes, -, hcq⟩ := w.run_pushes qpn steps
  refine ⟨inv.done.length, ?_, ?_, fun q hq hsend => ?_, ?_, ?_⟩
  · rw [htake, hsends, inv.sends_eq]
  · rw [hpushes, htake, hsends, inv.sends_eq, List.map_map]
    rfl
  · obtain ⟨s, hs, hon, attr, hattr, hto⟩ := hcq q hq
    exact ⟨s, hs, hon, attr, hattr, by rwa [QpAttr.cqOf, if_pos hsend] at hto⟩
  · rw [htake]
    intro r hr
    obtain ⟨B, hB, hle⟩ := inv.acked r (List.mem_append_left _ hr)
    refine ⟨B, ?_, hle⟩
    rw [sendBases, List.filterMap_append]
    exact List.mem_append_left _ hB
  · rw [htake]
    have hle := inv.responses
    have hmono : (readResponses ss').length ≤ (readResponses (ss' ++ rest)).length := by
      rw [readResponses, readResponses, List.map_append, recvRun_append_list, List.filter_append]
      exact (List.prefix_append _ _).length_le
    omega

/-- A write and a READ, acknowledged together: the write completes, the READ waits. -/
theorem sendCompletions_ordered_readWaits :
    let write : SendEvent := ⟨0x100, .writeSignaled, (MsgStream.unit 0).metaOf 0, 7⟩
    let read : SendEvent := ⟨0x100, .readSignaled, (MsgStream.unit 0).metaOf 1, 8⟩
    let ss : List SendStep := [.register 0x100 0 write, .register 0x100 1 read, .ackSend 0x100 2]
    let attrs := QpTable.newWith { (default : QpAttr) with sendCq := some 0, recvCq := some 0 }
    let run := (default : CompletionWorker).run (ss.map (fun s => (attrs, s.task)))
    (∃ k, run.sendsOn 0x100 = ((registered ss).take k).map (fun r => (r.2, r.2.completion))) ∧
      run.pushes 0x100 = [(0, .rdmaWrite 7)] := by
  intro write read ss attrs run
  have h₁ : SendRun (MsgStream.unit 0) [.register 0x100 0 write] 1 [0] :=
    .register .nil (by decide) rfl (by decide)
  have h₂ : SendRun (MsgStream.unit 0) [.register 0x100 0 write, .register 0x100 1 read] 2 [0, 1] :=
    .register h₁ (by decide) rfl (by decide)
  have h₃ : SendRun (MsgStream.unit 0) ss 2 [] := .ackSend h₂ (by decide)
  have hss : ((ss.map (fun s => (attrs, s.task))).map Prod.snd).filter (onQp 0x100)
      = ss.map SendStep.task := by decide
  have fresh : (default : CompletionWorker).trackerTable.getQp 0x100 = some default := rfl
  obtain ⟨-, k, hk, -⟩ := sendCompletions_ordered fresh h₃ hss
  exact ⟨⟨k, hk⟩, by decide⟩

end OpenRdma
