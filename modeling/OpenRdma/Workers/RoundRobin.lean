import OpenRdma.Workers.TransmissionOrder

/-!
# Round-robin emission of chunks

The fragmenters of the accepted requests wait in one queue.  A round of `maintainance` takes each of
them out, hands over its next chunk and puts it back at the end; which request a chunk belongs to is
not recorded anywhere.  Here every fragmenter carries the number of its request along, and every
chunk that it yields is logged with that number; without the numbers this is the worker's own run.

* **`round_robin_exact`** — in every run the chunks handed over for a request are the first ones of
  its sequence, every round adds the next one, and nothing is missing once no work is pending.
-/

namespace OpenRdma

/-- The fragmenter that a request with payload is queued with. -/
def SendQueueElem.fragmenter (e : SendQueueElem) : Option IntoIterChunk :=
  (wrChunkFragmenter e.wr e.qpParam e.psn).toOption

/-- The accepted requests with payload: all but the READs. -/
def payloadWrsIn (outs : List Output) : List SendQueueElem :=
  (newWrsIn outs).filter fun e => e.wr.opcode ≠ .rdmaRead

/-- `has_pending_work`. -/
def RdmaWriteWorker.hasPendingWork (w : RdmaWriteWorker) : Bool := !w.pendingFragmenters.isEmpty

/-! ## A round with numbers -/

/-- The loop of `maintainance` over numbered fragmenters. -/
def numberedLoop : ℕ → List (ℕ × IntoIterChunk) → Drained (List (ℕ × IntoIterChunk)) (ℕ × WrChunk)
  | 0, q => ⟨[], q, none⟩
  | n + 1, [] => numberedLoop n []
  | n + 1, (i, it) :: q =>
    match it.next with
    | .done => numberedLoop n q
    | .item chunk it =>
      let r := numberedLoop n (q ++ [(i, it)])
      { r with items := (i, chunk) :: r.items }
    | .crash msg => ⟨[], q, some msg⟩

/-- Without the numbers it is the loop of the worker. -/
lemma numberedLoop_erase (n : ℕ) (q : List (ℕ × IntoIterChunk)) :
    RdmaWriteWorker.maintainLoop n (q.map Prod.snd)
      = ⟨(numberedLoop n q).items.map Prod.snd, (numberedLoop n q).state.map Prod.snd,
        (numberedLoop n q).crashed⟩ := by
  induction n generalizing q with
  | zero => rfl
  | succ n ih =>
    cases q with
    | nil => exact ih []
    | cons p q =>
      obtain ⟨i, it⟩ := p
      rw [List.map_cons, RdmaWriteWorker.maintainLoop, numberedLoop]
      cases it.next with
      | done => exact ih q
      | crash msg => rfl
      | item c it' =>
        have h := ih (q ++ [(i, it')])
        rw [List.map_append, List.map_singleton] at h
        simp only [h, List.map_cons]

/-- What is logged for request `i`. -/
def chunksOf (i : ℕ) (sent : List (ℕ × WrChunk)) : List WrChunk :=
  (sent.filter fun p => p.1 = i).map Prod.snd

/-- What is left of request `i`. -/
def leftOf (i : ℕ) (q : List (ℕ × IntoIterChunk)) : List WrChunk :=
  (q.filter fun p => p.1 = i).flatMap fun p => p.2.collect.items

section Numbered

variable (i : ℕ)

lemma chunksOf_append (a b : List (ℕ × WrChunk)) :
    chunksOf i (a ++ b) = chunksOf i a ++ chunksOf i b := by
  rw [chunksOf, List.filter_append, List.map_append]
  rfl

lemma leftOf_append (a b : List (ℕ × IntoIterChunk)) :
    leftOf i (a ++ b) = leftOf i a ++ leftOf i b := by
  rw [leftOf, List.filter_append, List.flatMap_append]
  rfl

lemma chunksOf_cons (k : ℕ) (c : WrChunk) (l : List (ℕ × WrChunk)) :
    chunksOf i ((k, c) :: l) = (if k = i then [c] else []) ++ chunksOf i l := by
  by_cases h : k = i <;> simp [chunksOf, h]

lemma leftOf_cons (k : ℕ) (it : IntoIterChunk) (q : List (ℕ × IntoIterChunk)) :
    leftOf i ((k, it) :: q) = (if k = i then it.collect.items else []) ++ leftOf i q := by
  by_cases h : k = i <;> simp [leftOf, h]

lemma leftOf_eq_nil {q : List (ℕ × IntoIterChunk)} (h : i ∉ q.map Prod.fst) : leftOf i q = [] := by
  have hnone : q.filter (fun p => p.1 = i) = [] := by
    refine List.filter_eq_nil_iff.mpr fun p hp => ?_
    simp only [decide_eq_true_eq]
    rintro rfl
    exact h (List.mem_map_of_mem hp)
  rw [leftOf, hnone]
  rfl

lemma chunksOf_eq_nil {sent : List (ℕ × WrChunk)} (h : ∀ p ∈ sent, p.1 ≠ i) :
    chunksOf i sent = [] := by
  have hnone : sent.filter (fun p => p.1 = i) = [] :=
    List.filter_eq_nil_iff.mpr fun p hp => by simpa using h p hp
  rw [chunksOf, hnone]
  rfl

end Numbered

variable {q : List (ℕ × IntoIterChunk)}

/-- The numbers of the loop's state and of what it yields are numbers of the queue, and no number
comes to stand twice. -/
lemma numberedLoop_numbers (n : ℕ) (hq : (q.map Prod.fst).Nodup) :
    ((numberedLoop n q).state.map Prod.fst).Nodup ∧
    (∀ k ∈ (numberedLoop n q).state.map Prod.fst, k ∈ q.map Prod.fst) ∧
    ∀ p ∈ (numberedLoop n q).items, p.1 ∈ q.map Prod.fst := by
  induction n generalizing q with
  | zero => exact ⟨hq, fun _ => id, nofun⟩
  | succ n ih =>
    cases q with
    | nil => exact ih hq
    | cons p q =>
      obtain ⟨i, it⟩ := p
      rw [List.map_cons, List.nodup_cons] at hq
      rw [numberedLoop]
      cases it.next with
      | done =>
        obtain ⟨h1, h2, h3⟩ := ih hq.2
        exact ⟨h1, fun k hk => List.mem_cons_of_mem _ (h2 k hk),
          fun p hp => List.mem_cons_of_mem _ (h3 p hp)⟩
      | crash msg => exact ⟨hq.2, fun k hk => List.mem_cons_of_mem _ hk, nofun⟩
      | item c it' =>
        have hperm : ((q ++ [(i, it')]).map Prod.fst).Perm (i :: q.map Prod.fst) := by
          rw [List.map_append]
          exact List.perm_append_comm
        obtain ⟨h1, h2, h3⟩ := ih (hperm.nodup_iff.mpr (List.nodup_cons.mpr hq))
        refine ⟨h1, fun k hk => hperm.mem_iff.mp (h2 k hk), fun p hp => ?_⟩
        rcases List.mem_cons.mp hp with rfl | hp
        · exact List.mem_cons_self
        · exact hperm.mem_iff.mp (h3 p hp)

/-- **A round takes the chunks of each request in order.** -/
lemma numberedLoop_conserves (i n : ℕ) (hq : (q.map Prod.fst).Nodup) :
    chunksOf i (numberedLoop n q).items ++ leftOf i (numberedLoop n q).state = leftOf i q := by
  induction n generalizing q with
  | zero => rfl
  | succ n ih =>
    cases q with
    | nil => exact ih hq
    | cons p q =>
      obtain ⟨k, it⟩ := p
      rw [List.map_cons, List.nodup_cons] at hq
      have hit := it.collect_next
      rw [numberedLoop, leftOf_cons]
      cases hnext : it.next with
      | done =>
        rw [hnext] at hit
        simpa [hit] using ih hq.2
      | crash msg =>
        rw [hnext] at hit
        simp [hit, chunksOf]
      | item c it' =>
        rw [hnext] at hit
        have hperm : ((q ++ [(k, it')]).map Prod.fst).Perm (k :: q.map Prod.fst) := by
          rw [List.map_append]
          exact List.perm_append_comm
        have ih := ih (hperm.nodup_iff.mpr (List.nodup_cons.mpr hq))
        simp only [chunksOf_cons, List.append_assoc, ih, leftOf_append]
        rcases eq_or_ne k i with rfl | hne
        · -- its only entry is at the end of the queue now
          rw [leftOf_eq_nil k hq.1, hit]
          simp [leftOf]
        · simp [leftOf, hne]

/-- **A round in closed form**: one chunk of every fragmenter, in turn. -/
lemma numberedLoop_round (a b : List (ℕ × IntoIterChunk))
    (h : (numberedLoop a.length (a ++ b)).crashed = none) :
    (numberedLoop a.length (a ++ b)).items
      = a.filterMap fun p => p.2.nextChunk.map fun c => (p.1, c) := by
  induction a generalizing b with
  | nil => rfl
  | cons p a ih =>
    obtain ⟨i, it⟩ := p
    rw [List.length_cons, List.cons_append, numberedLoop] at h ⊢
    rw [List.filterMap_cons]
    cases hnext : it.next with
    | done =>
      simp only [hnext] at h
      simp only [IntoIterChunk.nextChunk, hnext, Option.map_none]
      exact ih b h
    | crash msg =>
      simp only [hnext] at h
      exact absurd h (by simp)
    | item c it' =>
      simp only [hnext, List.append_assoc] at h
      simp only [IntoIterChunk.nextChunk, hnext, Option.map_some, List.append_assoc]
      exact congrArg ((i, c) :: ·) (ih (b ++ [(i, it')]) h)

/-- **A round that does not panic takes one chunk of every unfinished request.** -/
lemma numberedLoop_turns (i : ℕ) (hq : (q.map Prod.fst).Nodup)
    (h : (numberedLoop q.length q).crashed = none) :
    chunksOf i (numberedLoop q.length q).items = (leftOf i q).take 1 := by
  have hround := numberedLoop_round q [] (by rwa [List.append_nil])
  rw [List.append_nil] at hround
  rw [hround]
  clear hround h
  induction q with
  | nil => rfl
  | cons p q ih =>
    obtain ⟨k, it⟩ := p
    rw [List.map_cons, List.nodup_cons] at hq
    have ih := ih hq.2
    have hfirst : it.nextChunk.toList = it.collect.items.take 1 := by
      rw [it.collect_next, IntoIterChunk.nextChunk]
      cases it.next <;> simp
    rw [List.filterMap_cons, leftOf_cons]
    rcases eq_or_ne k i with rfl | hne
    · rw [leftOf_eq_nil k hq.1] at ih ⊢
      rw [if_pos rfl, List.append_nil, ← hfirst]
      cases hc : it.nextChunk with
      | none => simpa using ih
      | some c => simpa [chunksOf_cons] using ih
    · rw [if_neg hne, List.nil_append, ← ih]
      cases hc : it.nextChunk with
      | none => simp
      | some c => simp [chunksOf_cons, hne]

/-! ## Runs with numbers -/

/-- The worker, the accepted requests with payload, their fragmenters that are still queued, and the
chunks handed over by rounds; fragmenters and chunks with the number of their request. -/
structure RoundRobin where
  worker : RdmaWriteWorker
  requests : List SendQueueElem
  queue : List (ℕ × IntoIterChunk)
  sent : List (ℕ × WrChunk)

/-- The fragmenters of newly accepted requests, numbered from `n` on. -/
def numberedFragmenters (n : ℕ) (es : List SendQueueElem) : List (ℕ × IntoIterChunk) :=
  (es.zipIdx n).filterMap fun p => p.1.fragmenter.map fun it => (p.2, it)

namespace RoundRobin

def step (t : RoundRobin) : RdmaWriteStep → RoundRobin
  | .process attrs task =>
    let r := t.worker.process attrs task
    { t with
      worker := r.worker
      requests := t.requests ++ payloadWrsIn r.outs
      queue := t.queue ++ numberedFragmenters t.requests.length (payloadWrsIn r.outs) }
  | .maintainance =>
    if t.worker.panicked.isSome then t
    else
      let r := numberedLoop t.queue.length t.queue
      { t with worker := t.worker.maintainance.worker, queue := r.state, sent := t.sent ++ r.items }

def run (w : RdmaWriteWorker) (steps : List RdmaWriteStep) : RoundRobin :=
  steps.foldl step ⟨w, [], [], []⟩

lemma run_append (w : RdmaWriteWorker) (steps : List RdmaWriteStep) (s : RdmaWriteStep) :
    run w (steps ++ [s]) = (run w steps).step s := by
  simp [run, List.foldl_append]

lemma step_worker (t : RoundRobin) (s : RdmaWriteStep) :
    (t.step s).worker = (t.worker.step s).worker := by
  cases s with
  | process attrs task => rfl
  | maintainance =>
    rw [step]
    split
    · next hdead => simp [RdmaWriteWorker.step, RdmaWriteWorker.maintainance, hdead]
    · rfl

/-- The chunks handed over for request `i`, in order. -/
def sentBy (t : RoundRobin) (i : ℕ) : List WrChunk := chunksOf i t.sent

/-- The queue is the worker's, with each request in it at most once; and what has been handed over
for a request and what is left of it make up its sequence. -/
structure Exact (t : RoundRobin) : Prop where
  erases : t.queue.map Prod.snd = t.worker.pendingFragmenters
  nodup : (t.queue.map Prod.fst).Nodup
  known : ∀ k ∈ t.queue.map Prod.fst, k < t.requests.length
  sent : ∀ p ∈ t.sent, p.1 < t.requests.length
  whole : ∀ i e, t.requests[i]? = some e → t.sentBy i ++ leftOf i t.queue = e.descriptors

end RoundRobin

/-- **What processing a task queues**: the fragmenters of the accepted requests with payload; the
chunk of an accepted READ is sent at once. -/
lemma RdmaWriteWorker.process_queues (w : RdmaWriteWorker) (attrs : QpTable QpAttr)
    (task : RdmaWriteTask) :
    (w.process attrs task).worker.pendingFragmenters = w.pendingFragmenters
      ++ (payloadWrsIn (w.process attrs task).outs).filterMap SendQueueElem.fragmenter ∧
    chunksIn (w.process attrs task).outs = ((newWrsIn (w.process attrs task).outs).filter
      fun e => e.wr.opcode = .rdmaRead).map RdmaWriteWorker.readChunk := by
  generalize hr : w.process attrs task = r
  have hproc := hr ▸ w.process_processes attrs task
  cases hproc with
  | nothing | ack | newComplete => exact ⟨(List.append_nil _).symm, rfl⟩
  | @submit q wr numPsn launch supported needed launched =>
    rcases w.submit_cases attrs q wr numPsn (eventOp wr) launch with
      ⟨hw, houts⟩ | ⟨qp, n, ctx, -, -, -, -, ⟨e, -, hsub⟩ | ⟨event, -, hsub⟩⟩
    · rw [hw, houts]
      exact ⟨(List.append_nil _).symm, rfl⟩
    · rw [hsub]
      exact ⟨(List.append_nil _).symm, rfl⟩
    · have hwrs : newWrsIn (submitOuts q event ⟨ctx.psn, wr, qp.params ctx.msn⟩)
          = [⟨ctx.psn, wr, qp.params ctx.msn⟩] := by
        cases event <;> simp [newWrsIn, submitOuts]
      rw [hsub]
      simp only [payloadWrsIn, newWrsIn_append, chunksIn_append, chunksIn_submitOuts, hwrs]
      rcases launched with ⟨hread, rfl⟩ | ⟨hne, rfl⟩
      · simp [launchRead, newWrsIn, chunksIn, hread]
      · simp only [pushFragmenter]
        cases hit : wrChunkFragmenter wr (qp.params ctx.msn) ctx.psn with
        | error msg | ok it =>
          simp [newWrsIn, chunksIn, hne, SendQueueElem.fragmenter, hit, Except.toOption]

lemma SendQueueElem.descriptors_of_payload {e : SendQueueElem} (h : e.wr.opcode ≠ .rdmaRead) :
    e.descriptors = e.fragmenter.toList.flatMap fun it => it.collect.items := by
  rw [descriptors, if_neg h, fragmenter]
  cases wrChunkFragmenter e.wr e.qpParam e.psn <;> simp [Except.toOption]

section Fragmenters

variable (n : ℕ) (e : SendQueueElem) (es : List SendQueueElem)

lemma numberedFragmenters_cons : numberedFragmenters n (e :: es)
    = (e.fragmenter.map fun it => (n, it)).toList ++ numberedFragmenters (n + 1) es := by
  rw [numberedFragmenters, List.zipIdx_cons, List.filterMap_cons]
  cases e.fragmenter <;> rfl

lemma numberedFragmenters_erase :
    (numberedFragmenters n es).map Prod.snd = es.filterMap SendQueueElem.fragmenter := by
  induction es generalizing n with
  | nil => rfl
  | cons e es ih =>
    rw [numberedFragmenters_cons, List.map_append, ih, List.filterMap_cons]
    cases e.fragmenter <;> rfl

lemma numberedFragmenters_numbers :
    ((numberedFragmenters n es).map Prod.fst).Nodup ∧
    ∀ k ∈ (numberedFragmenters n es).map Prod.fst, n ≤ k ∧ k < n + es.length := by
  induction es generalizing n with
  | nil => exact ⟨List.nodup_nil, nofun⟩
  | cons e es ih =>
    obtain ⟨hnodup, hrange⟩ := ih (n + 1)
    rw [numberedFragmenters_cons, List.map_append, List.length_cons]
    cases e.fragmenter with
    | none =>
      refine ⟨hnodup, fun k hk => ?_⟩
      have := hrange k hk
      omega
    | some it =>
      refine ⟨List.nodup_cons.mpr ⟨fun hmem => ?_, hnodup⟩, fun k hk => ?_⟩
      · have := hrange n hmem
        omega
      · rcases List.mem_cons.mp hk with rfl | hk
        · omega
        · have := hrange k hk
          omega

lemma leftOf_numberedFragmenters {j : ℕ} {e : SendQueueElem} (h : es[j]? = some e) :
    leftOf (n + j) (numberedFragmenters n es)
      = e.fragmenter.toList.flatMap fun it => it.collect.items := by
  induction es generalizing n j with
  | nil => exact absurd h (by simp)
  | cons e' es ih =>
    rw [numberedFragmenters_cons, leftOf_append]
    cases j with
    | zero =>
      obtain rfl : e' = e := by simpa using h
      have hnone : n + 0 ∉ (numberedFragmenters (n + 1) es).map Prod.fst := fun hmem => by
        have := (numberedFragmenters_numbers (n + 1) es).2 _ hmem
        omega
      rw [leftOf_eq_nil _ hnone, List.append_nil]
      cases e'.fragmenter <;> simp [leftOf]
    | succ j =>
      have hskip : leftOf (n + (j + 1)) (e'.fragmenter.map fun it => (n, it)).toList = [] := by
        cases e'.fragmenter <;> simp [leftOf]
      rw [hskip, List.nil_append, show n + (j + 1) = n + 1 + j by omega]
      exact ih (n + 1) (by simpa using h)

end Fragmenters

namespace RoundRobin

variable {t : RoundRobin}

/-- New requests join with all of their chunks left. -/
lemma Exact.process (ht : t.Exact) (attrs : QpTable QpAttr) (task : RdmaWriteTask) :
    (t.step (.process attrs task)).Exact := by
  obtain ⟨hqueue, -⟩ := t.worker.process_queues attrs task
  obtain ⟨hnodup, hrange⟩ := numberedFragmenters_numbers t.requests.length
    (payloadWrsIn (t.worker.process attrs task).outs)
  constructor
  · simp only [step, List.map_append, ht.erases, numberedFragmenters_erase, hqueue]
  · simp only [step, List.map_append]
    refine List.Nodup.append ht.nodup hnodup fun k hk hk' => ?_
    have := ht.known k hk
    have := hrange k hk'
    omega
  · simp only [step, List.map_append, List.length_append]
    intro k hk
    rcases List.mem_append.mp hk with hk | hk
    · have := ht.known k hk
      omega
    · exact (hrange k hk).2
  · simp only [step, List.length_append]
    intro p hp
    have := ht.sent p hp
    omega
  · simp only [step]
    intro i e he
    show t.sentBy i ++ _ = _
    rw [leftOf_append]
    by_cases hi : i < t.requests.length
    · rw [List.getElem?_append_left hi] at he
      have hnew : i ∉ (numberedFragmenters t.requests.length
          (payloadWrsIn (t.worker.process attrs task).outs)).map Prod.fst := fun hmem => by
        have := hrange i hmem
        omega
      rw [leftOf_eq_nil i hnew, List.append_nil, ht.whole i e he]
    · rw [List.getElem?_append_right (by omega)] at he
      have hpay : e.wr.opcode ≠ .rdmaRead := by
        have := List.of_mem_filter (List.mem_of_getElem? he)
        simpa using this
      have hleft := leftOf_numberedFragmenters t.requests.length _ he
      rw [Nat.add_sub_cancel' (by omega)] at hleft
      have hold : i ∉ t.queue.map Prod.fst := fun hmem => hi (ht.known i hmem)
      have hsent : t.sentBy i = [] := chunksOf_eq_nil i fun p hp h => hi (h ▸ ht.sent p hp)
      rw [hsent, leftOf_eq_nil i hold, List.nil_append, List.nil_append, hleft,
        e.descriptors_of_payload hpay]

/-- A round moves chunks from what is left to what is handed over. -/
lemma Exact.round (ht : t.Exact) : (t.step .maintainance).Exact := by
  rw [step]
  split
  · exact ht
  · next halive =>
      obtain ⟨hnodup, hstate, hitems⟩ := numberedLoop_numbers t.queue.length ht.nodup
      refine ⟨?_, hnodup, fun k hk => ht.known k (hstate k hk), fun p hp => ?_, fun i e he => ?_⟩
      · have herase := numberedLoop_erase t.queue.length t.queue
        rw [ht.erases] at herase
        rw [← List.length_map Prod.snd, ht.erases] at herase ⊢
        simp only [RdmaWriteWorker.maintainance, halive, herase]
        rfl
      · rcases List.mem_append.mp hp with hp | hp
        · exact ht.sent p hp
        · exact ht.known p.1 (hitems p hp)
      · have hmoves := numberedLoop_conserves i t.queue.length ht.nodup
        show chunksOf i (t.sent ++ _) ++ _ = _
        rw [chunksOf_append, List.append_assoc, hmoves]
        exact ht.whole i e he

lemma Exact.step (ht : t.Exact) (s : RdmaWriteStep) : (t.step s).Exact := by
  cases s with
  | process attrs task => exact ht.process attrs task
  | maintainance => exact ht.round

/-- **Every run is exact.** -/
theorem run_exact {w : RdmaWriteWorker} (idle : w.pendingFragmenters = [])
    (steps : List RdmaWriteStep) : (run w steps).Exact := by
  induction steps using List.reverseRecOn with
  | nil => exact ⟨idle.symm, List.nodup_nil, nofun, nofun, nofun⟩
  | append_singleton steps s ih =>
    rw [run_append]
    exact ih.step s

/-- A round that the worker survives hands over the next chunk of every request. -/
lemma Exact.advances (ht : t.Exact) (halive : t.worker.panicked = none)
    (hround : t.worker.maintainance.worker.panicked = none) {i : ℕ} {e : SendQueueElem}
    (he : t.requests[i]? = some e) :
    (t.step .maintainance).sentBy i = e.descriptors.take ((t.sentBy i).length + 1) := by
  have hloop : (numberedLoop t.queue.length t.queue).crashed = none := by
    have herase := numberedLoop_erase t.queue.length t.queue
    rw [← List.length_map Prod.snd, ht.erases] at herase
    simp only [RdmaWriteWorker.maintainance, halive, herase] at hround
    rw [← List.length_map Prod.snd, ht.erases]
    exact hround
  have hstep : (t.step .maintainance).sentBy i
      = t.sentBy i ++ chunksOf i (numberedLoop t.queue.length t.queue).items := by
    rw [RoundRobin.step, if_neg (by rw [halive]; simp)]
    exact chunksOf_append i _ _
  rw [hstep, numberedLoop_turns i ht.nodup hloop, ← ht.whole i e he, List.take_length_add_append]

/-! ## The numbered run is the worker's -/

/-- What a step hands over as part of a round. -/
def roundChunks (s : RdmaWriteStep) (outs : List Output) : List WrChunk :=
  match s with
  | .maintainance => chunksIn outs
  | .process _ _ => []

/-- What a step hands over otherwise. -/
def directChunks (s : RdmaWriteStep) (outs : List Output) : List WrChunk :=
  match s with
  | .maintainance => []
  | .process _ _ => chunksIn outs

/-- The numbers left out, the run with numbers is the run of the worker: the state is the same, the
numbered requests are the accepted ones with payload, the numbered chunks are those that the rounds
hand over; and whatever is handed over outside of the rounds belongs to READs. -/
structure Erases (t : RoundRobin) (steps : List RdmaWriteStep) (r : RdmaWriteRun) : Prop where
  worker : t.worker = r.worker
  length : r.log.length = steps.length
  requests : t.requests = r.accepted.filter fun e => e.wr.opcode ≠ .rdmaRead
  sent : t.sent.map Prod.snd = (steps.zip r.log).flatMap fun p => roundChunks p.1 p.2
  reads : (steps.zip r.log).flatMap (fun p => directChunks p.1 p.2)
    = (r.accepted.filter fun e => e.wr.opcode = .rdmaRead).map RdmaWriteWorker.readChunk

lemma maintainance_outs (ht : t.Exact) :
    newWrsIn t.worker.maintainance.outs = [] ∧
    (t.step .maintainance).sent.map Prod.snd
      = t.sent.map Prod.snd ++ chunksIn t.worker.maintainance.outs := by
  rw [RoundRobin.step, RdmaWriteWorker.maintainance]
  split
  · exact ⟨rfl, (List.append_nil _).symm⟩
  · have herase := numberedLoop_erase t.queue.length t.queue
    rw [← List.length_map Prod.snd, ht.erases] at herase
    simp only [herase, newWrsIn_map_chunk, chunksIn_map_chunk, List.map_append, true_and]
    rw [← List.length_map Prod.snd, ht.erases]

lemma Erases.step {steps : List RdmaWriteStep} {r : RdmaWriteRun} (ht : t.Exact)
    (h : t.Erases steps r) (s : RdmaWriteStep) :
    (t.step s).Erases (steps ++ [s])
      ⟨(r.worker.step s).worker, r.log ++ [(r.worker.step s).outs]⟩ := by
  have hzip : (steps ++ [s]).zip (r.log ++ [(r.worker.step s).outs])
      = steps.zip r.log ++ [(s, (r.worker.step s).outs)] := List.zip_append h.length.symm
  have haccepted :
    RdmaWriteRun.accepted ⟨(r.worker.step s).worker, r.log ++ [(r.worker.step s).outs]⟩
      = r.accepted ++ newWrsIn (r.worker.step s).outs := by
    simp [RdmaWriteRun.accepted]
  have hworker : (t.step s).worker = (r.worker.step s).worker := by rw [step_worker, h.worker]
  refine ⟨hworker, by simp [h.length], ?_, ?_, ?_⟩
  · rw [haccepted, List.filter_append, ← h.requests]
    cases s with
    | process attrs task =>
      rw [← h.worker]
      rfl
    | maintainance =>
      have hnone := (maintainance_outs ht).1
      rw [h.worker] at hnone
      simp only [RdmaWriteWorker.step, hnone, List.filter_nil, List.append_nil]
      rw [RoundRobin.step]
      split <;> rfl
  · rw [hzip, List.flatMap_append, List.flatMap_singleton, ← h.sent]
    cases s with
    | process attrs task => exact (List.append_nil _).symm
    | maintainance =>
      rw [(maintainance_outs ht).2, h.worker]
      rfl
  · rw [hzip, haccepted, List.flatMap_append, List.flatMap_singleton, List.filter_append,
      List.map_append, h.reads]
    cases s with
    | process attrs task => exact congrArg _ (r.worker.process_queues attrs task).2
    | maintainance =>
      have hnone := (maintainance_outs ht).1
      rw [h.worker] at hnone
      simp only [RdmaWriteWorker.step, hnone, directChunks, List.filter_nil, List.map_nil]

lemma run_erases {w : RdmaWriteWorker} (idle : w.pendingFragmenters = [])
    (steps : List RdmaWriteStep) : (run w steps).Erases steps (w.run steps) := by
  induction steps using List.reverseRecOn with
  | nil => exact ⟨rfl, rfl, rfl, rfl, rfl⟩
  | append_singleton steps s ih =>
    rw [run_append, RdmaWriteWorker.run_append]
    exact ih.step (run_exact idle steps) s

end RoundRobin

/-- **Round-robin emission loses and repeats nothing.**  In every run of a worker that starts
without pending work: the chunks handed over for an accepted request are the first ones of the
sequence that its fragmenter yields, each once; a round that the worker survives hands over exactly
the next one of every request that has one; and there is no pending work only when every sequence
has been handed over completely.  The numbers that say which request a chunk belongs to are the only
addition to the worker's own run. -/
theorem round_robin_exact (w : RdmaWriteWorker) (idle : w.pendingFragmenters = [])
    (steps : List RdmaWriteStep) :
    let t := RoundRobin.run w steps
    t.Erases steps (w.run steps) ∧
    ∀ i e, t.requests[i]? = some e →
      t.sentBy i <+: e.descriptors ∧
      (t.worker.panicked = none → (t.step .maintainance).worker.panicked = none →
        (t.step .maintainance).sentBy i = e.descriptors.take ((t.sentBy i).length + 1)) ∧
      (t.worker.hasPendingWork = false → t.sentBy i = e.descriptors) := by
  intro t
  have ht : t.Exact := RoundRobin.run_exact idle steps
  refine ⟨RoundRobin.run_erases idle steps,
    fun i e he => ⟨?_, fun halive hround => ?_, fun hidle => ?_⟩⟩
  · exact ⟨_, ht.whole i e he⟩
  · rw [t.step_worker] at hround
    exact ht.advances halive hround he
  · have hnone : t.worker.pendingFragmenters = [] := by
      simpa [RdmaWriteWorker.hasPendingWork] using hidle
    have hempty : t.queue = [] := List.map_eq_nil_iff.mp (ht.erases.trans hnone)
    have hwhole := ht.whole i e he
    rwa [hempty, show leftOf i [] = [] from rfl, List.append_nil] at hwhole

/-- Two writes on one queue pair, of two chunks and of one; after two rounds everything is handed
over, and the third round finds that nothing is left. -/
theorem round_robin_two_writes :
    let attrs := QpTable.newWith { (default : QpAttr) with pmtu := 5 }
    let write (length : UInt32) : RdmaWriteStep :=
      .process attrs (.write 0x100 ⟨⟨7, 0, 0, length, 0, 0, .rdmaWrite⟩, 0, 0⟩)
    let t := RoundRobin.run default
      [write 0x18000, write 0x1000, .maintainance, .maintainance, .maintainance]
    t.sent.map Prod.fst = [0, 1, 0] ∧
    ∃ e₀ e₁, t.requests = [e₀, e₁] ∧ t.sentBy 0 = e₀.descriptors ∧ t.sentBy 1 = e₁.descriptors := by
  intro attrs write t
  have hshape : t.sent.map Prod.fst = [0, 1, 0] ∧ t.requests.length = 2 ∧
      t.worker.hasPendingWork = false := by
    refine ⟨?_, ?_, ?_⟩ <;> decide +kernel
  obtain ⟨hsent, hlength, hidle⟩ := hshape
  obtain ⟨e₀, e₁, hreqs⟩ := List.length_eq_two.mp hlength
  have hexact := (round_robin_exact default rfl
    [write 0x18000, write 0x1000, .maintainance, .maintainance, .maintainance]).2
  refine ⟨hsent, e₀, e₁, hreqs, ?_, ?_⟩
  · exact (hexact 0 e₀ (by rw [show RoundRobin.run default _ = t from rfl, hreqs]; rfl)).2.2 hidle
  · exact (hexact 1 e₁ (by rw [show RoundRobin.run default _ = t from rfl, hreqs]; rfl)).2.2 hidle

end OpenRdma
