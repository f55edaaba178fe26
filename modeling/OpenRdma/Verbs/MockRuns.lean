import OpenRdma.Core.Pipelines
import OpenRdma.Verbs.Mock

/-!
# What the mock device completes

A queue pair of the mock device behaves like a real one if its receives are taken in the order they
were posted, the data of a message is written wherever it lies in a registered region, and a
signaled work request completes on the send queue with its own kind.  The thread departs from that
in several places, so it holds under a condition on the steps.

* **`mock_like_real_qp`** — in every run whose steps meet the condition, both ends behave like real
  ones.
-/

namespace OpenRdma

/-! ## Regions -/

/-- The range lies in a registered region. -/
def InMr (table : List MockMr) (a : UInt64) (l : ℕ) : Prop :=
  ∃ mr ∈ table, mr.addr.toNat ≤ a.toNat ∧ a.toNat + l ≤ mr.addr.toNat + mr.length.toNat

/-- The range lies in a registered region and ends before the region does. -/
def EndsInMr (table : List MockMr) (a : UInt64) (l : ℕ) : Prop :=
  ∃ mr ∈ table, mr.addr.toNat ≤ a.toNat ∧ a.toNat + l < mr.addr.toNat + mr.length.toNat ∧
    mr.addr.toNat + mr.length.toNat < 2 ^ 64

instance {table : List MockMr} {a : UInt64} {l : ℕ} : Decidable (InMr table a l) :=
  inferInstanceAs (Decidable (∃ _ ∈ _, _))

instance {table : List MockMr} {a : UInt64} {l : ℕ} : Decidable (EndsInMr table a l) :=
  inferInstanceAs (Decidable (∃ _ ∈ _, _))

lemma EndsInMr.valid {table : List MockMr} {a : UInt64} {l : ℕ} (h : EndsInMr table a l) :
    MrTable.valid table a l = true := by
  obtain ⟨mr, hmem, hle, hlt, hfits⟩ := h
  refine List.any_eq_true.2 ⟨mr, hmem, ?_⟩
  simp only [Bool.and_eq_true, decide_eq_true_eq, UInt64.le_iff_toNat_le, UInt64.lt_iff_toNat_lt,
    UInt64.toNat_add, UInt64.toNat_ofNat']
  refine ⟨hle, ?_⟩
  rw [Nat.mod_eq_of_lt hfits, Nat.mod_eq_of_lt (a := l) (by omega), Nat.mod_eq_of_lt (by omega)]
  exact hlt

/-- What has been copied can be read back. -/
lemma readLocalAddr_copyNonoverlapping (memory : MockMemory) (addr : UInt64) {data : List UInt8}
    (hlen : data.length < 2 ^ 64) :
    readLocalAddr (copyNonoverlapping memory addr data) addr data.length = data := by
  refine List.ext_getElem (by simp [readLocalAddr]) fun i hi hi' => ?_
  have hsub : (addr + UInt64.ofNat i - addr).toNat = i := by
    have := addr.toNat_lt
    simp only [UInt64.toNat_sub, UInt64.toNat_add, UInt64.toNat_ofNat']
    omega
  simp only [readLocalAddr, copyNonoverlapping, List.getElem_map, List.getElem_range, hsub]
  rw [List.getD_eq_getElem?_getD, List.getElem?_eq_getElem hi', Option.getD_some]

/-- The data is empty, or its range ends before a region does if it lies in one. -/
def Placeable (table : List MockMr) (a : UInt64) (data : List UInt8) : Prop :=
  data = [] ∨ (InMr table a data.length → EndsInMr table a data.length)

instance {table : List MockMr} {a : UInt64} {data : List UInt8} :
    Decidable (Placeable table a data) :=
  inferInstanceAs (Decidable (_ ∨ _))

lemma Placeable.readBack {table : List MockMr} {a : UInt64} {data : List UInt8}
    (h : Placeable table a data) (memory : MockMemory) (hin : InMr table a data.length) :
    readLocalAddr (writeLocalAddr table memory a data) a data.length = data := by
  rcases h with rfl | h
  · rfl
  · have hends := h hin
    obtain ⟨mr, -, -, hlt, hfits⟩ := id hends
    cases data with
    | nil => rfl
    | cons b bs =>
      rw [writeLocalAddr, if_neg (by simp), if_pos hends.valid]
      exact readLocalAddr_copyNonoverlapping memory a (by omega)

/-! ## What a queue pair should do -/

/-- The completion of a work request. -/
def SendWr.completion : SendWr → Completion
  | send wr => .send wr.wrId
  | rdma wr =>
    if wr.base.opcode = .rdmaRead then .rdmaRead wr.base.wrId else .rdmaWrite wr.base.wrId

/-- What one end has done so far is what a real queue pair does: its thread runs; the receive
completions carry the identifiers of the posted receives, in order; the data of a message that took
a receive is where it belongs if that is inside a region; and each answered work request has
completed on the send queue, with its own kind, if it was signaled. -/
structure LikeRealQp (cqs : MockCqs) (host : MockHost) (e : MockEnd) : Prop where
  alive : host.alive = true
  inOrder : cqs.recvCq.isSome = true → ∀ {k : ℕ} {x}, e.receipts[k]? = some x →
    ∃ id, e.posted[k]? = some id ∧ x.completion = some id
  placed : ∀ x ∈ e.receipts, InMr x.table x.target x.data.length → x.readBack = x.data
  completes : ∀ q, cqs.sendCq = some q → ∀ x ∈ e.answered,
    x.2 = if x.1.ackReq then [(q, x.1.completion)] else []

/-- The condition on a posted work request: a signaled SEND only without a send queue, a signaled
READ only without one or with the same queue for both directions. -/
def SendWr.Fit (cqs : MockCqs) (wr : SendWr) : Prop :=
  wr.ackReq = true → cqs.sendCq.isSome = true →
    match wr with
    | send _ => False
    | rdma x => x.base.opcode = .rdmaRead → cqs.sendCq = cqs.recvCq

instance {cqs : MockCqs} {wr : SendWr} : Decidable (wr.Fit cqs) := by
  unfold SendWr.Fit
  cases wr <;> infer_instance

/-- The condition on a message that the thread takes. -/
def QpTransportMessage.Fit (cqs : MockCqs) (host : MockHost) : QpTransportMessage → Prop
  | sendReq req =>
    match host.thread.recvReqs with
    | recvReq :: _ => (cqs.recvCq.isSome = true → recvReq.wrId = req.wrId) ∧
        Placeable host.table recvReq.addr req.data
    | [] => False
  | writeWithImmReq req => host.thread.recvReqs ≠ [] → Placeable host.table req.raddr req.data
  | _ => True

instance {cqs : MockCqs} {host : MockHost} {msg : QpTransportMessage} :
    Decidable (msg.Fit cqs host) := by
  cases msg <;> simp only [QpTransportMessage.Fit]
  case sendReq req => split <;> infer_instance
  all_goals infer_instance

/-- **The condition on a step.**  A SEND finds a posted receive, and one with its own identifier if
there is a receive queue; a message whose target lies inside a region ends before some region that
holds it does; and the posted work requests are `SendWr.Fit`. -/
def MockFit (cq : Bool → MockCqs) (s : MockNet) : MockLabel → Prop
  | .postSend side wr => wr.Fit (cq side)
  | .task side => ∀ pending ∈ (s side).thread.pendingWriteWithImm.head?,
      Placeable (s side).table pending.raddr pending.data
  | .message side => ∀ msg ∈ (s side).inbox.head?, msg.Fit (cq side) (s side)
  | _ => True

instance {cq : Bool → MockCqs} {s : MockNet} {l : MockLabel} : Decidable (MockFit cq s l) := by
  cases l <;> simp only [MockFit] <;> infer_instance

/-! ## Which work request a message belongs to -/

namespace QpTransportMessage

def wrId : QpTransportMessage → UInt64
  | writeReq r | writeWithImmReq r => r.wrId
  | readReq r => r.wrId
  | sendReq r => r.wrId
  | writeResp r | writeWithImmResp r | sendResp r => r.wrId
  | readResp r => r.wrId

def ackReq : QpTransportMessage → Bool
  | writeReq r | writeWithImmReq r => r.ackReq
  | readReq r => r.ackReq
  | sendReq r => r.ackReq
  | writeResp r | writeWithImmResp r | sendResp r => r.ackReq
  | readResp r => r.ackReq

/-- The completion that the answer to a message asks for at the other end, by the kind of the
message. -/
def completions (msg : QpTransportMessage) : List Completion :=
  match msg with
  | writeReq _ | writeWithImmReq _ => [.rdmaWrite msg.wrId]
  | sendReq _ => [.send msg.wrId]
  | readReq _ | readResp _ => [.rdmaRead msg.wrId]
  | writeResp _ => [.rdmaWrite msg.wrId, .send msg.wrId]
  | writeWithImmResp _ | sendResp _ => []

end QpTransportMessage

/-- A message for a work request of the queue pair with the queues `cqs`. -/
structure Belongs (cqs : MockCqs) (wr : SendWr) (msg : QpTransportMessage) : Prop where
  fit : wr.Fit cqs
  ackReq : msg.ackReq = wr.ackReq
  kind : wr.completion ∈ msg.completions

/-- A message at one end is for a work request of this end if it is a response, and of the other end
if it is a request. -/
def Concerns (cq : Bool → MockCqs) (side : Bool) (wr : SendWr) (msg : QpTransportMessage) : Prop :=
  Belongs (cq (if msg.isResponse then side else !side)) wr msg

lemma postSendMessage_belongs {cqs : MockCqs} {memory : MockMemory} {wr : SendWr}
    {msg : QpTransportMessage} (hfit : wr.Fit cqs) (h : postSendMessage memory wr = some msg) :
    msg.isResponse = false ∧ Belongs cqs wr msg := by
  cases wr with
  | send x =>
    cases h
    exact ⟨rfl, hfit, rfl, by simp [SendWr.completion, QpTransportMessage.completions,
      QpTransportMessage.wrId]⟩
  | rdma x =>
    simp only [postSendMessage] at h
    split at h
    case h_4 => simp at h
    all_goals
      next hop =>
      cases h
      exact ⟨rfl, hfit, rfl, by simp [SendWr.completion, QpTransportMessage.completions,
        QpTransportMessage.wrId, hop]⟩

/-! ## The invariant of one end -/

/-- What is known of one end. -/
structure MockInv (cq : Bool → MockCqs) (side : Bool) (host : MockHost) (e : MockEnd) : Prop
    extends LikeRealQp (cq side) host e where
  queued : Past e.receipts.length e.posted ((host.thread.recvReqs ++ host.tasks).map (·.wrId))
  waiting : host.thread.pendingWriteWithImm ≠ [] → host.thread.recvReqs = []
  parked : List.Forall₂ (Concerns cq side) e.parked
    (host.thread.pendingWriteWithImm.map .writeWithImmReq)
  inFlight : List.Forall₂ (Concerns cq side) e.inFlight host.inbox

section Ends

variable {cq : Bool → MockCqs} {side : Bool} {host : MockHost} {e : MockEnd}

lemma mockInv_initial (memory : Bool → MockMemory) :
    MockInv cq side (MockNet.initial memory side) (MockHistory.initial side) where
  alive := rfl
  inOrder := by simp [MockHistory.initial]
  placed := by simp [MockHistory.initial]
  completes := by simp [MockHistory.initial]
  queued := past_zero
  waiting := fun h => absurd rfl h
  parked := .nil
  inFlight := .nil

/-- Messages arrive. -/
lemma MockInv.deliver (hi : MockInv cq side host e) {wrs : List SendWr}
    {msgs : List QpTransportMessage} (h : List.Forall₂ (Concerns cq side) wrs msgs) :
    MockInv cq side { host with inbox := host.inbox ++ msgs }
      { e with inFlight := e.inFlight ++ wrs } :=
  { hi with inFlight := List.rel_append hi.inFlight h }

/-- A completion that is pushed carries its identifier. -/
lemma pushTo_wrId {q : Option UInt32} (hq : q.isSome = true) (c : Completion) :
    (pushTo q c).head?.map (·.2.wrId) = some c.wrId := by
  obtain ⟨q, rfl⟩ := Option.isSome_iff_exists.1 hq
  rfl

/-- A round that takes the next receive: the completion carries the identifier of that receive, and
the data is in its place. -/
lemma MockInv.receive (hi : MockInv cq side host e) (round : MockRound) {wr : RecvWr}
    {rest : List RecvWr} {c : Completion} {target : UInt64} {data : List UInt8}
    (hnext : host.thread.recvReqs ++ host.tasks = wr :: rest)
    (hc : round.completions = pushTo (cq side).recvCq c)
    (hid : (cq side).recvCq.isSome = true → c.wrId = wr.wrId)
    (hmemory : round.memory = writeLocalAddr host.table host.memory target data)
    (hfit : Placeable host.table target data) :
    LikeRealQp (cq side) host
      { e with receipts := e.receipts ++ [round.receipt host.table target data] } ∧
      Past (e.receipts ++ [round.receipt host.table target data]).length e.posted
        (rest.map (·.wrId)) := by
  have hqueued := hi.queued
  rw [hnext, List.map_cons] at hqueued
  refine ⟨⟨hi.alive, ?_, ?_, hi.completes⟩, by simpa using hqueued.pop⟩
  · intro hcq k y hy
    rcases getElem?_concat_cases hy with hy | ⟨rfl, rfl⟩
    · exact hi.inOrder hcq hy
    · refine ⟨wr.wrId, hqueued.get, ?_⟩
      rw [MockRound.receipt, hc, pushTo_wrId hcq, hid hcq]
  · intro y hy
    rcases List.mem_append.1 hy with hy | hy
    · exact hi.placed y hy
    · obtain rfl := List.mem_singleton.1 hy
      intro hin
      rw [MockRound.receipt, hmemory]
      exact hfit.readBack host.memory hin

variable {wr : SendWr}

/-- A reply is for the same work request as the message. -/
lemma Concerns.writeResp {msg : QpTransportMessage} (h : Concerns cq side wr msg)
    (hmsg : msg.isResponse = false)
    (hkind : msg.completions ⊆ [.rdmaWrite msg.wrId, .send msg.wrId]) :
    Concerns cq (!side) wr (.writeResp ⟨msg.wrId, msg.ackReq⟩) := by
  simp only [Concerns, hmsg] at h
  exact ⟨h.fit, h.ackReq, hkind h.kind⟩

/-- A round that takes a posted receive: it is kept, or given to the message that waits longest. -/
lemma MockInv.task (hi : MockInv cq side host e) {wr : RecvWr} {rest : List RecvWr}
    {round : MockRound} (htasks : host.tasks = wr :: rest)
    (hfit : ∀ pending ∈ host.thread.pendingWriteWithImm.head?,
      Placeable host.table pending.raddr pending.data)
    (hround : round = host.thread.handleTask (cq side) host.table host.memory wr) :
    MockInv cq side ({ host with tasks := rest }.after round) (e.task host round).1 ∧
      List.Forall₂ (Concerns cq !side) (e.task host round).2 round.replies := by
  cases hpending : host.thread.pendingWriteWithImm with
  | nil =>
    have hqueued := hi.queued
    rw [htasks] at hqueued
    have hparked := hi.parked
    rw [hpending] at hparked
    simp only [MockThread.handleTask, hpending] at hround
    subst hround
    refine ⟨⟨⟨hi.alive, hi.inOrder, hi.placed, hi.completes⟩, ?_, fun h => absurd rfl h, hparked,
      hi.inFlight⟩, .nil⟩
    simpa [MockEnd.task, MockHost.after] using hqueued
  | cons pending more =>
    have hnone := hi.waiting (by simp [hpending])
    have hparked := hi.parked
    rw [hpending, List.map_cons] at hparked
    obtain ⟨asked, others, hasked, hothers, he⟩ := List.forall₂_cons_right_iff.1 hparked
    simp only [MockThread.handleTask, hpending] at hround
    obtain ⟨hlike, hpast⟩ := hi.receive round (by rw [hnone, htasks]; rfl) (by rw [hround])
      (fun _ => rfl) (by rw [hround]) (hfit pending (by simp [hpending]))
    subst hround
    simp only [MockEnd.task, MockHost.taskReceipts, hpending, he]
    refine ⟨⟨⟨hlike.alive, hlike.inOrder, hlike.placed, hlike.completes⟩, ?_, fun _ => hnone,
      hothers, hi.inFlight⟩, .cons (hasked.writeResp rfl ?_) .nil⟩
    · simpa [MockHost.after, hnone] using hpast
    · simp [QpTransportMessage.completions]

variable {rest : List QpTransportMessage} {others : List SendWr}

/-- A request for which no receive is needed has been handled. -/
lemma MockInv.serve (hi : MockInv cq side host e)
    (hothers : List.Forall₂ (Concerns cq side) others rest) {round : MockRound}
    (hthread : round.thread = host.thread) :
    MockInv cq side ({ host with inbox := rest }.after round) { e with inFlight := others } where
  alive := hi.alive
  inOrder := hi.inOrder
  placed := hi.placed
  completes := hi.completes
  queued := by simpa [MockHost.after, hthread] using hi.queued
  waiting := by simpa [MockHost.after, hthread] using hi.waiting
  parked := by simpa [MockHost.after, hthread] using hi.parked
  inFlight := hothers

/-- A response has completed its work request. -/
lemma MockInv.complete (hi : MockInv cq side host e)
    {done : List (UInt32 × Completion)}
    (hdone : ∀ q, (cq side).sendCq = some q →
      done = if wr.ackReq then [(q, wr.completion)] else []) :
    MockInv cq side host { e with answered := e.answered ++ [(wr, done)] } := by
  refine { hi with completes := ?_ }
  intro q hq x hx
  rcases List.mem_append.1 hx with hx | hx
  · exact hi.completes q hq x hx
  · obtain rfl := List.mem_singleton.1 hx
    exact hdone q hq

/-- A write is never answered as a SEND that is signaled, so its completion is the right one. -/
lemma Belongs.writeResp_completions {cqs : MockCqs} {resp : WriteOrSendResp}
    (h : Belongs cqs wr (.writeResp resp)) {q : UInt32} (hq : cqs.sendCq = some q) :
    (if resp.ackReq then pushTo cqs.sendCq (.rdmaWrite resp.wrId) else []) =
      if wr.ackReq then [(q, wr.completion)] else [] := by
  have hack : resp.ackReq = wr.ackReq := h.ackReq
  have hkind := h.kind
  have hfit := h.fit
  rw [hack]
  by_cases hsig : wr.ackReq = true
  · rw [if_pos hsig, if_pos hsig, hq]
    cases wr with
    | send x => exact absurd (hfit hsig (by simp [hq])) id
    | rdma x =>
      simp only [QpTransportMessage.completions, List.mem_cons, List.not_mem_nil, or_false] at hkind
      rcases hkind with hkind | hkind
      · rw [hkind]; rfl
      · simp only [SendWr.completion] at hkind
        split at hkind <;> cases hkind
  · rw [if_neg hsig, if_neg hsig]

/-- A READ with a send queue has the same queue for both directions. -/
lemma Belongs.readResp_completions {cqs : MockCqs} {resp : RdmaReadResp}
    (h : Belongs cqs wr (.readResp resp)) {q : UInt32} (hq : cqs.sendCq = some q) :
    (if resp.ackReq then pushTo cqs.recvCq (.rdmaRead resp.wrId) else []) =
      if wr.ackReq then [(q, wr.completion)] else [] := by
  have hack : resp.ackReq = wr.ackReq := h.ackReq
  have hkind : wr.completion = .rdmaRead resp.wrId := by
    simpa [QpTransportMessage.completions, QpTransportMessage.wrId] using h.kind
  have hfit := h.fit
  rw [hack, hkind]
  by_cases hsig : wr.ackReq = true
  · rw [if_pos hsig, if_pos hsig]
    cases wr with
    | send x => exact absurd (hfit hsig (by simp [hq])) id
    | rdma x =>
      have hread : x.base.opcode = .rdmaRead := by
        by_contra hne
        simp [SendWr.completion, hne] at hkind
      rw [← hfit hsig (by simp [hq]) hread, hq]
      rfl
  · rw [if_neg hsig, if_neg hsig]

/-- A request that takes the oldest receive. -/
lemma MockInv.take (hi : MockInv cq side host e)
    (hothers : List.Forall₂ (Concerns cq side) others rest)
    (round : MockRound) {recvReq : RecvWr}
    {more : List RecvWr} {c : Completion} {target : UInt64} {data : List UInt8}
    (hrecv : host.thread.recvReqs = recvReq :: more)
    (hthread : round.thread = { host.thread with recvReqs := more })
    (hc : round.completions = pushTo (cq side).recvCq c)
    (hid : (cq side).recvCq.isSome = true → c.wrId = recvReq.wrId)
    (hmemory : round.memory = writeLocalAddr host.table host.memory target data)
    (hfit : Placeable host.table target data) :
    MockInv cq side ({ host with inbox := rest }.after round)
      { e with inFlight := others, receipts := e.receipts ++
        [round.receipt host.table target data] } := by
  obtain ⟨hlike, hpast⟩ := hi.receive round (by rw [hrecv]; rfl) hc hid hmemory hfit
  have hnone : host.thread.pendingWriteWithImm = [] := by
    by_contra hne
    simp [hi.waiting hne] at hrecv
  have hparked := hi.parked
  refine ⟨⟨hlike.alive, hlike.inOrder, hlike.placed, hlike.completes⟩, ?_, ?_, ?_, hothers⟩
  · simpa [MockHost.after, hthread] using hpast
  · simp [MockHost.after, hthread, hnone]
  · simpa [MockHost.after, hthread] using hparked

/-- A write with immediate that finds no receive waits. -/
lemma MockInv.park (hi : MockInv cq side host e)
    (hothers : List.Forall₂ (Concerns cq side) others rest)
    {req : RdmaWriteReq}
    (hwr : Concerns cq side wr (.writeWithImmReq req)) {round : MockRound}
    (hnone : host.thread.recvReqs = [])
    (hthread : round.thread =
      { host.thread with pendingWriteWithImm := host.thread.pendingWriteWithImm ++ [req] }) :
    MockInv cq side ({ host with inbox := rest }.after round)
      { e with inFlight := others, parked := e.parked ++ [wr] } := by
  refine ⟨⟨hi.alive, hi.inOrder, hi.placed, hi.completes⟩, ?_, ?_, ?_, hothers⟩
  · simpa [MockHost.after, hthread] using hi.queued
  · simp [MockHost.after, hthread, hnone]
  · simpa [MockHost.after, hthread] using List.rel_append hi.parked (.cons hwr .nil)

/-- A round that takes a message. -/
lemma MockInv.message (hi : MockInv cq side host e) {msg : QpTransportMessage}
    (hinbox : host.inbox = msg :: rest) (hfit : msg.Fit (cq side) host) :
    ∃ round, host.thread.handleMessage (cq side) host.table host.memory msg = some round ∧
      MockInv cq side ({ host with inbox := rest }.after round) (e.message host msg round).1 ∧
      List.Forall₂ (Concerns cq !side) (e.message host msg round).2 round.replies := by
  have hin := hi.inFlight
  rw [hinbox] at hin
  obtain ⟨wr, others, hwr, hothers, he⟩ := List.forall₂_cons_right_iff.1 hin
  cases msg with
  | writeReq req =>
    refine ⟨_, rfl, ?_⟩
    simp only [MockEnd.message, MockHost.messageReceipts, List.append_nil, he]
    exact ⟨hi.serve hothers rfl,
      .cons (hwr.writeResp rfl (by simp [QpTransportMessage.completions])) .nil⟩
  | readReq req =>
    refine ⟨_, rfl, ?_⟩
    simp only [MockEnd.message, MockHost.messageReceipts, List.append_nil, he]
    exact ⟨hi.serve hothers rfl, .cons ⟨hwr.fit, hwr.ackReq, hwr.kind⟩ .nil⟩
  | writeWithImmReq req =>
    cases hrecv : host.thread.recvReqs with
    | nil =>
      refine ⟨_, by simp only [MockThread.handleMessage, hrecv]; rfl, ?_⟩
      simp only [MockEnd.message, he]
      exact ⟨hi.park hothers hwr hrecv (by simp [hrecv]), .nil⟩
    | cons recvReq more =>
      refine ⟨_, by simp only [MockThread.handleMessage, hrecv]; rfl, ?_⟩
      simp only [MockEnd.message, MockHost.messageReceipts, hrecv, he]
      exact ⟨hi.take hothers _ hrecv rfl rfl (fun _ => rfl) rfl (hfit (by simp [hrecv])),
        .cons (hwr.writeResp rfl (by simp [QpTransportMessage.completions])) .nil⟩
  | sendReq req =>
    obtain ⟨recvReq, more, hrecv⟩ : ∃ recvReq more, host.thread.recvReqs = recvReq :: more := by
      refine List.exists_cons_of_ne_nil fun hnone => ?_
      simp [QpTransportMessage.Fit, hnone] at hfit
    simp only [QpTransportMessage.Fit, hrecv] at hfit
    obtain ⟨hid, hplace⟩ := hfit
    refine ⟨_, by simp only [MockThread.handleMessage, hrecv]; rfl, ?_⟩
    simp only [MockEnd.message, MockHost.messageReceipts, hrecv, he]
    exact ⟨hi.take hothers _ hrecv rfl rfl (fun hq => (hid hq).symm) rfl hplace,
      .cons (hwr.writeResp rfl (by simp [QpTransportMessage.completions])) .nil⟩
  | writeResp resp =>
    refine ⟨_, rfl, ?_⟩
    simp only [MockEnd.message, he]
    exact ⟨(hi.serve hothers rfl).complete fun q hq => Belongs.writeResp_completions hwr hq, .nil⟩
  | readResp resp =>
    refine ⟨_, rfl, ?_⟩
    simp only [MockEnd.message, he]
    exact ⟨(hi.serve hothers rfl).complete fun q hq => Belongs.readResp_completions hwr hq, .nil⟩
  -- these two responses are never sent
  | writeWithImmResp resp => exact absurd hwr.kind (by simp [QpTransportMessage.completions])
  | sendResp resp => exact absurd hwr.kind (by simp [QpTransportMessage.completions])

end Ends

/-! ## Runs -/

section Runs

variable {cq : Bool → MockCqs} {s : MockNet} {h : MockHistory}

/-- One end goes on and sends messages to the other. -/
lemma mockInv_proceed (hi : ∀ d, MockInv cq d (s d) (h d)) {side : Bool} {host : MockHost}
    (now : MockEnd × List SendWr) {msgs : List QpTransportMessage}
    (hside : MockInv cq side host now.1) (hsent : List.Forall₂ (Concerns cq !side) now.2 msgs)
    (d : Bool) : MockInv cq d (s.proceed side host msgs d) (h.record side now d) := by
  rcases Bool.eq_or_eq_not d side with rfl | rfl
  · simpa [MockNet.proceed, MockHistory.record] using hside
  · simpa [MockNet.proceed, MockHistory.record] using (hi (!side)).deliver hsent

/-- One end changes only its memory, its regions or its completion queues. -/
lemma mockInv_silent (hi : ∀ d, MockInv cq d (s d) (h d)) {side : Bool} {host : MockHost}
    (hthread : host.thread = (s side).thread) (htasks : host.tasks = (s side).tasks)
    (hinbox : host.inbox = (s side).inbox) (halive : host.alive = (s side).alive) (d : Bool) :
    MockInv cq d (s.proceed side host [] d) (h d) := by
  have hs := hi side
  rcases Bool.eq_or_eq_not d side with rfl | rfl
  · have hside : MockInv cq d host (h d) :=
      ⟨⟨halive ▸ hs.alive, hs.inOrder, hs.placed, hs.completes⟩, hthread ▸ htasks ▸ hs.queued,
        hthread ▸ hs.waiting, hthread ▸ hs.parked, hinbox ▸ hs.inFlight⟩
    simpa [MockNet.proceed] using hside
  · simpa [MockNet.proceed] using hi (!side)

/-- Every step keeps both ends. -/
theorem mockInv_step {s' : MockNet} {l : MockLabel} (hi : ∀ d, MockInv cq d (s d) (h d))
    (hfit : MockFit cq s l) (hs : s.step cq l = some s') (d : Bool) :
    MockInv cq d (s' d) (s.observe cq l h d) := by
  cases l with
  | postSend side wr =>
    obtain ⟨msg, hmsg, rfl⟩ := Option.map_eq_some_iff.1 hs
    obtain ⟨hreq, hbelongs⟩ := postSendMessage_belongs hfit hmsg
    refine mockInv_proceed hi (h side, [wr]) (hi side) (.cons ?_ .nil) d
    simpa [Concerns, hreq] using hbelongs
  | postRecv side wr =>
    cases hs
    refine mockInv_proceed hi ({ h side with posted := _ }, []) ?_ .nil d
    refine { hi side with inOrder := ?_, queued := ?_ }
    · intro hq k x hx
      obtain ⟨id, hid, hx⟩ := (hi side).inOrder hq hx
      exact ⟨id, List.getElem?_append_left (List.getElem?_eq_some_iff.1 hid).1 ▸ hid, hx⟩
    · simpa using (hi side).queued.push wr.wrId
  | regMr side mr | store side addr data | pollCq side handle n =>
    cases hs
    refine mockInv_silent hi ?_ ?_ ?_ ?_ d <;> rfl
  | task side =>
    obtain ⟨-, hs⟩ := guard_bind_eq_some.1 hs
    obtain ⟨wr, hwr, hs⟩ := bind_eq_some.1 hs
    obtain ⟨rest, htasks⟩ := List.head?_eq_some_iff.1 hwr
    cases hs
    obtain ⟨hside, hsent⟩ := (hi side).task htasks hfit rfl
    simp only [MockNet.observe, htasks, List.tail_cons]
    exact mockInv_proceed hi _ hside hsent d
  | message side =>
    obtain ⟨-, hs⟩ := guard_bind_eq_some.1 hs
    obtain ⟨msg, hmsg, hs⟩ := bind_eq_some.1 hs
    obtain ⟨rest, hinbox⟩ := List.head?_eq_some_iff.1 hmsg
    obtain ⟨round, hround, hside, hsent⟩ := (hi side).message hinbox (hfit msg hmsg)
    replace hround : s.messageRound cq side msg = some round := hround
    rw [hround] at hs
    cases hs
    simp only [MockNet.observe, hinbox, hround, List.tail_cons]
    exact mockInv_proceed hi _ hside hsent d

end Runs

/-- **When the mock device consumes receives like a real one.**  In every run of two connected queue
pairs whose steps all meet `MockFit`, both ends have at every time done what real queue pairs do. -/
theorem mock_like_real_qp (cq : Bool → MockCqs) (memory : Bool → MockMemory) (run : List MockLabel)
    (hfit : Meets (mockStep cq) (fun p => MockFit cq p.1) (.initial memory, .initial) run)
    {p : MockNet × MockHistory} (hrun : fire (mockStep cq) (.initial memory, .initial) run = some p)
    (side : Bool) : LikeRealQp (cq side) (p.1 side) (p.2 side) := by
  have hinv : ∀ d, MockInv cq d (p.1 d) (p.2 d) := by
    refine fire_rule_meets (P := fun p => ∀ d, MockInv cq d (p.1 d) (p.2 d)) ?_
      (fun d => mockInv_initial memory) hfit hrun
    rintro ⟨s, h⟩ l ⟨s', h'⟩ hi hok hs d
    obtain ⟨hstep, rfl⟩ := watched_eq_some.1 hs
    exact mockInv_step hi hok hstep d
  exact (hinv side).toLikeRealQp

/-! ## Runs on two hosts -/

/-- Queue 1 for sending and queue 2 for receiving, on both sides. -/
def sendAndRecvCqs : Bool → MockCqs := fun _ => ⟨some 1, some 2⟩

/-- The memory of the one side is all 170, that of the other all 0. -/
def paintedMemory : Bool → MockMemory := fun side _ => if side then 0 else 170

/-- A work request for four bytes. -/
def fourBytes (wrId : UInt64) (sendFlags : UInt32) (opcode : WorkReqOpCode) : SendWrBase :=
  { wrId, sendFlags, laddr := 0x4000, length := 4, lkey := 0, immData := 3, opcode }

def receiveAt (wrId : UInt64) (addr : UInt64) : RecvWr := { wrId, addr, length := 4, lkey := 0 }

/-- A signaled SEND with identifier 9 into the receive with identifier 7, at the end of a region. -/
def sendIntoSeven : List MockLabel :=
  [.regMr true ⟨0x1000, 4⟩, .postRecv true (receiveAt 7 0x1000), .task true,
    .postSend false (.send (fourBytes 9 2 .send)), .message true, .message false]

/-- **Where the mock device departs from a real one.**  After a signaled SEND with identifier 9 into
the receive with identifier 7, the receive completion has identifier 9, the bytes are not there
although the region holds them, and the sender has the completion of an RDMA write.  A SEND without
a receive stops the thread, and a signaled READ completes on the receive queue. -/
theorem mock_departs :
    (fire (mockStep sendAndRecvCqs) (.initial paintedMemory, .initial) sendIntoSeven).map
        (fun p => ((p.2 true).posted, (p.2 true).receipts, (p.2 false).answered.map (·.2))) =
      some ([7], [⟨0x1000, [170, 170, 170, 170], [⟨0x1000, 4⟩], some 9, [0, 0, 0, 0]⟩],
        [[(1, .rdmaWrite 9)]]) ∧
    InMr [⟨0x1000, 4⟩] 0x1000 4 ∧
    (fire (mockStep sendAndRecvCqs) (.initial paintedMemory, .initial)
        [.postSend false (.send (fourBytes 9 0 .send)), .message true]).map
        (fun p => (p.1 true).alive) = some false ∧
    (fire (mockStep sendAndRecvCqs) (.initial paintedMemory, .initial)
        [.postSend false (.rdma ⟨fourBytes 5 2 .rdmaRead, 0x1000, 0⟩), .message true,
          .message false]).map
        (fun p => (p.2 false).answered.map (·.2)) = some [[(2, .rdmaRead 5)]] := by
  refine ⟨?_, ?_, ?_, ?_⟩ <;> decide +kernel

/-- A signaled write with immediate that waits for a receive, and a SEND with the identifier of its
receive, into a region that is larger than the messages. -/
def waitAndSend : List MockLabel :=
  [.regMr true ⟨0x1000, 16⟩, .postSend false (.rdma ⟨fourBytes 4 2 .rdmaWriteWithImm, 0x1000, 0⟩),
    .message true, .postRecv true (receiveAt 7 0), .postRecv true (receiveAt 8 0x1008), .task true,
    .task true, .postSend false (.send (fourBytes 8 0 .send)), .message true, .message false,
    .message false]

theorem mock_like_real_qp_waiting :
    ∃ p, fire (mockStep sendAndRecvCqs) (.initial paintedMemory, .initial) waitAndSend = some p ∧
      (p.2 true).receipts.map (·.completion) = [some 7, some 8] ∧
      (p.2 false).answered.map (·.2) = [[(1, .rdmaWrite 4)], []] ∧
      ∀ side, LikeRealQp (sendAndRecvCqs side) (p.1 side) (p.2 side) := by
  have hsome : (fire (mockStep sendAndRecvCqs) (.initial paintedMemory, .initial) waitAndSend).map
      (fun p => ((p.2 true).receipts.map (·.completion), (p.2 false).answered.map (·.2))) =
        some ([some 7, some 8], [[(1, .rdmaWrite 4)], []]) := by
    decide +kernel
  obtain ⟨p, hrun, hp⟩ := Option.map_eq_some_iff.1 hsome
  obtain ⟨hreceived, hanswered⟩ := Prod.mk.inj hp
  refine ⟨p, hrun, hreceived, hanswered, fun side => ?_⟩
  exact mock_like_real_qp sendAndRecvCqs paintedMemory waitAndSend (by decide +kernel) hrun side

end OpenRdma
