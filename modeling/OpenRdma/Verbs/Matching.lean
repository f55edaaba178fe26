import OpenRdma.RdmaUtils.Types

/-!
# Matching sends with receives

A posted send waits in a queue of its queue pair until it may go to the RDMA write worker: a SEND
and a WRITE with immediate data each use up one receive that the peer has announced.  Two kinds of
threads work on the two queues — the one that posts sends, and one per connection that takes in
announced receives — and both run `try_match_pendings` after they have added to a queue.

The loop of `try_match_pendings` locks a queue for single accesses only, so a thread can be
interrupted between any two of them.  `MatchPc` is where a thread stands between two accesses, and
`MatchPc.step` is one access with the code around it that touches nothing shared.
-/

namespace OpenRdma

/-! ## One thread -/

/-- Whether a request uses up a receive of the peer. -/
def SendWr.needsRecvWr : SendWr → Bool
  | rdma wr => wr.opcode == .rdmaWriteWithImm
  | send _ => true

/-- The two queues of a queue pair. -/
structure MatchQueues where
  pending : List SendWr
  recvs : List RecvWr
deriving DecidableEq, Repr, Inhabited

/-- A request on its way to the RDMA write worker: the task, with the request and the receive it was
made of. -/
structure Matched where
  task : SendWrRdma
  wr : SendWr
  recv : Option RecvWr
deriving DecidableEq, Repr

/-- Where a thread stands in the loop: what it does next. -/
inductive MatchPc where
  /-- Look at the head of the pending requests. -/
  | peek
  /-- Take a receive; the head that was looked at needs one. -/
  | takeRecv
  /-- Remove the head, having taken a receive if the head that was looked at needs one. -/
  | takeSend (recv : Option RecvWr)
  /-- Put a request back whose length is not that of the receive. -/
  | putBackSend (wr : SendWrBase) (recv : RecvWr)
  | putBackRecv (wr : SendWrBase) (recv : RecvWr)
  /-- Send the task on `rdma_write_tx`. -/
  | handOver (m : Matched)
deriving DecidableEq, Repr

/-- What an access leads to. -/
inductive MatchNext where
  | goto (pc : MatchPc)
  | done (ret : Except RdmaError Unit)
  | panic (msg : String)

def lengthMismatch (qpn sendLen recvLen : UInt32) : RdmaError :=
  .invalidInput s!"QP {qpn}: Send/Recv length mismatch (send={sendLen}, recv={recvLen})"

/-- What is made of the request taken from the queue, with the receive taken before. -/
def matchTaken : SendWr → Option RecvWr → MatchNext
  | .rdma wr, some recv =>
    if wr.opcode = .rdmaWriteWithImm then .goto (.handOver ⟨wr, .rdma wr, some recv⟩)
    else .panic "assertion failed: rdma_wr.opcode() == send::WorkReqOpCode::RdmaWriteWithImm"
  | .send wr, some recv =>
    if wr.length ≠ recv.length then .goto (.putBackSend wr recv)
    else .goto (.handOver ⟨.newFromBase wr recv.addr recv.lkey, .send wr, some recv⟩)
  | .rdma wr, none => .goto (.handOver ⟨wr, .rdma wr, none⟩)
  | .send _, none =>
    .panic "internal error: entered unreachable code: SendWr::Send should always need recv WR"

/-- One access to a queue, or the sending of a task. -/
def MatchPc.step (qpn : UInt32) (q : MatchQueues) :
    MatchPc → MatchNext × MatchQueues × Option Matched
  | peek =>
    match q.pending with
    | [] => (.done (.ok ()), q, none)
    | wr :: _ => (.goto (if wr.needsRecvWr then takeRecv else takeSend none), q, none)
  | takeRecv =>
    match q.recvs with
    | [] => (.done (.ok ()), q, none)
    | recv :: recvs => (.goto (takeSend (some recv)), { q with recvs := recvs }, none)
  | takeSend recv =>
    match q.pending with
    | [] => (.panic "called `Option::unwrap()` on a `None` value", q, none)
    | wr :: pending => (matchTaken wr recv, { q with pending := pending }, none)
  | putBackSend wr recv =>
    (.goto (putBackRecv wr recv), { q with pending := .send wr :: q.pending }, none)
  | putBackRecv wr recv =>
    (.done (.error (lengthMismatch qpn wr.length recv.length)),
      { q with recvs := recv :: q.recvs }, none)
  | handOver m => (.goto peek, q, some m)

/-- The loop of one thread from `pc` on, without interruption and for a number of steps. -/
def matchLoop (qpn : UInt32) : ℕ → MatchPc → MatchQueues → MatchNext × MatchQueues × List Matched
  | 0, pc, q => (.goto pc, q, [])
  | n + 1, pc, q =>
    match pc.step qpn q with
    | (.goto pc, q, m) =>
      let r := matchLoop qpn n pc q
      (r.1, r.2.1, m.toList ++ r.2.2)
    | (next, q, m) => (next, q, m.toList)

/-- `try_match_pendings`: each turn takes a request, in four steps, and the last one takes none. -/
def tryMatchPendings (qpn : UInt32) (q : MatchQueues) : MatchNext × MatchQueues × List Matched :=
  matchLoop qpn (4 * q.pending.length + 5) .peek q

/-! ## Many threads -/

/-- The thread that calls `post_send`, and the ones of the connections. -/
inductive MatchThread where
  | sender
  | receiver (i : ℕ)
deriving DecidableEq, Repr

/-- What a thread is doing. -/
inductive ThreadState where
  | idle
  | busy (pc : MatchPc)
  | dead (msg : String)
deriving DecidableEq, Repr

def pendingSendQueueCapacity : ℕ := 128

/-- What `post_send` returns when `try_push` refuses the request. -/
def pendingSendQueueFull (qpn : UInt32) : RdmaError := .resourceExhausted
  s!"Pending send queue for QP {qpn} is full (capacity: {pendingSendQueueCapacity})"

/-- The threads and the queues of one queue pair, with what was posted, what arrived, what was
handed over, and what the calls of `post_send` have returned so far. -/
structure MatchSystem where
  queues : MatchQueues
  threads : MatchThread → ThreadState
  handed : List Matched
  posted : List SendWr
  arrived : List RecvWr
  returned : List (Except RdmaError Unit)

namespace MatchSystem

def start : MatchSystem := ⟨default, fun _ => .idle, [], [], [], []⟩

/-- The panic of the thread of a connection. -/
def recvWorkerPanic (qpn : UInt32) (e : RdmaError) : String :=
  let reason := e.text
  s!"RecvWorker: failed to match pending send WRs for QP {qpn}: {reason}"

/-- What a thread does with the result of `try_match_pendings`: `post_send` returns it, and the
thread of a connection panics on an error. -/
def afterwards (qpn : UInt32) : MatchThread → MatchNext → ThreadState
  | _, .goto pc => .busy pc
  | _, .panic msg => .dead msg
  | _, .done (.ok ()) => .idle
  | .sender, .done (.error _) => .idle
  | .receiver _, .done (.error e) => .dead (recvWorkerPanic qpn e)

/-- What `post_send` returns when the loop of the sender ends. -/
def result : MatchThread → MatchNext → Option (Except RdmaError Unit)
  | .sender, .done ret => some ret
  | _, _ => none

/-- Let a thread make its next step. -/
def runThread (qpn : UInt32) (s : MatchSystem) (t : MatchThread) : MatchSystem :=
  match s.threads t with
  | .busy pc =>
    let (next, queues, m) := pc.step qpn s.queues
    { s with
      queues := queues
      threads := Function.update s.threads t (afterwards qpn t next)
      handed := s.handed ++ m.toList
      returned := s.returned ++ (result t next).toList }
  | _ => s

end MatchSystem

/-- What happens next: a request is posted, a receive arrives on a connection, or a thread goes
on. -/
inductive MatchAction where
  | post (wr : SendWr)
  | arrive (i : ℕ) (recv : RecvWr)
  | run (t : MatchThread)
deriving DecidableEq, Repr

namespace MatchSystem

/-- A thread posts or takes in the next thing only when it is done with the last one; a request that
finds the queue full is refused. -/
def step (qpn : UInt32) (s : MatchSystem) : MatchAction → MatchSystem
  | .post wr =>
    if s.threads .sender = .idle then
      if s.queues.pending.length < pendingSendQueueCapacity then
        { s with
          queues := { s.queues with pending := s.queues.pending ++ [wr] }
          threads := Function.update s.threads .sender (.busy .peek)
          posted := s.posted ++ [wr] }
      else { s with returned := s.returned ++ [.error (pendingSendQueueFull qpn)] }
    else s
  | .arrive i recv =>
    if s.threads (.receiver i) = .idle then
      { s with
        queues := { s.queues with recvs := s.queues.recvs ++ [recv] }
        threads := Function.update s.threads (.receiver i) (.busy .peek)
        arrived := s.arrived ++ [recv] }
    else s
  | .run t => s.runThread qpn t

def run (qpn : UInt32) (s : MatchSystem) (actions : List MatchAction) : MatchSystem :=
  actions.foldl (step qpn) s

lemma run_append (qpn : UInt32) (s : MatchSystem) (actions : List MatchAction) (a : MatchAction) :
    s.run qpn (actions ++ [a]) = (s.run qpn actions).step qpn a := by
  simp [run, List.foldl_append]

end MatchSystem

end OpenRdma
