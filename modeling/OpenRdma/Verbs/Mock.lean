import OpenRdma.Core.Rules
import OpenRdma.Workers.Tasks

/-!
# The mock device

`verbs/mock.rs`: a device in software.  Every queue pair has a thread that handles the receives
posted to it and the messages of its peer, which come over a TCP connection.  Two connected queue
pairs are modelled, with the memory, the registered regions and the completion queues of their
devices.
-/

namespace OpenRdma

open Function (update)

/-! ## Memory -/

/-- A region of the mock device. -/
structure MockMr where
  addr : UInt64
  length : UInt64
deriving DecidableEq, Repr

abbrev MockMemory := UInt64 → UInt8

/-- `MrTable::valid`: the arithmetic is that of `u64`. -/
def MrTable.valid (inner : List MockMr) (a : UInt64) (l : ℕ) : Bool :=
  inner.any fun mr => mr.addr ≤ a && a + UInt64.ofNat l < mr.addr + mr.length

def readLocalAddr (memory : MockMemory) (addr : UInt64) (len : ℕ) : List UInt8 :=
  (List.range len).map fun i => memory (addr + UInt64.ofNat i)

def copyNonoverlapping (memory : MockMemory) (addr : UInt64) (data : List UInt8) : MockMemory :=
  fun a => data.getD (a - addr).toNat (memory a)

/-- `write_local_addr`, as it is built for use. -/
def writeLocalAddr (table : List MockMr) (memory : MockMemory) (addr : UInt64)
    (data : List UInt8) : MockMemory :=
  if data.isEmpty then memory
  else if MrTable.valid table addr data.length then copyNonoverlapping memory addr data
  else memory

/-! ## Messages -/

structure RdmaWriteReq where
  raddr : UInt64
  data : List UInt8
  imm : UInt32
  ackReq : Bool
  wrId : UInt64
deriving DecidableEq, Repr

structure RdmaReadReq where
  raddr : UInt64
  laddr : UInt64
  len : UInt32
  ackReq : Bool
  wrId : UInt64
deriving DecidableEq, Repr

structure SendReq where
  wrId : UInt64
  data : List UInt8
  imm : Option UInt32
  ackReq : Bool
deriving DecidableEq, Repr

structure RdmaReadResp where
  laddr : UInt64
  raddr : UInt64
  data : List UInt8
  ackReq : Bool
  wrId : UInt64
deriving DecidableEq, Repr

structure WriteOrSendResp where
  wrId : UInt64
  ackReq : Bool
deriving DecidableEq, Repr

/-- A message between the two ends. -/
inductive QpTransportMessage where
  | writeReq (req : RdmaWriteReq)
  | writeWithImmReq (req : RdmaWriteReq)
  | readReq (req : RdmaReadReq)
  | sendReq (req : SendReq)
  | writeResp (resp : WriteOrSendResp)
  | writeWithImmResp (resp : WriteOrSendResp)
  | readResp (resp : RdmaReadResp)
  | sendResp (resp : WriteOrSendResp)
deriving DecidableEq, Repr

def QpTransportMessage.isResponse : QpTransportMessage → Bool
  | writeReq _ | writeWithImmReq _ | readReq _ | sendReq _ => false
  | writeResp _ | writeWithImmResp _ | readResp _ | sendResp _ => true

/-! ## The thread of a queue pair -/

/-- The completion queues a queue pair was created with. -/
structure MockCqs where
  sendCq : Option UInt32
  recvCq : Option UInt32
deriving DecidableEq, Repr

/-- The local variables of the thread. -/
structure MockThread where
  recvReqs : List RecvWr
  pendingWriteWithImm : List RdmaWriteReq

/-- What a round of the thread leaves: its variables, the memory, the completions it has pushed and
the messages it has sent. -/
structure MockRound where
  thread : MockThread
  memory : MockMemory
  completions : List (UInt32 × Completion)
  replies : List QpTransportMessage

/-- Push a completion to a queue, where there is one. -/
def pushTo (cq : Option UInt32) (completion : Completion) : List (UInt32 × Completion) :=
  cq.toList.map (·, completion)

namespace MockThread

/-- `LocalTask::PostRecv`: a write with immediate that waits for a receive takes the new one. -/
def handleTask (cqs : MockCqs) (table : List MockMr) (memory : MockMemory) (thread : MockThread)
    (wr : RecvWr) : MockRound :=
  match thread.pendingWriteWithImm with
  | pending :: rest =>
    { thread := { thread with pendingWriteWithImm := rest }
      memory := writeLocalAddr table memory pending.raddr pending.data
      completions := pushTo cqs.recvCq (.recvRdmaWithImm wr.wrId pending.imm)
      replies := [.writeResp ⟨pending.wrId, pending.ackReq⟩] }
  | [] =>
    { thread := { thread with recvReqs := thread.recvReqs ++ [wr] }
      memory, completions := [], replies := [] }

/-- A message of the peer; `none` where the `expect` for a posted receive panics. -/
def handleMessage (cqs : MockCqs) (table : List MockMr) (memory : MockMemory)
    (thread : MockThread) :
    QpTransportMessage → Option MockRound
  | .writeReq req => some
      { thread, memory := writeLocalAddr table memory req.raddr req.data
        completions := [], replies := [.writeResp ⟨req.wrId, req.ackReq⟩] }
  | .writeWithImmReq req =>
    match thread.recvReqs with
    | recvReq :: rest => some
        { thread := { thread with recvReqs := rest }
          memory := writeLocalAddr table memory req.raddr req.data
          completions := pushTo cqs.recvCq (.recvRdmaWithImm recvReq.wrId req.imm)
          replies := [.writeResp ⟨req.wrId, req.ackReq⟩] }
    | [] => some
        { thread := { thread with pendingWriteWithImm := thread.pendingWriteWithImm ++ [req] }
          memory, completions := [], replies := [] }
  | .sendReq req =>
    match thread.recvReqs with
    | recvReq :: rest => some
        { thread := { thread with recvReqs := rest }
          memory := writeLocalAddr table memory recvReq.addr req.data
          -- the identifier is the one of the sender's work request
          completions := pushTo cqs.recvCq (.recv req.wrId req.imm)
          replies := [.writeResp ⟨req.wrId, req.ackReq⟩] }
    | [] => none
  | .readReq req => some
      { thread, memory, completions := []
        replies := [.readResp
          { laddr := req.laddr, raddr := req.raddr, ackReq := req.ackReq, wrId := req.wrId
            data := readLocalAddr memory req.raddr req.len.toNat }] }
  | .writeResp resp | .writeWithImmResp resp => some
      { thread, memory, replies := []
        completions := if resp.ackReq then pushTo cqs.sendCq (.rdmaWrite resp.wrId) else [] }
  | .sendResp resp => some
      { thread, memory, replies := []
        completions := if resp.ackReq then pushTo cqs.sendCq (.send resp.wrId) else [] }
  | .readResp resp => some
      { thread, memory := writeLocalAddr table memory resp.laddr resp.data, replies := []
        completions := if resp.ackReq then pushTo cqs.recvCq (.rdmaRead resp.wrId) else [] }

end MockThread

/-! ## Posting -/

def SendWr.sendFlags : SendWr → UInt32
  | rdma wr => wr.base.sendFlags
  | send wr => wr.sendFlags

/-- The `ack_req` of a posted work request. -/
def SendWr.ackReq (wr : SendWr) : Bool := wr.sendFlags &&& ibvSendSignaled != 0

/-- The message of `post_send`; `none` for an operation the mock device does not support. -/
def postSendMessage (memory : MockMemory) (wr : SendWr) : Option QpTransportMessage :=
  match wr with
  | .rdma x =>
    match x.base.opcode with
    | .rdmaWrite => some (.writeReq
        { raddr := x.raddr, imm := x.base.immData, wrId := x.base.wrId, ackReq := wr.ackReq
          data := readLocalAddr memory x.base.laddr x.base.length.toNat })
    | .rdmaWriteWithImm => some (.writeWithImmReq
        { raddr := x.raddr, imm := x.base.immData, wrId := x.base.wrId, ackReq := wr.ackReq
          data := readLocalAddr memory x.base.laddr x.base.length.toNat })
    | .rdmaRead => some (.readReq
        { raddr := x.raddr, wrId := x.base.wrId, ackReq := wr.ackReq, laddr := x.base.laddr
          len := x.base.length })
    | _ => none
  | .send x => some (.sendReq
      { data := readLocalAddr memory x.laddr x.length.toNat, wrId := x.wrId
        imm := if x.immData ≠ 0 then some x.immData else none, ackReq := wr.ackReq })

/-! ## Two connected queue pairs -/

/-- A queue pair, with what its device and its process hold. -/
structure MockHost where
  thread : MockThread
  /-- The channel to the thread. -/
  tasks : List RecvWr
  /-- The connection from the peer. -/
  inbox : List QpTransportMessage
  memory : MockMemory
  table : List MockMr
  cqs : UInt32 → List Completion
  alive : Bool

/-- The two ends of a connection. -/
abbrev MockNet := Bool → MockHost

/-- What happens at the two ends. -/
inductive MockLabel where
  | postSend (side : Bool) (wr : SendWr)
  | postRecv (side : Bool) (wr : RecvWr)
  | regMr (side : Bool) (mr : MockMr)
  /-- The application writes to its memory. -/
  | store (side : Bool) (addr : UInt64) (data : List UInt8)
  | pollCq (side : Bool) (handle : UInt32) (maxNumEntries : ℕ)
  /-- The thread takes a task from its channel. -/
  | task (side : Bool)
  /-- The thread takes a message from its connection. -/
  | message (side : Bool)

def pushAll (cqs : UInt32 → List Completion) (pushed : List (UInt32 × Completion)) :
    UInt32 → List Completion :=
  pushed.foldl (fun cqs p => update cqs p.1 (cqs p.1 ++ [p.2])) cqs

/-- The host after a round of its thread. -/
def MockHost.after (host : MockHost) (round : MockRound) : MockHost :=
  { host with
    thread := round.thread, memory := round.memory, cqs := pushAll host.cqs round.completions }

namespace MockNet

variable (cq : Bool → MockCqs) (s : MockNet) (side : Bool)

def initial (memory : Bool → MockMemory) : MockNet := fun side =>
  { thread := ⟨[], []⟩, tasks := [], inbox := [], memory := memory side, table := []
    cqs := fun _ => [], alive := true }

/-- One end goes on, and sends messages to the other.  The connection is reliable and keeps the
order. -/
def proceed (host : MockHost) (messages : List QpTransportMessage) : MockNet :=
  update (update s side host) (!side)
    { s (!side) with inbox := (s (!side)).inbox ++ messages }

def postSend (wr : SendWr) : Option MockNet :=
  (postSendMessage (s side).memory wr).map fun msg => s.proceed side (s side) [msg]

def taskRound (wr : RecvWr) : MockRound :=
  (s side).thread.handleTask (cq side) (s side).table (s side).memory wr

def messageRound (msg : QpTransportMessage) : Option MockRound :=
  (s side).thread.handleMessage (cq side) (s side).table (s side).memory msg

def task : Option MockNet := do
  guard ((s side).alive = true)
  let wr ← (s side).tasks.head?
  let round := s.taskRound cq side wr
  some (s.proceed side ({ s side with tasks := (s side).tasks.tail }.after round) round.replies)

def message : Option MockNet := do
  guard ((s side).alive = true)
  let msg ← (s side).inbox.head?
  match s.messageRound cq side msg with
  | some round =>
    some (s.proceed side ({ s side with inbox := (s side).inbox.tail }.after round) round.replies)
  | none =>
    some (s.proceed side { s side with inbox := (s side).inbox.tail, alive := false } [])

def step : MockLabel → Option MockNet
  | .postSend side wr => s.postSend side wr
  | .postRecv side wr => some (s.proceed side { s side with tasks := (s side).tasks ++ [wr] } [])
  | .regMr side mr => some (s.proceed side { s side with table := (s side).table ++ [mr] } [])
  | .store side addr data =>
    some (s.proceed side { s side with memory := copyNonoverlapping (s side).memory addr data } [])
  | .pollCq side handle maxNumEntries =>
    some (s.proceed side { s side with
      cqs := update (s side).cqs handle (((s side).cqs handle).drop maxNumEntries) } [])
  | .task side => s.task cq side
  | .message side => s.message cq side

end MockNet

/-! ## What is observed -/

/-- A message that has taken a receive: where its data goes, the regions at that time, the
identifier of the completion that was pushed, and what the target range holds afterwards. -/
structure MockReceipt where
  target : UInt64
  data : List UInt8
  table : List MockMr
  completion : Option UInt64
  readBack : List UInt8
deriving DecidableEq

/-- What has happened at one end. -/
structure MockEnd where
  /-- The identifiers of the posted receives. -/
  posted : List UInt64
  receipts : List MockReceipt
  /-- The work requests that the messages in the inbox belong to. -/
  inFlight : List SendWr
  /-- The work requests that wait here for a receive. -/
  parked : List SendWr
  /-- The own work requests that have been answered, each with the completions pushed for it. -/
  answered : List (SendWr × List (UInt32 × Completion))

abbrev MockHistory := Bool → MockEnd

def MockHistory.initial : MockHistory := fun _ => ⟨[], [], [], [], []⟩

/-- The receipt of a round that writes `data` to `target`. -/
def MockRound.receipt (round : MockRound) (table : List MockMr) (target : UInt64)
    (data : List UInt8) : MockReceipt :=
  { target, data, table
    completion := round.completions.head?.map (·.2.wrId)
    readBack := readLocalAddr round.memory target data.length }

/-- The receipt of a task: it is for the message that waits longest, if there is one. -/
def MockHost.taskReceipts (host : MockHost) (round : MockRound) : List MockReceipt :=
  match host.thread.pendingWriteWithImm with
  | pending :: _ => [round.receipt host.table pending.raddr pending.data]
  | [] => []

/-- The receipt of a message: it takes the oldest receive, if there is one. -/
def MockHost.messageReceipts (host : MockHost) (round : MockRound) (msg : QpTransportMessage) :
    List MockReceipt :=
  match msg, host.thread.recvReqs with
  | .sendReq req, recvReq :: _ => [round.receipt host.table recvReq.addr req.data]
  | .writeWithImmReq req, _ :: _ => [round.receipt host.table req.raddr req.data]
  | _, _ => []

namespace MockEnd

variable (e : MockEnd) (host : MockHost)

/-- A round for a posted receive, and the work requests it replies to: the first message that
waits. -/
def task (round : MockRound) : MockEnd × List SendWr :=
  if round.replies.isEmpty then (e, [])
  else
    ({ e with parked := e.parked.tail, receipts := e.receipts ++ host.taskReceipts round },
      e.parked.head?.toList)

/-- A round for a message, and the work requests it replies to: a response answers its work request,
a request is replied to or waits. -/
def message (msg : QpTransportMessage) (round : MockRound) : MockEnd × List SendWr :=
  if msg.isResponse then
    ({ e with
        inFlight := e.inFlight.tail
        answered := e.answered ++ e.inFlight.head?.toList.map (·, round.completions) }, [])
  else if round.replies.isEmpty then
    ({ e with inFlight := e.inFlight.tail, parked := e.parked ++ e.inFlight.head?.toList }, [])
  else
    ({ e with
        inFlight := e.inFlight.tail, receipts := e.receipts ++ host.messageReceipts round msg },
      e.inFlight.head?.toList)

end MockEnd

namespace MockHistory

variable (h : MockHistory) (side : Bool)

/-- What has happened at one end, and the work requests for which messages are under way to the
other. -/
def record (now : MockEnd × List SendWr) : MockHistory :=
  update (update h side now.1) (!side)
    { h (!side) with inFlight := (h (!side)).inFlight ++ now.2 }

end MockHistory

def MockNet.observe (cq : Bool → MockCqs) (s : MockNet) (l : MockLabel)
    (h : MockHistory) : MockHistory :=
  match l with
  | .postSend side wr => h.record side (h side, [wr])
  | .postRecv side wr => h.record side ({ h side with posted := (h side).posted ++ [wr.wrId] }, [])
  | .task side =>
    match (s side).tasks with
    | wr :: _ => h.record side ((h side).task (s side) (s.taskRound cq side wr))
    | [] => h
  | .message side =>
    match (s side).inbox with
    | msg :: _ =>
      match s.messageRound cq side msg with
      | some round => h.record side ((h side).message (s side) msg round)
      | none => h
    | [] => h
  | _ => h

/-- The two queue pairs with the history of the run. -/
abbrev mockStep (cq : Bool → MockCqs) :
    MockNet × MockHistory → MockLabel → Option (MockNet × MockHistory) :=
  watched (MockNet.step cq) (MockNet.observe cq)

end OpenRdma
