import OpenRdma.Core.Loop
import OpenRdma.Mem.Pages
import OpenRdma.RdmaUtils.Qp
import OpenRdma.Workers.Tasks

/-!
# The acknowledgement timeout worker

For every queue pair the worker counts the signaled requests that wait for their acknowledgement and
keeps a timer.  The timer runs from the last request or report of the queue pair until the count is
back at zero; when it expires, everything outstanding is retransmitted, and when it has expired too
often the worker gives up (`todo!()`).

Time is a number of nanoseconds, given to each step.  The counts are `usize`s of which the worker
takes one per acknowledgement: at zero that is an arithmetic overflow, which panics or wraps with
the build.
-/

namespace OpenRdma

/-! ## Timers -/

structure AckTimeoutConfig where
  localAckTimeoutExp : UInt8
  initRetryCount : ℕ
deriving DecidableEq, Repr

instance : Inhabited AckTimeoutConfig := ⟨⟨50, 5⟩⟩

/-- The timer of a queue pair. -/
structure TransportTimer where
  /-- In nanoseconds; none if the timer is disabled. -/
  timeoutInterval : Option UInt64
  lastStart : Option ℕ
  initRetryCounter : ℕ
  currentRetryCounter : ℕ
deriving DecidableEq, Repr

inductive TimerResult where
  | ok
  | timeout
  | retryLimitExceeded
deriving DecidableEq, Repr

namespace TransportTimer

/-- 4.096 µs * 2^(local ACK timeout). -/
def new (localAckTimeout : UInt8) (initRetryCounter : ℕ) : TransportTimer where
  timeoutInterval := if localAckTimeout = 0 then none else some (4096 <<< localAckTimeout.toUInt64)
  lastStart := none
  initRetryCounter := initRetryCounter
  currentRetryCounter := initRetryCounter

def stop (t : TransportTimer) : TransportTimer := { t with lastStart := none }

def restart (now : ℕ) (t : TransportTimer) : TransportTimer :=
  { t with currentRetryCounter := t.initRetryCounter, lastStart := some now }

def reset (now : ℕ) (t : TransportTimer) : TransportTimer := { t with lastStart := some now }

def checkTimeout (now : ℕ) (t : TransportTimer) : TimerResult × TransportTimer :=
  match t.timeoutInterval, t.lastStart with
  | some timeoutInterval, some startTime =>
    if now - startTime < timeoutInterval.toNat then (.ok, t)
    else if t.currentRetryCounter = 0 then (.retryLimitExceeded, t)
    else (.timeout, { t with currentRetryCounter := t.currentRetryCounter - 1 }.reset now)
  | _, _ => (.ok, t)

end TransportTimer

/-! ## The worker -/

/-- The timers of all queue pairs. -/
structure QpAckTimeoutWorker where
  timerTable : QpTable TransportTimer
  outstandingAckReqCnt : QpTable ℕ
  /-- The panic that ended the worker's thread. -/
  panicked : Option String

namespace QpAckTimeoutWorker

def new (config : AckTimeoutConfig) : QpAckTimeoutWorker where
  timerTable := .newWith (.new config.localAckTimeoutExp config.initRetryCount)
  outstandingAckReqCnt := .newWith 0
  panicked := none

/-- Change the count of a queue pair, and its timer according to the new count.  An `f` of `none` is
the panic of a checked overflow. -/
def updateCnt (w : QpAckTimeoutWorker) (qpn : UInt32) (f : ℕ → Option ℕ) (msg : String)
    (timer : ℕ → TransportTimer → TransportTimer) : QpAckTimeoutWorker :=
  match w.outstandingAckReqCnt.getQp qpn with
  | none => w
  | some x =>
    match f x with
    | none => { w with panicked := some msg }
    | some y =>
      { w with
        outstandingAckReqCnt := w.outstandingAckReqCnt.setQp qpn y
        timerTable := w.timerTable.mapQpMut qpn (timer y) }

def process (build : Build) (w : QpAckTimeoutWorker) (now : ℕ)
    (task : AckTimeoutTask) : QpAckTimeoutWorker :=
  if w.panicked.isSome then w
  else
    match task with
    | .newAckReq qpn =>
      w.updateCnt qpn (build.add · 1) "attempt to add with overflow" fun _ => .restart now
    | .recvMeta qpn => { w with timerTable := w.timerTable.mapQpMut qpn (.restart now) }
    -- with the last acknowledgement the timer stops
    | .ack qpn =>
      w.updateCnt qpn (build.sub · 1) "attempt to subtract with overflow"
        fun x timer => if x = 0 then timer.stop else timer

/-- Check the timers of some queue pairs in turn; each that has expired asks for a
retransmission. -/
def checkTimers (now : ℕ) : List (Fin maxQpCnt) → QpTable TransportTimer →
    Drained (QpTable TransportTimer) PacketRetransmitTask
  | [], table => ⟨[], table, none⟩
  | index :: rest, table =>
    match (table.inner index).checkTimeout now with
    | (.ok, _) => checkTimers now rest table
    | (.timeout, timer) =>
      let r := checkTimers now rest ⟨Function.update table.inner index timer⟩
      { r with items := .retransmitAll (UInt32.ofNat index <<< qpnKeyPartWidth) :: r.items }
    | (.retryLimitExceeded, _) => ⟨[], table, some "not yet implemented: handle retry failures"⟩

def maintainance (w : QpAckTimeoutWorker) (now : ℕ) : QpAckTimeoutWorker × List Output :=
  if w.panicked.isSome then (w, [])
  else
    let r := checkTimers now (List.finRange maxQpCnt) w.timerTable
    ({ w with timerTable := r.state, panicked := r.crashed }, r.items.map .retransmit)

end QpAckTimeoutWorker

end OpenRdma
