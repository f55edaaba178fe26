import OpenRdma.Core.BitWindow
import OpenRdma.RdmaUtils.Types

/-!
# Queue pair numbers, per-QP tables and PSN allocation

A QPN is an index into tables of `maxQpCnt` entries, shifted left by eight bits, with a random key
in the low byte; every table lookup drops the key, so two QPNs that differ only in the key share
their entry (`QpTable.getQp_setQp`).

`SendQueueContext::next_wr` hands out MSNs and PSN ranges, and `num_psn` computes how many PSNs a
work request needs.
-/

namespace OpenRdma

/-! ## Queue pair numbers and tables -/

def maxQpCnt : ℕ := 128
def qpnKeyPartWidth : UInt32 := 8

def qpnToIndex (qpn : UInt32) : ℕ := (qpn >>> qpnKeyPartWidth).toNat

/-- A value for every queue pair. -/
structure QpTable (α : Type) where
  inner : Fin maxQpCnt → α

namespace QpTable

variable {α : Type}

/-- A table with every entry set to `a`. -/
def newWith (a : α) : QpTable α := ⟨fun _ => a⟩

instance [Inhabited α] : Inhabited (QpTable α) := ⟨newWith default⟩

def getQp (t : QpTable α) (qpn : UInt32) : Option α :=
  if h : qpnToIndex qpn < maxQpCnt then some (t.inner ⟨qpnToIndex qpn, h⟩) else none

/-- Write an entry back: what a `get_qp_mut` borrow leaves behind. -/
def setQp (t : QpTable α) (qpn : UInt32) (a : α) : QpTable α :=
  if h : qpnToIndex qpn < maxQpCnt then ⟨Function.update t.inner ⟨qpnToIndex qpn, h⟩ a⟩ else t

/-- `map_qp_mut`, for a closure that returns nothing. -/
def mapQpMut (t : QpTable α) (qpn : UInt32) (f : α → α) : QpTable α :=
  match t.getQp qpn with
  | some a => t.setQp qpn (f a)
  | none => t

lemma getQp_newWith (a : α) (qpn : UInt32) :
    (newWith a).getQp qpn = if qpnToIndex qpn < maxQpCnt then some a else none := by
  unfold getQp newWith
  split <;> simp_all

/-- The key does not matter. -/
lemma getQp_congr (t : QpTable α) {qpn qpn' : UInt32} (h : qpnToIndex qpn = qpnToIndex qpn') :
    t.getQp qpn = t.getQp qpn' := by
  simp only [getQp, h]

/-- Reading back: the entry written, for every QPN with the same index; the old one otherwise. -/
lemma getQp_setQp (t : QpTable α) (qpn qpn' : UInt32) (a : α) :
    (t.setQp qpn a).getQp qpn'
      = if qpnToIndex qpn' = qpnToIndex qpn ∧ qpnToIndex qpn < maxQpCnt then some a
        else t.getQp qpn' := by
  unfold setQp getQp
  by_cases h : qpnToIndex qpn < maxQpCnt
  · by_cases h' : qpnToIndex qpn' < maxQpCnt
    · by_cases he : qpnToIndex qpn' = qpnToIndex qpn
      · simp [h, he]
      · simp [h, h', he, Function.update, Fin.ext_iff]
    · have hne : ¬ qpnToIndex qpn' = qpnToIndex qpn := fun he => h' (he ▸ h)
      simp [h, h', hne]
  · simp [h]

lemma getQp_setQp_self {t : QpTable α} {qpn : UInt32} {b : α} (h : t.getQp qpn = some b) (a : α) :
    (t.setQp qpn a).getQp qpn = some a := by
  rw [getQp_setQp, if_pos]
  refine ⟨rfl, ?_⟩
  by_contra hlt
  simp [getQp, hlt] at h

lemma getQp_setQp_ne {t : QpTable α} {qpn qpn' : UInt32} (a : α)
    (h : qpnToIndex qpn' ≠ qpnToIndex qpn) : (t.setQp qpn a).getQp qpn' = t.getQp qpn' := by
  rw [getQp_setQp, if_neg (fun hc => h hc.1)]

end QpTable

/-! ## Handing out QPNs -/

/-- The numbers of the queue pairs in use. -/
structure QpManager where
  bitmap : List Bool
deriving DecidableEq, Repr

namespace QpManager

/-- Index 0 is reserved. -/
def new : QpManager := ⟨(List.replicate maxQpCnt false).set 0 true⟩

/-- Allocates the first free index; `key` is the random low byte. -/
def createQp (m : QpManager) (key : UInt32) : Option (UInt32 × QpManager) :=
  match firstZero m.bitmap with
  | none => none
  | some index =>
    some ((UInt32.ofNat index <<< qpnKeyPartWidth) ||| key, ⟨m.bitmap.set index true⟩)

/-- Frees the index of `qpn`; an index outside the bitmap panics. -/
def destroyQp (m : QpManager) (qpn : UInt32) : Except String (Bool × QpManager) :=
  let index := qpnToIndex qpn
  if index < m.bitmap.length then .ok (bitAt m.bitmap index, ⟨m.bitmap.set index false⟩)
  else .error "index out of bounds"

end QpManager

/-! ## Allocating sequence numbers -/

/-- The numbers of the requests of a queue pair. -/
structure SendQueueContext where
  msn : UInt16
  psn : Psn
  psnAcked : Psn
  msnAcked : UInt16
deriving DecidableEq, Repr, Inhabited

namespace SendQueueContext

/-- Reserve one MSN and `numPsn` PSNs, unless that would exceed the window. -/
def nextWr (ctx : SendQueueContext) (numPsn : UInt32) :
    Option ((UInt16 × Psn) × SendQueueContext) :=
  let outstandingNumPsn := ctx.psn - ctx.psnAcked
  let outstandingNumMsn := ctx.msn - ctx.msnAcked
  if (outstandingNumPsn + numPsn).val.toNat > maxPsnWindow ∨ outstandingNumMsn.toNat ≥ maxSendWr
  then none
  else some ((ctx.msn, ctx.psn), { ctx with msn := ctx.msn + 1, psn := ctx.psn + numPsn })

def updatePsnAcked (ctx : SendQueueContext) (psn : Psn) : SendQueueContext :=
  { ctx with psnAcked := psn }

def updateMsnAcked (ctx : SendQueueContext) (msn : UInt16) : SendQueueContext :=
  { ctx with msnAcked := msn }

/-- An accepted request gets the current numbers, and the next ones move past it. -/
lemma nextWr_eq_some {ctx ctx' : SendQueueContext} {n : UInt32} {msn : UInt16} {psn : Psn}
    (h : ctx.nextWr n = some ((msn, psn), ctx')) :
    msn = ctx.msn ∧ psn = ctx.psn ∧
      ctx' = { ctx with msn := ctx.msn + 1, psn := ctx.psn + n } := by
  simp only [nextWr] at h
  split at h
  · exact absurd h (by simp)
  · simp only [Option.some.injEq, Prod.mk.injEq] at h
    exact ⟨h.1.1.symm, h.1.2.symm, h.2.symm⟩

end SendQueueContext

/-! ## How many PSNs a work request needs -/

def convertIbvMtuToU16 (ibvMtu : UInt8) : Option UInt16 :=
  match ibvMtu with
  | 1 => some 256
  | 2 => some 512
  | 3 => some 1024
  | 4 => some 2048
  | 5 => some 4096
  | _ => none

/-- `u64::saturating_add`. -/
def saturatingAdd (a b : UInt64) : UInt64 :=
  if a.toNat + b.toNat < 2 ^ 64 then a + b else 0xFFFFFFFFFFFFFFFF

/-- `u64::saturating_sub`. -/
def saturatingSub (a b : UInt64) : UInt64 := if b ≤ a then a - b else 0

/-- `u64::checked_sub`. -/
def checkedSub (a b : UInt64) : Option UInt64 := if b ≤ a then some (a - b) else none

/-- `u64::div_ceil`. -/
def divCeil (a b : UInt64) : UInt64 := if a % b > 0 then a / b + 1 else a / b

/-- Calculate the number of psn required for this WR. -/
def numPsn (pmtu : UInt8) (addr : UInt64) (length : UInt32) : Option UInt32 :=
  match convertIbvMtuToU16 pmtu with
  | none => none
  | some pmtu =>
    let pmtuMask := pmtu - 1
    let nextAlignAddr := saturatingAdd addr pmtuMask.toUInt64 &&& ~~~ pmtuMask.toUInt64
    let gap := saturatingSub nextAlignAddr addr
    let lengthU64 := length.toUInt64
    let n := max (divCeil ((checkedSub lengthU64 gap).getD lengthU64) pmtu.toUInt64) 1
    -- `try_into::<u32>()`
    if n.toNat < 2 ^ 32 then some n.toUInt32 else none

end OpenRdma
