import OpenRdma.Verbs.Ctx

/-!
# Announcing receives

A receive that is posted before there is a connection to the peer waits; it is announced when the
connection is made, and later ones at once.  The tables go by the index of a queue pair.  Connecting
may fail; a connection that has been made takes every message.

* **`receives_announced`** — receives are announced in the order of posting, each one once.
-/

namespace OpenRdma

/-- A call of a verb. -/
inductive CtxCall where
  | createQp (attr : IbvQpInitAttr) (key : UInt32)
  | updateQp (connects : UInt32 → Bool) (qpn : UInt32) (attr : IbvQpAttr)
  | destroyQp (qpn : UInt32)
  | postSend (qpn : UInt32) (wr : SendWr)
  | postRecv (qpn : UInt32) (wr : RecvWr)
  | recvMsg (addr : UInt32) (msg : RecvWrQpn)

/-- The receive that is posted at an index. -/
@[simp] def CtxCall.posted (i : ℕ) : CtxCall → List RecvWr
  | postRecv qpn wr => if qpnToIndex qpn = i then [wr] else []
  | _ => []

/-- The receive that is announced for an index. -/
def CtxOutput.announced (i : ℕ) : CtxOutput → List RecvWr
  | tcp _ msg => if qpnToIndex msg.qpn = i then [msg.wr] else []
  | _ => []

@[simp] def CtxResult.after {α : Type} (r : CtxResult α) : HwDeviceCtx × List CtxOutput :=
  (r.ctx, r.outs)

namespace HwDeviceCtx

def call (ctx : HwDeviceCtx) : CtxCall → HwDeviceCtx × List CtxOutput
  | .createQp attr key => (ctx.createQp attr key).after
  | .updateQp connects qpn attr => (ctx.updateQp ⟨connects, fun _ => true⟩ qpn attr).after
  | .destroyQp qpn => (ctx.destroyQp qpn).after
  | .postSend qpn wr => (ctx.postSend qpn wr).after
  | .postRecv qpn wr => (ctx.postRecv ⟨fun _ => true, fun _ => true⟩ qpn wr).after
  | .recvMsg addr msg => (ctx.recvMsg addr msg).after

def runCalls (ctx : HwDeviceCtx) : List CtxCall → HwDeviceCtx × List CtxOutput
  | [] => (ctx, [])
  | c :: cs =>
    let r := (ctx.call c).1.runCalls cs
    (r.1, (ctx.call c).2 ++ r.2)

def waiting (ctx : HwDeviceCtx) (i : Fin maxQpCnt) : List RecvWr := ctx.pendingPostRecvQueue.inner i

/-- Once there is a connection nothing waits. -/
def Drained (ctx : HwDeviceCtx) (i : Fin maxQpCnt) : Prop :=
  ctx.postRecvTxTable.inner i ≠ none → ctx.waiting i = []

/-- What was announced and is left waiting is what was waiting and what was posted. -/
def Accounts (ctx : HwDeviceCtx) (i : Fin maxQpCnt) (posted : List RecvWr)
    (x : HwDeviceCtx × List CtxOutput) : Prop :=
  x.1.Drained i ∧ x.2.flatMap (·.announced i) ++ x.1.waiting i = ctx.waiting i ++ posted

variable {ctx : HwDeviceCtx} {i : Fin maxQpCnt} {α : Type} {t : QpTable α} {qpn : UInt32}

lemma inner_setQp (a : α) :
    (t.setQp qpn a).inner i = if qpnToIndex qpn = i then a else t.inner i := by
  unfold QpTable.setQp
  split
  · simp [Function.update_apply, Fin.ext_iff, eq_comm]
  · rename_i h
    exact (if_neg fun hi => h (hi.trans_lt i.isLt)).symm

lemma getQp_index (h : qpnToIndex qpn = i) : t.getQp qpn = some (t.inner i) := by
  simp [QpTable.getQp, h]

lemma flushPending_announced (connects : UInt32 → Bool) (ip : UInt32) (queue : List RecvWr) :
    (flushPending ⟨connects, fun _ => true⟩ ip qpn queue).flatMap (·.announced i) =
      if qpnToIndex qpn = i then queue else [] := by
  by_cases h : qpnToIndex qpn = i <;> simp [flushPending, List.flatMap_map, CtxOutput.announced, h]

/-- What a call announces is accounted for. -/
theorem call_accounts (hi : ctx.Drained i) (c : CtxCall) :
    ctx.Accounts i (c.posted i) (ctx.call c) := by
  have hquiet {x : HwDeviceCtx × List CtxOutput} (hout : x.2.flatMap (·.announced i) = [])
      (hwait : x.1.waiting i = ctx.waiting i)
      (htx : x.1.postRecvTxTable.inner i = ctx.postRecvTxTable.inner i) (hnew : c.posted i = []) :
      ctx.Accounts i (c.posted i) x := by
    rw [Accounts, Drained, hout, hwait, htx, hnew, List.append_nil]
    exact ⟨hi, rfl⟩
  cases c with
  | updateQp connects qpn attr =>
    simp only [call, updateQp]
    split
    · exact hquiet rfl rfl rfl rfl
    split
    · exact hquiet rfl rfl rfl rfl
    simp only [connectPeer]
    split
    · split
      · have hout entry ip queue : (.updateQp entry :: flushPending _ ip qpn queue).flatMap
            (·.announced i) = _ := flushPending_announced connects ip queue
        by_cases hqpn : qpnToIndex qpn = i
        · simp [Accounts, Drained, waiting, inner_setQp, hqpn, hout, getQp_index hqpn]
        · refine hquiet ((hout _ _ _).trans (if_neg hqpn)) ?_ ?_ rfl
          all_goals simp [waiting, inner_setQp, hqpn]
      · exact hquiet rfl rfl rfl rfl
    · exact hquiet rfl rfl rfl rfl
  | postRecv qpn wr =>
    simp only [call, postRecv]
    by_cases hqpn : qpnToIndex qpn = i
    · simp only [getQp_index hqpn, Option.join_some]
      cases htx : ctx.postRecvTxTable.inner i with
      | some ip =>
        have hwait : ctx.waiting i = [] := hi (by simp [htx])
        simp [Accounts, Drained, CtxOutput.announced, hqpn, hwait]
      | none =>
        simp [Accounts, Drained, CtxOutput.announced, hqpn, htx, waiting, QpTable.mapQpMut,
          getQp_index hqpn, inner_setQp]
    · have hmap : (ctx.pendingPostRecvQueue.mapQpMut qpn (· ++ [wr])).inner i = ctx.waiting i := by
        unfold QpTable.mapQpMut
        split
        · exact (inner_setQp _).trans (if_neg hqpn)
        · rfl
      repeat' split
      all_goals refine hquiet ?_ ?_ rfl (if_neg hqpn)
      all_goals first | rfl | exact hmap | simp [CtxOutput.announced, hqpn]
  | _ =>
    refine hquiet ?_ ?_ ?_ rfl
    all_goals
      simp only [call, createQp, destroyQp, postSend, recvMsg, matchPendings]
      repeat' split
      all_goals first | rfl | simp [List.flatMap_map, CtxOutput.announced]

/-- **Receives are announced in the order of posting, each one once.**  At each index
what was announced and what waits is what was posted; nothing waits once there is a connection. -/
theorem receives_announced (ip : UInt32) (calls : List CtxCall) (i : Fin maxQpCnt) :
    ((init ip).runCalls calls).1.Drained i ∧
    ((init ip).runCalls calls).2.flatMap (·.announced i) ++ ((init ip).runCalls calls).1.waiting i =
      calls.flatMap (·.posted i) := by
  -- The same from any context: what waits at first is announced first.
  suffices h : ∀ ctx : HwDeviceCtx, ctx.Drained i →
      ctx.Accounts i (calls.flatMap (·.posted i)) (ctx.runCalls calls) from h (init ip) fun _ => rfl
  induction calls with
  | nil => exact fun ctx hi => ⟨hi, (List.append_nil _).symm⟩
  | cons c cs ih =>
    intro ctx hi
    obtain ⟨hdrained, hcall⟩ := call_accounts hi c
    obtain ⟨hdrained, hrest⟩ := ih _ hdrained
    refine ⟨hdrained, ?_⟩
    rw [runCalls, List.flatMap_append, List.append_assoc, hrest, ← List.append_assoc, hcall,
      List.append_assoc, List.flatMap_cons]

end HwDeviceCtx

end OpenRdma
