import OpenRdma.Verbs.MatchingRuns

/-!
# Matching without interruption

One call of `try_match_pendings` that no other thread interrupts goes through the pending requests
in order and takes one receive for each that needs one.  It stops when nothing is pending, when the
next request needs a receive and there is none, and when a SEND meets a receive of another length.

* **`sequential_matching`** — the same in terms of the two queues.
-/

namespace OpenRdma

/-! ## One turn -/

section Turn

variable (qpn : UInt32) (n : ℕ) (ps : List SendWr) (rs : List RecvWr)

lemma matchLoop_nil : matchLoop qpn (n + 1) .peek ⟨[], rs⟩ = (.done (.ok ()), ⟨[], rs⟩, []) := rfl

/-- A request that needs no receive is handed over. -/
lemma matchLoop_direct {w : SendWrRdma} (h : (SendWr.rdma w).needsRecvWr = false) :
    matchLoop qpn (n + 3) .peek ⟨.rdma w :: ps, rs⟩
      = ((matchLoop qpn n .peek ⟨ps, rs⟩).1, (matchLoop qpn n .peek ⟨ps, rs⟩).2.1,
        ⟨w, .rdma w, none⟩ :: (matchLoop qpn n .peek ⟨ps, rs⟩).2.2) := by
  simp only [matchLoop, MatchPc.step, h]
  rfl

/-- A request that needs a receive waits for one. -/
lemma matchLoop_waits {wr : SendWr} (h : wr.needsRecvWr = true) :
    matchLoop qpn (n + 2) .peek ⟨wr :: ps, []⟩ = (.done (.ok ()), ⟨wr :: ps, []⟩, []) := by
  simp only [matchLoop, MatchPc.step, h]
  rfl

/-- The task that a request and a receive make. -/
def matchedTask : SendWr → RecvWr → SendWrRdma
  | .rdma wr, _ => wr
  | .send wr, recv => .newFromBase wr recv.addr recv.lkey

/-- A SEND fits a receive of its length; a WRITE with immediate data fits every one. -/
def SendWr.Fits : SendWr → RecvWr → Prop
  | .rdma _, _ => True
  | .send wr, recv => wr.length = recv.length

instance SendWr.Fits.decidable : (wr : SendWr) → (recv : RecvWr) → Decidable (wr.Fits recv)
  | .rdma _, _ => inferInstanceAs (Decidable True)
  | .send wr, recv => inferInstanceAs (Decidable (wr.length = recv.length))

/-- A request is handed over with the next receive. -/
lemma matchLoop_takes {wr : SendWr} (h : wr.needsRecvWr = true) {recv : RecvWr}
    (hfits : wr.Fits recv) :
    matchLoop qpn (n + 4) .peek ⟨wr :: ps, recv :: rs⟩
      = ((matchLoop qpn n .peek ⟨ps, rs⟩).1, (matchLoop qpn n .peek ⟨ps, rs⟩).2.1,
        ⟨matchedTask wr recv, wr, some recv⟩ :: (matchLoop qpn n .peek ⟨ps, rs⟩).2.2) := by
  cases wr with
  | rdma w =>
    have hop : w.opcode = .rdmaWriteWithImm := by simpa [SendWr.needsRecvWr] using h
    simp only [matchLoop, MatchPc.step, h, if_true, matchTaken, if_pos hop]
    rfl
  | send w =>
    have hlen : ¬ w.length ≠ recv.length := not_not.mpr hfits
    simp only [matchLoop, MatchPc.step, h, if_true, matchTaken, if_neg hlen]
    rfl

/-- A SEND and a receive of different lengths are put back. -/
lemma matchLoop_differs {w : SendWrBase} {recv : RecvWr} (h : w.length ≠ recv.length) :
    matchLoop qpn (n + 5) .peek ⟨.send w :: ps, recv :: rs⟩
      = (.done (.error (lengthMismatch qpn w.length recv.length)), ⟨.send w :: ps, recv :: rs⟩,
        []) := by
  simp only [matchLoop, MatchPc.step, SendWr.needsRecvWr, if_true, matchTaken, if_pos h]
  rfl

end Turn

/-! ## The whole call -/

/-- Why matching stops, and what is returned. -/
inductive Stops (qpn : UInt32) : MatchQueues → Except RdmaError Unit → Prop
  | empty (rs : List RecvWr) : Stops qpn ⟨[], rs⟩ (.ok ())
  | waits {wr : SendWr} (ps : List SendWr) (needs : wr.needsRecvWr = true) :
      Stops qpn ⟨wr :: ps, []⟩ (.ok ())
  | differs {wr : SendWrBase} {recv : RecvWr} (ps : List SendWr) (rs : List RecvWr)
      (ne : wr.length ≠ recv.length) :
      Stops qpn ⟨.send wr :: ps, recv :: rs⟩ (.error (lengthMismatch qpn wr.length recv.length))

/-- What a call does: it stops for one of the three reasons; the requests handed over and those left
are the pending ones, in order, and likewise the receives; and every task is the one that its
request and receive call for. -/
structure Matches (qpn : UInt32) (q : MatchQueues) (r : MatchNext × MatchQueues × List Matched) :
    Prop where
  stops : ∃ ret, r.1 = .done ret ∧ Stops qpn r.2.1 ret
  sends : r.2.2.map Matched.wr ++ r.2.1.pending = q.pending
  recvs : r.2.2.filterMap Matched.recv ++ r.2.1.recvs = q.recvs
  valid : ∀ m ∈ r.2.2, m.Valid

/-- One more request is handed over first. -/
lemma Matches.cons {qpn : UInt32} {ps : List SendWr} {rs : List RecvWr}
    {r : MatchNext × MatchQueues × List Matched} (h : Matches qpn ⟨ps, rs⟩ r) {m : Matched}
    (hm : m.Valid) : Matches qpn ⟨m.wr :: ps, m.recv.toList ++ rs⟩ (r.1, r.2.1, m :: r.2.2) := by
  obtain ⟨hstops, hsends, hrecvs, hvalid⟩ := h
  refine ⟨hstops, congrArg (m.wr :: ·) hsends, ?_, fun m' hm' => ?_⟩
  · simp only at hrecvs ⊢
    rw [← hrecvs]
    cases hrecv : m.recv <;> simp [hrecv]
  · rcases List.mem_cons.mp hm' with rfl | hm'
    · exact hm
    · exact hvalid m' hm'

lemma matchedTask_valid {wr : SendWr} {recv : RecvWr} (h : wr.needsRecvWr = true)
    (hfits : wr.Fits recv) : Matched.Valid ⟨matchedTask wr recv, wr, some recv⟩ := by
  cases wr with
  | rdma w => exact ⟨h, rfl⟩
  | send w => exact ⟨h, hfits, rfl⟩

/-- **The loop**, with enough steps for the requests that are pending. -/
lemma matchLoop_matches (qpn : UInt32) (ps : List SendWr) (rs : List RecvWr) (n : ℕ)
    (hn : 4 * ps.length + 5 ≤ n) : Matches qpn ⟨ps, rs⟩ (matchLoop qpn n .peek ⟨ps, rs⟩) := by
  induction ps generalizing rs n with
  | nil =>
    obtain ⟨n, rfl⟩ : ∃ k, n = k + 1 := ⟨n - 1, by omega⟩
    rw [matchLoop_nil]
    exact ⟨⟨_, rfl, .empty rs⟩, rfl, rfl, fun m hm => absurd hm List.not_mem_nil⟩
  | cons wr ps ih =>
    rw [List.length_cons] at hn
    cases hwr : wr.needsRecvWr with
    | false =>
      obtain ⟨n, rfl⟩ : ∃ k, n = k + 3 := ⟨n - 3, by omega⟩
      cases wr with
      | send w => exact absurd hwr (by simp [SendWr.needsRecvWr])
      | rdma w =>
        rw [matchLoop_direct qpn n ps rs hwr]
        exact (ih rs n (by omega)).cons (m := ⟨w, .rdma w, none⟩) ⟨hwr, rfl⟩
    | true =>
      cases rs with
      | nil =>
        obtain ⟨n, rfl⟩ : ∃ k, n = k + 2 := ⟨n - 2, by omega⟩
        rw [matchLoop_waits qpn n ps hwr]
        exact ⟨⟨_, rfl, .waits ps hwr⟩, rfl, rfl, fun m hm => absurd hm List.not_mem_nil⟩
      | cons recv rs =>
        by_cases hfits : wr.Fits recv
        · obtain ⟨n, rfl⟩ : ∃ k, n = k + 4 := ⟨n - 4, by omega⟩
          rw [matchLoop_takes qpn n ps rs hwr hfits]
          exact (ih rs n (by omega)).cons (matchedTask_valid hwr hfits)
        · cases wr with
          | rdma w => exact absurd trivial hfits
          | send w =>
            obtain ⟨n, rfl⟩ : ∃ k, n = k + 5 := ⟨n - 5, by omega⟩
            rw [matchLoop_differs qpn n ps rs hfits]
            exact ⟨⟨_, rfl, .differs ps rs hfits⟩, rfl, rfl,
              fun m hm => absurd hm List.not_mem_nil⟩

lemma tryMatchPendings_matches (qpn : UInt32) (q : MatchQueues) :
    Matches qpn q (tryMatchPendings qpn q) := matchLoop_matches qpn q.pending q.recvs _ le_rfl

/-- **Sequential matching.**  For every content of the two queues, one uninterrupted call ends; the
requests it hands over, followed by those it leaves, are the pending ones in order; it stops for
want of a request, at the first request that needs a receive when none is left, or at the first SEND
whose length is not that of its receive; the `j`-th request handed over that needs a receive has the
`j`-th receive, and a SEND goes to the address of its receive with its key; and on an error the
mismatching pair is at the head of the two queues, as it was before it was taken. -/
theorem sequential_matching (qpn : UInt32) (q : MatchQueues) :
    let r := tryMatchPendings qpn q
    (∃ ret, r.1 = .done ret ∧ Stops qpn r.2.1 ret) ∧
    r.2.2.map Matched.wr ++ r.2.1.pending = q.pending ∧
    (∀ (j : ℕ) (m : Matched), (r.2.2.filter fun m => m.wr.needsRecvWr)[j]? = some m →
      m.recv.isSome ∧ m.recv = q.recvs[j]?) ∧
    (∀ m ∈ r.2.2, m.Valid) ∧
    r.2.1.recvs = q.recvs.drop (r.2.2.filter fun m => m.wr.needsRecvWr).length ∧
    (∀ e, r.1 = .done (.error e) → ∃ wr recv ps rs, wr.length ≠ recv.length ∧
      e = lengthMismatch qpn wr.length recv.length ∧
      r.2.1 = ⟨.send wr :: ps, recv :: rs⟩ ∧
      q.pending = r.2.2.map Matched.wr ++ .send wr :: ps ∧
      q.recvs = r.2.2.filterMap Matched.recv ++ recv :: rs) := by
  intro r
  obtain ⟨hstops, hsends, hrecvs, hvalid⟩ := tryMatchPendings_matches qpn q
  have hneeds := recvs_of_needs hvalid
  have hlength : (r.2.2.filter fun m => m.wr.needsRecvWr).length
      = (r.2.2.filterMap Matched.recv).length := by
    have hl := congrArg List.length hneeds
    rwa [List.length_map, List.length_map] at hl
  refine ⟨hstops, hsends, fun j m hj => ?_, hvalid, ?_, fun e he => ?_⟩
  · have hmap : ((r.2.2.filterMap Matched.recv).map some)[j]? = some m.recv := by
      rw [← hneeds, List.getElem?_map, hj]
      rfl
    rw [List.getElem?_map] at hmap
    obtain ⟨recv, hget, hsome⟩ := Option.map_eq_some_iff.mp hmap
    rw [← hsome, ← hrecvs]
    exact ⟨rfl, by rw [List.getElem?_append_left (List.getElem?_eq_some_iff.mp hget).1, hget]⟩
  · rw [hlength, ← hrecvs, List.drop_left]
  · obtain ⟨ret, hret, hstop⟩ := hstops
    obtain rfl : ret = .error e := by
      have := hret.symm.trans he
      simpa using this
    generalize hq : r.2.1 = q' at hstop hsends hrecvs
    cases hstop with
    | differs ps rs hne => exact ⟨_, _, ps, rs, hne, rfl, rfl, hsends.symm, hrecvs.symm⟩

end OpenRdma
