import OpenRdma.Workers.Retransmit
import OpenRdma.Workers.Transmission

/-!
# Retransmission against the first transmission

The first transmission of a request and its retransmission are cut by different means: the hardware
cuts 64 KiB chunks, and a READ goes out as a single packet; the retransmit worker cuts every request
into packets itself.

* **`retransmissions_faithful`** — both hold exactly for the requests of `SendWrRdma.Covered`, and
  they hold in every run of the two workers in which all requests are such.
-/

namespace OpenRdma

/-! ## One request -/

/-- The packets that are sent again for a queued request. -/
def SendQueueElem.retries (e : SendQueueElem) : List WrChunk :=
  match wrPacketFragmenter e.wr e.qpParam e.psn with
  | .ok it => it.collect.items.map WrChunk.setIsRetry
  | .error _ => []

/-- How many PSNs are reserved for an accepted request. -/
def SendQueueElem.reserved (e : SendQueueElem) : Option UInt32 :=
  if e.wr.opcode = .rdmaRead then some 1 else numPsn e.qpParam.pmtu e.wr.raddr e.wr.length

/-- The packet has one of the `n` PSNs from that of the request on. -/
def SendQueueElem.Owns (e : SendQueueElem) (n : UInt32) (c : WrChunk) : Prop :=
  ∃ j < n.toNat, c.psn = e.psn + UInt32.ofNat j

/-- The packet is a packet of the first transmission, sent again. -/
def SendQueueElem.Repeats (e : SendQueueElem) (c : WrChunk) : Prop :=
  ∃ d ∈ e.descriptors, ∃ o ∈ d.wire, c = o.setIsRetry

/-- The request starts at a packet boundary or stays within one packet; a READ stays within one
packet. -/
def SendWrRdma.Covered (wr : SendWrRdma) (P : ℕ) : Prop :=
  if wr.opcode = .rdmaRead then wr.raddr.toNat % P + wr.length.toNat ≤ P else wr.Fits P

instance (wr : SendWrRdma) (P : ℕ) : Decidable (wr.Covered P) := by
  unfold SendWrRdma.Covered
  infer_instance

section Request

variable {e : SendQueueElem} {pos : ℕ} {p : UInt16}

/-- The packets sent again are the packets of the request. -/
lemma SendQueueElem.retries_eq (hpsn : e.psn = Psn.ofPos pos)
    (hp : convertIbvMtuToU16 e.qpParam.pmtu = some p) (hs : e.wr.Sendable p.toUInt64.toNat)
    (hl : e.wr.LocalFits) :
    e.retries = (List.range (packetCount e.wr p.toUInt64.toNat)).map
      (packetAt e.wr e.qpParam pos p.toUInt64.toNat true) := by
  obtain ⟨it, hit, -, hitems, -⟩ :
      ∃ it, wrPacketFragmenter e.wr e.qpParam (Psn.ofPos pos) = .ok it ∧ _ :=
    wrPacketFragmenter_eq hs hp rfl
  rw [retries, hpsn, hit]
  simp only
  rw [hitems hl, packetCut_chunks, List.map_map]
  rfl

/-- A request is one packet exactly if it does not reach past the next packet boundary. -/
lemma packetCount_eq_one_iff {wr : SendWrRdma} {P : ℕ} (h : wr.Sendable P) :
    packetCount wr P = 1 ↔ wr.raddr.toNat % P + wr.length.toNat ≤ P := by
  have hP : 0 < P := h.P_pos
  have hdm := Nat.div_add_mod wr.raddr.toNat P
  have hcomm : P * (wr.raddr.toNat / P) = wr.raddr.toNat / P * P := Nat.mul_comm _ _
  have hpos := blockCount_pos (wr.raddr.toNat / P * P) P (wr.raddr.toNat + wr.length.toNat)
  have hgo := lt_blockCount (A := wr.raddr.toNat / P * P) (e := wr.raddr.toNat + wr.length.toNat)
    (k := 0) hP
  rw [packetCount]
  omega

/-- The one packet of a short READ repeats its descriptor. -/
lemma packetAt_readChunk {P : ℕ} (hread : e.wr.opcode = .rdmaRead) (hP : 0 < P)
    (hpsn : e.psn = Psn.ofPos pos) (hcount : packetCount e.wr P = 1) :
    packetAt e.wr e.qpParam pos P true 0 = (RdmaWriteWorker.readChunk e).setIsRetry := by
  have hle : e.wr.raddr.toNat / P * P ≤ e.wr.raddr.toNat := Nat.div_mul_le_self _ _
  have h1 : (packetRange e.wr P 0).1 = e.wr.raddr.toNat := block_zero hle
  have h2 : (packetRange e.wr P 0).2 = e.wr.raddr.toNat + e.wr.length.toNat :=
    block_last hP hcount.symm
  rw [packetAt, h1, h2, hcount, Nat.sub_self, Nat.add_sub_cancel_left, RdmaWriteWorker.readChunk,
    hpsn, WrChunk.ofWr, hread]
  simp [WrChunk.place, WrChunk.setChunkMeta, WrChunk.setIsRetry]

/-- Each packet sent again is given to the hardware as the packet it is. -/
lemma SendQueueElem.wire_retries (hpsn : e.psn = Psn.ofPos pos)
    (hp : convertIbvMtuToU16 e.qpParam.pmtu = some p) (hs : e.wr.Sendable p.toUInt64.toNat)
    (hl : e.wr.LocalFits) {c : WrChunk} (hc : c ∈ e.retries) : c.wire = [c] := by
  rw [e.retries_eq hpsn hp hs hl] at hc
  obtain ⟨i, hi, rfl⟩ := List.mem_map.mp hc
  rw [WrChunk.wire, WrChunk.packetSize_eq (p := p) hp]
  exact hwPackets_packetAt hs (List.mem_range.mp hi)

/-- A covered request has as many packets as PSNs. -/
lemma SendQueueElem.packetCount_eq {n : UInt32} (hp : convertIbvMtuToU16 e.qpParam.pmtu = some p)
    (hs : e.wr.Sendable p.toUInt64.toNat) (hn : e.reserved = some n) :
    if e.wr.Covered p.toUInt64.toNat then packetCount e.wr p.toUInt64.toNat = n.toNat
    else n.toNat < packetCount e.wr p.toUInt64.toNat := by
  unfold reserved at hn
  unfold SendWrRdma.Covered
  by_cases hop : e.wr.opcode = .rdmaRead
  · rw [if_pos hop] at hn
    have hone : n.toNat = 1 := by rw [← Option.some.inj hn]; rfl
    have hpos : 0 < packetCount e.wr p.toUInt64.toNat := blockCount_pos _ _ _
    have hiff := packetCount_eq_one_iff hs
    simp only [hop, if_true]
    split <;> omega
  · rw [if_neg hop] at hn
    obtain ⟨m, hm, hcount⟩ := numPsn_packetCount hp hs
    obtain rfl : m = n := Option.some.inj (hm.symm.trans hn)
    simp only [hop, if_false]
    split
    · next hfits => rw [hcount, if_pos hfits]
    · next hfits =>
        rw [hcount, if_neg hfits]
        omega

/-- The packets sent again for a covered request. -/
lemma SendQueueElem.retries_of_covered {n : UInt32} (hpsn : e.psn = Psn.ofPos pos)
    (hp : convertIbvMtuToU16 e.qpParam.pmtu = some p) (hs : e.wr.Sendable p.toUInt64.toNat)
    (hl : e.wr.LocalFits) (hop : e.wr.opcode.supported = true) (hn : e.reserved = some n)
    (hcov : e.wr.Covered p.toUInt64.toNat) {c : WrChunk} (hc : c ∈ e.retries) :
    e.Owns n c ∧ e.Repeats c := by
  have hcount := e.packetCount_eq hp hs hn
  rw [if_pos hcov] at hcount
  rw [e.retries_eq hpsn hp hs hl] at hc
  obtain ⟨i, hi, rfl⟩ := List.mem_map.mp hc
  have hi := List.mem_range.mp hi
  refine ⟨⟨i, by omega, ?_⟩, ?_⟩
  · rw [hpsn, Psn.ofPos_add_ofNat]
    rfl
  · by_cases hread : e.wr.opcode = .rdmaRead
    · have hone : n.toNat = 1 := by
        rw [reserved, if_pos hread] at hn
        rw [← Option.some.inj hn]
        rfl
      obtain rfl : i = 0 := by omega
      refine ⟨RdmaWriteWorker.readChunk e, ?_, RdmaWriteWorker.readChunk e, ?_,
        packetAt_readChunk hread hs.P_pos hpsn (by omega)⟩
      · rw [descriptors, if_pos hread]
        exact List.mem_singleton_self _
      · have hnone : (RdmaWriteWorker.readChunk e).opcode.needsPayload = false := rfl
        simp [WrChunk.wire, hwPackets, hnone]
    · have hpay : e.wr.opcode.needsPayload = true := by
        simpa [WorkReqOpCode.supported, hread] using hop
      have hmem : packetAt e.wr e.qpParam pos p.toUInt64.toNat false i
          ∈ e.descriptors.flatMap WrChunk.wire := by
        rw [e.wire_descriptors hpsn hp hs hl hpay]
        exact List.mem_map.mpr ⟨i, List.mem_range.mpr hi, rfl⟩
      obtain ⟨d, hd, ho⟩ := List.mem_flatMap.mp hmem
      exact ⟨d, hd, _, ho, rfl⟩

/-- A request that is not covered has a packet sent again with a PSN after its own. -/
lemma SendQueueElem.not_owns_of_not_covered {n : UInt32} (hpsn : e.psn = Psn.ofPos pos)
    (hp : convertIbvMtuToU16 e.qpParam.pmtu = some p) (hs : e.wr.Sendable p.toUInt64.toNat)
    (hl : e.wr.LocalFits) (hn : e.reserved = some n) (hlt : n.toNat < 2 ^ 24)
    (hcov : ¬ e.wr.Covered p.toUInt64.toNat) : ∃ c ∈ e.retries, ¬ e.Owns n c := by
  have hcount := e.packetCount_eq hp hs hn
  rw [if_neg hcov] at hcount
  refine ⟨packetAt e.wr e.qpParam pos p.toUInt64.toNat true n.toNat, ?_, ?_⟩
  · rw [e.retries_eq hpsn hp hs hl]
    exact List.mem_map.mpr ⟨_, List.mem_range.mpr hcount, rfl⟩
  · rintro ⟨j, hj, heq⟩
    rw [hpsn, Psn.ofPos_add_ofNat] at heq
    have heq : Psn.ofPos (pos + n.toNat) = Psn.ofPos (pos + j) := heq
    rw [Psn.ofPos_eq_iff] at heq
    omega

end Request

/-! ## Runs of the retransmit worker -/

/-- A run: the state, and each task with what it sent. -/
structure RetransmitRun where
  worker : PacketRetransmitWorker
  log : List (PacketRetransmitTask × List Output)

def PacketRetransmitWorker.run (pp : PartitionPoint) (w : PacketRetransmitWorker)
    (tasks : List PacketRetransmitTask) : RetransmitRun :=
  tasks.foldl
    (fun acc t => ⟨(acc.worker.process pp t).1, acc.log ++ [(t, (acc.worker.process pp t).2)]⟩)
    ⟨w, []⟩

lemma PacketRetransmitWorker.run_append (pp : PartitionPoint) (w : PacketRetransmitWorker)
    (tasks : List PacketRetransmitTask) (t : PacketRetransmitTask) :
    w.run pp (tasks ++ [t]) = ⟨((w.run pp tasks).worker.process pp t).1,
      (w.run pp tasks).log ++ [(t, ((w.run pp tasks).worker.process pp t).2)]⟩ := by
  simp [run, List.foldl_append]

/-- The packets that one task sent again on a queue pair. -/
def resentIn (qpn : UInt32) (entry : PacketRetransmitTask × List Output) : List WrChunk :=
  if qpnToIndex entry.1.qpn = qpnToIndex qpn then chunksIn entry.2 else []

/-- The packets sent again on a queue pair. -/
def RetransmitRun.resentOn (r : RetransmitRun) (qpn : UInt32) : List WrChunk :=
  r.log.flatMap (resentIn qpn)

/-- The requests that tasks record for a queue pair. -/
def recordedOn (qpn : UInt32) (tasks : List PacketRetransmitTask) : List SendQueueElem :=
  newWrsOn qpn (tasks.map .retransmit)

/-- The packets of a list of requests, up to a panic, are packets of the requests. -/
lemma mem_packetsOf {sqes : List SendQueueElem} {c : WrChunk} (h : c ∈ (packetsOf sqes).items) :
    ∃ e ∈ sqes, c.setIsRetry ∈ e.retries := by
  induction sqes with
  | nil => exact absurd h (by simp [packetsOf])
  | cons e sqes ih =>
    unfold packetsOf at h
    cases hit : wrPacketFragmenter e.wr e.qpParam e.psn with
    | error msg => simp [hit] at h
    | ok it =>
      have hown : c ∈ it.collect.items → ∃ e' ∈ e :: sqes, c.setIsRetry ∈ e'.retries := by
        intro hc
        refine ⟨e, List.mem_cons_self, ?_⟩
        rw [SendQueueElem.retries, hit]
        exact List.mem_map_of_mem hc
      simp only [hit] at h
      cases hcrash : it.collect.crashed with
      | some msg =>
        simp only [hcrash] at h
        exact hown h
      | none =>
        simp only [hcrash] at h
        rcases List.mem_append.mp h with hc | hc
        · exact hown hc
        · obtain ⟨e', he', hc'⟩ := ih hc
          exact ⟨e', List.mem_cons_of_mem _ he', hc'⟩

lemma IbvSendQueue.mem_range {pp : PartitionPoint} {sq : IbvSendQueue} {psnLow psnHigh : Psn}
    {e : SendQueueElem} (h : e ∈ sq.range pp psnLow psnHigh) : e ∈ sq.inner := by
  simp only [range] at h
  split at h
  · exact absurd h (by simp)
  · exact List.mem_of_mem_drop (List.mem_of_mem_take h)

namespace PacketRetransmitWorker

/-- A task sends only packets of queued requests. -/
lemma mem_resends {pp : PartitionPoint} {sq : IbvSendQueue} {task : PacketRetransmitTask}
    {c : WrChunk} (h : c ∈ (resends pp sq task).items) :
    ∃ e ∈ sq.inner, c.setIsRetry ∈ e.retries := by
  cases task with
  | newWr q e => exact absurd h (by simp [resends])
  | ack q psn => exact absurd h (by simp [resends])
  | retransmitRange q psnLow psnHigh =>
    have hc := (List.takeWhile_sublist _).subset h
    obtain ⟨e, he, hr⟩ := mem_packetsOf ((List.dropWhile_sublist _).subset hc)
    exact ⟨e, IbvSendQueue.mem_range he, hr⟩
  | retransmitAll q => exact mem_packetsOf ((List.dropWhile_sublist _).subset h)

/-- A task queues at most the request it records. -/
lemma mem_updates {pp : PartitionPoint} {sq : IbvSendQueue} {task : PacketRetransmitTask}
    {e : SendQueueElem} (h : e ∈ (updates pp sq task).inner) :
    e ∈ sq.inner ∨ e ∈ recordedOn task.qpn [task] := by
  cases task with
  | newWr q wr =>
    rcases List.mem_append.mp h with he | he
    · exact .inl he
    · exact .inr (by simpa [recordedOn, newWrsOn, PacketRetransmitTask.qpn] using he)
  | ack q psn => exact .inl (List.mem_of_mem_drop h)
  | retransmitRange q psnLow psnHigh => exact .inl h
  | retransmitAll q => exact .inl h

end PacketRetransmitWorker

/-- What a run of the worker keeps for one queue pair: the queue holds only recorded requests, and
only packets of such were sent. -/
structure RetransmitInv (qpn : UInt32) (tasks : List PacketRetransmitTask) (r : RetransmitRun) :
    Prop where
  queue : ∃ sq, r.worker.table.getQp qpn = some sq ∧ ∀ e ∈ sq.inner, e ∈ recordedOn qpn tasks
  resent : ∀ c ∈ r.resentOn qpn, ∃ e ∈ recordedOn qpn tasks, c ∈ e.retries

lemma recordedOn_append (qpn : UInt32) (tasks : List PacketRetransmitTask)
    (t : PacketRetransmitTask) :
    recordedOn qpn (tasks ++ [t]) = recordedOn qpn tasks ++ recordedOn qpn [t] := by
  rw [recordedOn, List.map_append]
  exact List.filterMap_append

/-- **One task of the retransmit worker.** -/
lemma RetransmitInv.step {qpn : UInt32} {tasks : List PacketRetransmitTask} {r : RetransmitRun}
    (h : RetransmitInv qpn tasks r) (pp : PartitionPoint) (t : PacketRetransmitTask) :
    RetransmitInv qpn (tasks ++ [t])
      ⟨(r.worker.process pp t).1, r.log ++ [(t, (r.worker.process pp t).2)]⟩ := by
  obtain ⟨sq, hsq, hmem⟩ := h.queue
  have hold : ∀ e ∈ recordedOn qpn tasks, e ∈ recordedOn qpn (tasks ++ [t]) := fun e he => by
    rw [recordedOn_append]
    exact List.mem_append_left _ he
  have hresent : ∀ outs, (∀ c ∈ resentIn qpn (t, outs), ∃ e ∈ sq.inner, c ∈ e.retries) →
      ∀ c ∈ (r.log ++ [(t, outs)]).flatMap (resentIn qpn),
        ∃ e ∈ recordedOn qpn (tasks ++ [t]), c ∈ e.retries := by
    intro outs houts c hc
    rw [List.flatMap_append, List.flatMap_singleton, List.mem_append] at hc
    rcases hc with hc | hc
    · obtain ⟨e, he, hr⟩ := h.resent c hc
      exact ⟨e, hold e he, hr⟩
    · obtain ⟨e, he, hr⟩ := houts c hc
      exact ⟨e, hold e (hmem e he), hr⟩
  have hquiet : RetransmitInv qpn (tasks ++ [t]) ⟨r.worker, r.log ++ [(t, [])]⟩ := by
    refine ⟨⟨sq, hsq, fun e he => hold e (hmem e he)⟩, hresent [] (fun c hc => ?_)⟩
    simp [resentIn, chunksIn] at hc
  unfold PacketRetransmitWorker.process
  split
  · exact hquiet
  · cases hsq' : r.worker.table.getQp t.qpn with
    | none => exact hquiet
    | some sq' =>
      simp only
      by_cases hq : qpnToIndex t.qpn = qpnToIndex qpn
      · obtain rfl : sq' = sq :=
          Option.some.inj (hsq'.symm.trans ((r.worker.table.getQp_congr hq).trans hsq))
        refine ⟨⟨PacketRetransmitWorker.updates pp sq' t, ?_, fun e he => ?_⟩,
          hresent _ (fun c hc => ?_)⟩
        · rw [← QpTable.getQp_congr _ hq]
          exact QpTable.getQp_setQp_self hsq' _
        · rcases PacketRetransmitWorker.mem_updates he with he | he
          · exact hold e (hmem e he)
          · rw [recordedOn_append]
            refine List.mem_append_right _ ?_
            simpa only [recordedOn, newWrsOn, hq] using he
        · rw [resentIn, if_pos hq, Packets.retries, chunksIn_map_chunk] at hc
          obtain ⟨o, ho, rfl⟩ := List.mem_map.mp hc
          exact PacketRetransmitWorker.mem_resends ho
      · refine ⟨⟨sq, ?_, fun e he => hold e (hmem e he)⟩, hresent _ (fun c hc => ?_)⟩
        · rw [QpTable.getQp_setQp_ne _ (Ne.symm hq), hsq]
        · rw [resentIn, if_neg hq] at hc
          exact absurd hc (by simp)

/-- **What a run of the retransmit worker sends again.** -/
theorem retransmit_run_inv {w : PacketRetransmitWorker} {qpn : UInt32}
    (fresh : w.table.getQp qpn = some default) (pp : PartitionPoint)
    (tasks : List PacketRetransmitTask) : RetransmitInv qpn tasks (w.run pp tasks) := by
  induction tasks using List.reverseRecOn with
  | nil => exact ⟨⟨default, fresh, fun e he => absurd he List.not_mem_nil⟩,
      fun c hc => absurd hc List.not_mem_nil⟩
  | append_singleton tasks t ih =>
    rw [PacketRetransmitWorker.run_append]
    exact ih.step pp t

/-! ## The two workers together -/

/-- What is promised of a request on a queue pair with attributes `qp`. -/
structure SendWrRdma.Repeatable (wr : SendWrRdma) (qp : QpAttr) : Prop where
  remote : wr.raddr.toNat + wr.length.toNat + 0x10000 < 2 ^ 64
  localFits : wr.LocalFits
  covered : ∀ p, convertIbvMtuToU16 qp.pmtu = some p → wr.Covered p.toUInt64.toNat

/-- Every request that the step hands to the queue pair is repeatable. -/
def RdmaWriteStep.Repeatable (s : RdmaWriteStep) (qpn : UInt32) : Prop :=
  ∀ qp wr, s.Asks qpn qp wr → wr.Repeatable qp

lemma grantPos_succ {gs : List Grant} {i : ℕ} {g : Grant} (h : gs[i]? = some g) :
    grantPos gs (i + 1) = grantPos gs i + g.numPsn.toNat := by
  rw [grantPos, grantPos, List.take_add_one, h]
  simp

lemma grantPos_mono (gs : List Grant) {i k : ℕ} (h : i ≤ k) : grantPos gs i ≤ grantPos gs k :=
  ((List.take_sublist_take_left h).map _).sum_le_sum (fun _ _ => Nat.zero_le _)

/-- The PSNs of two grants are within one round of the PSNs. -/
def GrantsNear (gs : List Grant) (i k : ℕ) : Prop :=
  grantPos gs (k + 1) ≤ grantPos gs i + 2 ^ 24 ∧ grantPos gs (i + 1) ≤ grantPos gs k + 2 ^ 24

/-- No PSN belongs to two grants that are near each other. -/
lemma ofPos_ne_of_grantsNear {gs : List Grant} {i k : ℕ} {g h : Grant} (hi : gs[i]? = some g)
    (hk : gs[k]? = some h) (hne : k ≠ i) (hnear : GrantsNear gs i k) {a b : ℕ}
    (ha : a < g.numPsn.toNat) (hb : b < h.numPsn.toNat) :
    Psn.ofPos (grantPos gs i + a) ≠ Psn.ofPos (grantPos gs k + b) := by
  obtain ⟨h1, h2⟩ := hnear
  have hgi := grantPos_succ hi
  have hgk := grantPos_succ hk
  rw [Ne, Psn.ofPos_eq_iff]
  rcases Nat.lt_or_ge i k with hlt | hge
  · have := grantPos_mono gs (show i + 1 ≤ k from hlt)
    omega
  · have := grantPos_mono gs (show k + 1 ≤ i by omega)
    omega

/-- What is sent again for a request of the ledger. -/
lemma Ledger.retries {qpn : UInt32} {steps : List RdmaWriteStep} {r : RdmaWriteRun}
    {ctx : SendQueueContext} {gs : List Grant} (h : Ledger qpn steps r ctx gs)
    (hrep : ∀ s ∈ steps, s.Repeatable qpn) {i : ℕ} {g : Grant} {x : Posted} (hi : gs[i]? = some g)
    (hx : g.posted = some x) {c : WrChunk} (hc : c ∈ x.elem.retries) :
    c.wire = [c] ∧ x.elem.Owns g.numPsn c ∧ x.elem.Repeats c ∧
      x.elem.psn = Psn.ofPos (grantPos gs i) := by
  obtain ⟨s, hs, hask⟩ := h.asked g (List.mem_of_getElem? hi)
  have hwr := hrep s hs _ _ hask
  obtain ⟨ctx', hfrom, -, hpsn⟩ := h.grants i g hi
  have helem := hfrom.elem x hx
  have hneeded := hfrom.needed
  have hsupp := hfrom.supported
  obtain ⟨elem, event⟩ := x
  subst helem
  obtain ⟨p, hp⟩ : ∃ p, convertIbvMtuToU16 g.qp.pmtu = some p := by
    cases hp : convertIbvMtuToU16 g.qp.pmtu with
    | some p => exact ⟨p, rfl⟩
    | none =>
      have hp' : convertIbvMtuToU16 (g.qp.params ctx'.msn).pmtu = none := hp
      simp [SendQueueElem.retries, wrPacketFragmenter, hp'] at hc
  have hsend : g.wr.Sendable p.toUInt64.toNat := g.wr.sendable hp hwr.remote
  have hreserved : SendQueueElem.reserved ⟨ctx'.psn, g.wr, g.qp.params ctx'.msn⟩ = some g.numPsn :=
    hneeded
  obtain ⟨howns, hrepeats⟩ := SendQueueElem.retries_of_covered (p := p) hpsn hp hsend hwr.localFits
    hsupp hreserved (hwr.covered p hp) hc
  exact ⟨SendQueueElem.wire_retries (p := p) hpsn hp hsend hwr.localFits hc, howns, hrepeats, hpsn⟩

/-- **Retransmissions are faithful to the first transmission** of the covered requests, and only of
these.  In a run whose requests on a queue pair are all covered, every packet that is sent again on
it is made of an accepted request, has one of the PSNs reserved for that request and for no other
one near it, and repeats a packet that the hardware makes of a descriptor which the write worker
hands out for the request. -/
theorem retransmissions_faithful (pp : PartitionPoint) (qpn : UInt32) :
    (∀ (e : SendQueueElem) (pos : ℕ) (p : UInt16) (n : UInt32), e.psn = Psn.ofPos pos →
      convertIbvMtuToU16 e.qpParam.pmtu = some p →
      e.wr.raddr.toNat + e.wr.length.toNat + 0x10000 < 2 ^ 64 → e.wr.LocalFits →
      e.wr.opcode.supported = true → e.reserved = some n → n.toNat < 2 ^ 24 →
      ((∀ c ∈ e.retries, e.Owns n c ∧ e.Repeats c) ↔ e.wr.Covered p.toUInt64.toNat)) ∧
    ∀ (w : RdmaWriteWorker) (steps : List RdmaWriteStep) (w' : PacketRetransmitWorker)
      (tasks : List PacketRetransmitTask),
      w.sqCtxTable.getQp qpn = some default → w.pendingFragmenters = [] →
      w'.table.getQp qpn = some default → (∀ s ∈ steps, s.Repeatable qpn) →
      let run := w.run steps
      (∀ e ∈ recordedOn qpn tasks, e ∈ (run.postedOn qpn).map Posted.elem) →
      ∃ ctx gs, Ledger qpn steps run ctx gs ∧
        ∀ c ∈ (w'.run pp tasks).resentOn qpn, c.wire = [c] ∧
          ∃ i g x, gs[i]? = some g ∧ g.posted = some x ∧ c ∈ x.elem.retries ∧
            x.elem.Owns g.numPsn c ∧
            (∃ d ∈ run.chunks ++ run.worker.unsent, d ∈ x.elem.descriptors ∧
              ∃ o ∈ d.wire, c = o.setIsRetry) ∧
            ∀ k h, gs[k]? = some h → k ≠ i → GrantsNear gs i k →
              ∀ b < h.numPsn.toNat, c.psn ≠ Psn.ofPos (grantPos gs k + b) := by
  refine ⟨fun e pos p n hpsn hp hremote hl hop hn hlt => ?_, ?_⟩
  · have hs : e.wr.Sendable p.toUInt64.toNat := e.wr.sendable hp hremote
    refine ⟨fun h => ?_, fun hcov c hc => e.retries_of_covered hpsn hp hs hl hop hn hcov hc⟩
    by_contra hcov
    obtain ⟨c, hc, hnot⟩ := e.not_owns_of_not_covered hpsn hp hs hl hn hlt hcov
    exact hnot (h c hc).1
  · intro w steps w' tasks fresh idle fresh' hrep run hposted
    obtain ⟨ctx, gs, hledger⟩ := run_ledger fresh steps
    refine ⟨ctx, gs, hledger, fun c hc => ?_⟩
    obtain ⟨e, he, hretry⟩ := (retransmit_run_inv fresh' pp tasks).resent c hc
    obtain ⟨x, hx, rfl⟩ := List.mem_map.mp (hposted e he)
    have hgs := hx
    rw [hledger.posted] at hgs
    obtain ⟨g, hg, hgx⟩ := List.mem_filterMap.mp hgs
    obtain ⟨i, hi⟩ := List.mem_iff_getElem?.mp hg
    obtain ⟨hwire, ⟨a, ha, hpsn⟩, ⟨d, hd, o, ho, hco⟩, hstart⟩ := hledger.retries hrep hi hgx hretry
    refine ⟨hwire, i, g, x, hi, hgx, hretry, ⟨a, ha, hpsn⟩, ⟨d, ?_, hd, o, ho, hco⟩, ?_⟩
    · have hall := run_transmission idle steps
      exact hall.mem_iff.mpr (List.mem_flatMap.mpr ⟨x.elem, RdmaWriteRun.mem_accepted hx, hd⟩)
    · intro k h hk hne hnear b hb
      rw [hpsn, hstart, Psn.ofPos_add_ofNat]
      exact ofPos_ne_of_grantsNear hi hk hne hnear ha hb

/-- A READ within one packet and an aligned write of three, both recorded and sent again. -/
theorem retransmissions_faithful_aligned :
    let attrs := QpTable.newWith { (default : QpAttr) with pmtu := 1, sendCq := some 0 }
    let read : SendWrRdma := ⟨⟨7, ibvSendSignaled, 0, 200, 0, 0, .rdmaRead⟩, 0x200, 0⟩
    let write : SendWrRdma := ⟨⟨8, ibvSendSignaled, 0, 600, 0, 0, .rdmaWrite⟩, 0x200, 0⟩
    let run := (default : RdmaWriteWorker).run
      [.process attrs (.write 0x100 read), .process attrs (.write 0x100 write), .maintainance]
    let tasks := (run.postedOn 0x100).map (fun x => PacketRetransmitTask.newWr 0x100 x.elem)
      ++ [.retransmitAll 0x100]
    let resent := ((default : PacketRetransmitWorker).run .linear tasks).resentOn 0x100
    resent.map WrChunk.psn = (List.range 4).map Psn.ofPos ∧
    ∀ c ∈ resent, ∃ x ∈ run.postedOn 0x100, ∃ d ∈ run.chunks ++ run.worker.unsent,
      d ∈ x.elem.descriptors ∧ ∃ o ∈ d.wire, c = o.setIsRetry := by
  intro attrs read write run tasks resent
  have hrep : ∀ s ∈ [RdmaWriteStep.process attrs (.write 0x100 read),
      .process attrs (.write 0x100 write), .maintainance], s.Repeatable 0x100 := by
    rintro s hs qp wr ⟨attrs', q, heq, -, hqp⟩
    simp only [List.mem_cons, List.not_mem_nil, or_false] at hs
    rcases hs with rfl | rfl | rfl
    · cases heq
      cases hqp
      exact ⟨by decide, show _ < _ by decide, fun p hp => by cases hp; decide⟩
    · cases heq
      cases hqp
      exact ⟨by decide, show _ < _ by decide, fun p hp => by cases hp; decide⟩
    · exact absurd heq (by simp)
  obtain ⟨ctx, gs, hledger, h⟩ := (retransmissions_faithful .linear 0x100).2 default _ default tasks
    rfl rfl rfl hrep (by decide +kernel)
  refine ⟨by decide +kernel, fun c hc => ?_⟩
  obtain ⟨-, i, g, x, hi, hx, -, -, hrest, -⟩ := h c hc
  refine ⟨x, ?_, hrest⟩
  rw [hledger.posted]
  exact List.mem_filterMap.mpr ⟨g, List.mem_of_getElem? hi, hx⟩

/-- **A READ longer than a packet is not sent again as it was.**  A READ of 512 bytes with packets
of 256 has one PSN and is one packet, and the write after it has the next PSN.  Sent again, the READ
is two packets of 256 bytes, and the second one has the PSN of the write. -/
theorem retransmission_of_read_overlaps :
    let attrs := QpTable.newWith { (default : QpAttr) with pmtu := 1, sendCq := some 0 }
    let read : SendWrRdma := ⟨⟨7, ibvSendSignaled, 0, 512, 0, 0, .rdmaRead⟩, 0, 0⟩
    let write : SendWrRdma := ⟨⟨8, ibvSendSignaled, 0, 100, 0, 0, .rdmaWrite⟩, 0, 0⟩
    let run := (default : RdmaWriteWorker).run
      [.process attrs (.write 0x100 read), .process attrs (.write 0x100 write), .maintainance]
    let tasks := (run.postedOn 0x100).map (fun x => PacketRetransmitTask.newWr 0x100 x.elem)
      ++ [.retransmitAll 0x100]
    let resent := ((default : PacketRetransmitWorker).run .linear tasks).resentOn 0x100
    let shown := fun c : WrChunk => (c.opcode, c.psn, c.len)
    (run.postedOn 0x100).map (fun x => (x.elem.psn, x.elem.reserved))
      = [(Psn.ofPos 0, some 1), (Psn.ofPos 1, some 1)] ∧
    (run.chunks.flatMap WrChunk.wire).map shown
      = [(.rdmaRead, Psn.ofPos 0, 512), (.rdmaWrite, Psn.ofPos 1, 100)] ∧
    resent.map shown
      = [(.rdmaRead, Psn.ofPos 0, 256), (.rdmaRead, Psn.ofPos 1, 256),
        (.rdmaWrite, Psn.ofPos 1, 100)] := by
  decide +kernel

end OpenRdma
