import OpenRdma.Workers.RdmaRuns

/-!
# The PSNs of a queue pair's packets

A request is given its PSNs before it is cut into packets, by a formula of its own (`numPsn`).  As
long as that formula counts the packets, the packets of all the requests accepted on a queue pair
are numbered one after the other, and a completion is registered with the PSN after the last packet
of its request.

* **`packets_psns`** — the formula is right exactly for the requests of `SendWrRdma.Fits`; and a run
  of exact steps numbers its packets consecutively.
-/

namespace OpenRdma

/-- The packets of an accepted request.  A READ request is a single packet, whatever its length. -/
def SendQueueElem.packets (e : SendQueueElem) : List WrChunk :=
  if e.wr.opcode = .rdmaRead then [RdmaWriteWorker.readChunk e]
  else match wrPacketFragmenter e.wr e.qpParam e.psn with
    | .ok it => it.collect.items
    | .error _ => []

/-- What is promised of a request on a queue pair with attributes `qp`. -/
structure SendWrRdma.Exact (wr : SendWrRdma) (qp : QpAttr) : Prop where
  remote : wr.raddr.toNat + wr.length.toNat + 0x10000 < 2 ^ 64
  localFits : wr.LocalFits
  /-- A request with payload starts at a packet boundary or stays within one packet. -/
  fits : wr.opcode ≠ .rdmaRead → ∀ p, convertIbvMtuToU16 qp.pmtu = some p → wr.Fits p.toUInt64.toNat
  /-- A signaled request can be registered. -/
  signalable : wr.isSignaled = true → qp.sendCq ≠ none ∧ wr.opcode ≠ .rdmaReadResp

/-- Every request that the step hands to the queue pair is exact. -/
def RdmaWriteStep.Exact (s : RdmaWriteStep) (qpn : UInt32) : Prop :=
  ∀ qp wr, s.Asks qpn qp wr → wr.Exact qp

/-! ## One request -/

/-- The PSNs set aside are those of the packets exactly for the requests that fit. -/
lemma wrPacketFragmenter_length_iff {wr : SendWrRdma} {qpParam : QpParams} {p : UInt16} (pos : ℕ)
    (hp : convertIbvMtuToU16 qpParam.pmtu = some p)
    (hremote : wr.raddr.toNat + wr.length.toNat + 0x10000 < 2 ^ 64) :
    ∃ it n, wrPacketFragmenter wr qpParam (Psn.ofPos pos) = .ok it ∧
      numPsn qpParam.pmtu wr.raddr wr.length = some n ∧
      (it.collect.crashed = none ∧ it.collect.items.length = n.toNat
        ↔ wr.LocalFits ∧ wr.Fits p.toUInt64.toNat) := by
  have hs : wr.Sendable p.toUInt64.toNat := wr.sendable hp hremote
  obtain ⟨it, hit, -, hitems, hcrash⟩ :
      ∃ it, wrPacketFragmenter wr qpParam (Psn.ofPos pos) = .ok it ∧ _ :=
    wrPacketFragmenter_eq hs hp rfl
  obtain ⟨n, hn, hcount⟩ := numPsn_packetCount hp hs
  refine ⟨it, n, hit, hn, ?_⟩
  rw [hcrash]
  refine and_congr_right (fun hl => ?_)
  rw [hitems hl, packetCut_chunks, List.length_map, List.length_range, hcount]
  split
  · next hfits => exact iff_of_true rfl hfits
  · next hfits => exact iff_of_false (by omega) hfits

variable {ctx : SendQueueContext} {qpn : UInt32}

/-- The packets of a granted request carry the PSNs of its grant. -/
lemma Grant.From.packets_psn {g : Grant} {pos : ℕ}
    (h : Grant.From qpn ctx g) (hexact : g.wr.Exact g.qp) (hpsn : ctx.psn = Psn.ofPos pos)
    {x : Posted} (hx : g.posted = some x) :
    x.elem.packets.map WrChunk.psn
      = (List.range g.numPsn.toNat).map fun j => Psn.ofPos (pos + j) := by
  have helem := h.elem x hx
  have hneeded := h.needed
  rw [helem, SendQueueElem.packets]
  by_cases hop : g.wr.opcode = .rdmaRead
  · rw [psnsNeeded, if_pos hop] at hneeded
    rw [if_pos hop, ← Option.some.inj hneeded]
    show [ctx.psn] = _
    rw [hpsn]
    rfl
  · rw [psnsNeeded, if_neg hop] at hneeded
    rw [if_neg hop]
    obtain ⟨p, hp⟩ : ∃ p, convertIbvMtuToU16 g.qp.pmtu = some p := by
      cases hp : convertIbvMtuToU16 g.qp.pmtu with
      | none => simp [OpenRdma.numPsn, hp] at hneeded
      | some p => exact ⟨p, rfl⟩
    have hs : g.wr.Sendable p.toUInt64.toNat := g.wr.sendable hp hexact.remote
    obtain ⟨n, hn, hcount⟩ := numPsn_packetCount hp hs
    obtain rfl : n = g.numPsn := Option.some.inj (hn.symm.trans hneeded)
    obtain ⟨it, hit, -, hitems, -⟩ :
        ∃ it, wrPacketFragmenter g.wr (g.qp.params ctx.msn) (Psn.ofPos pos) = .ok it ∧ _ :=
      wrPacketFragmenter_eq hs hp rfl
    show (match wrPacketFragmenter g.wr (g.qp.params ctx.msn) ctx.psn with
      | .ok it => it.collect.items
      | .error _ => []).map WrChunk.psn = _
    rw [hpsn, hit]
    simp only
    rw [hitems hexact.localFits, packetCut_chunks, hcount, if_pos (hexact.fits hop p hp),
      List.map_map]
    rfl

lemma Grant.From.numPsn_pos {g : Grant}
    (h : Grant.From qpn ctx g) : 0 < g.numPsn.toNat := psnsNeeded_pos h.needed

/-- A registered request has the MSN of its grant and ends after its PSNs; it is registered as what
it is. -/
lemma Grant.From.event_meta {g : Grant}
    (h : Grant.From qpn ctx g) {x : Posted} (hx : g.posted = some x) {e : SendEvent}
    (he : x.event = some e) : e.msgMeta.msn = ctx.msn ∧ e.msgMeta.endPsn = ctx.psn + g.numPsn ∧
      eventOp g.wr = some e.op := by
  obtain ⟨q, -, hev⟩ := h.event x hx
  rcases RdmaWriteWorker.signalEvent_eq_ok hev with ⟨-, o, hop, heq⟩ | ⟨-, hnone⟩
  · obtain rfl := Option.some.inj (he.symm.trans heq)
    exact ⟨rfl, rfl, hop⟩
  · exact absurd (he.symm.trans hnone) (by simp)

/-! ## All requests -/

variable {gs : List Grant}

/-- Ranges that follow each other without gaps are one range. -/
lemma flatMap_grantPos {f : Grant → List Psn}
    (h : ∀ i g, gs[i]? = some g →
      f g = (List.range g.numPsn.toNat).map fun j => Psn.ofPos (grantPos gs i + j)) :
    gs.flatMap f = (List.range (grantPos gs gs.length)).map Psn.ofPos := by
  induction gs using List.reverseRecOn with
  | nil => rfl
  | append_singleton gs g ih =>
    have hgs : gs.flatMap f = (List.range (grantPos gs gs.length)).map Psn.ofPos := by
      refine ih (fun i g' hi => ?_)
      have hlt : i < gs.length := (List.getElem?_eq_some_iff.mp hi).1
      rw [h i g' (by rw [List.getElem?_append_left hlt, hi]), grantPos_append_of_le hlt.le]
    have hg := h gs.length g (by simp)
    rw [grantPos_append_of_le le_rfl] at hg
    rw [List.flatMap_append, hgs, List.flatMap_singleton, hg, List.length_append,
      List.length_singleton, grantPos_snoc, List.range_add, List.map_append, List.map_map]
    rfl

/-- Fewer than `2 ^ 24` consecutive positions have different PSNs. -/
lemma nodup_ofPos (k n m : ℕ) (hm : m ≤ 2 ^ 24) :
    ((((List.range n).map Psn.ofPos).drop k).take m).Nodup := by
  rw [List.nodup_iff_getElem?_ne_getElem?]
  intro i j hij hj
  rw [List.length_take, List.length_drop, List.length_map, List.length_range] at hj
  have hpos : ∀ l < min m (n - k), ((((List.range n).map Psn.ofPos).drop k).take m)[l]?
      = some (Psn.ofPos (k + l)) := by
    intro l hl
    rw [List.getElem?_take_of_lt (by omega), List.getElem?_drop, List.getElem?_map,
      List.getElem?_range (by omega)]
    rfl
  rw [hpos i (by omega), hpos j hj, Ne, Option.some_inj, Psn.ofPos_eq_iff]
  omega

/-- The packets of all requests accepted on a queue pair, in order. -/
def RdmaWriteRun.packetsOn (r : RdmaWriteRun) (qpn : UInt32) : List WrChunk :=
  (r.postedOn qpn).flatMap fun x => x.elem.packets

variable {steps : List RdmaWriteStep}

/-- In a run of exact steps every grant was posted. -/
lemma Ledger.posted_isSome {r : RdmaWriteRun} (h : Ledger qpn steps r ctx gs)
    (hexact : ∀ s ∈ steps, s.Exact qpn) {g : Grant} (hg : g ∈ gs) :
    g.wr.Exact g.qp ∧ ∃ x, g.posted = some x := by
  obtain ⟨s, hs, hask⟩ := h.asked g hg
  have hwr := hexact s hs _ _ hask
  refine ⟨hwr, ?_⟩
  cases hx : g.posted with
  | some x => exact ⟨x, rfl⟩
  | none =>
    obtain ⟨i, hi⟩ := List.mem_iff_getElem?.mp hg
    obtain ⟨ctx, hfrom, -⟩ := h.grants i g hi
    obtain ⟨hsig, hcq | hop⟩ := hfrom.refused hx
    · exact absurd hcq (hwr.signalable hsig).1
    · exact absurd hop (hwr.signalable hsig).2

lemma Ledger.packetsOn_psn {r : RdmaWriteRun} (h : Ledger qpn steps r ctx gs)
    (hexact : ∀ s ∈ steps, s.Exact qpn) :
    (r.packetsOn qpn).map WrChunk.psn = (List.range (grantPos gs gs.length)).map Psn.ofPos := by
  rw [RdmaWriteRun.packetsOn, h.posted, List.filterMap_eq_flatMap_toList, List.flatMap_assoc,
    List.map_flatMap]
  refine flatMap_grantPos (fun i g hi => ?_)
  obtain ⟨hwr, x, hx⟩ := h.posted_isSome hexact (List.mem_of_getElem? hi)
  obtain ⟨ctx, hfrom, -, hpsn⟩ := h.grants i g hi
  rw [hx, Option.toList_some, List.flatMap_singleton]
  exact hfrom.packets_psn hwr hpsn hx

/-- A registered completion ends one after the last packet of its request. -/
lemma Ledger.event_last {r : RdmaWriteRun} (h : Ledger qpn steps r ctx gs)
    (hexact : ∀ s ∈ steps, s.Exact qpn) {x : Posted} (hx : x ∈ r.postedOn qpn) {e : SendEvent}
    (he : x.event = some e) :
    ∃ last, x.elem.packets.getLast? = some last ∧ e.msgMeta.endPsn = last.psn + (1 : UInt32) := by
  rw [h.posted] at hx
  obtain ⟨g, hg, hgx⟩ := List.mem_filterMap.mp hx
  obtain ⟨i, hi⟩ := List.mem_iff_getElem?.mp hg
  obtain ⟨ctx, hfrom, -, hpsn⟩ := h.grants i g hi
  have hpackets := hfrom.packets_psn (h.posted_isSome hexact hg).1 hpsn hgx
  obtain ⟨n, hn⟩ := Nat.exists_eq_add_one.mpr hfrom.numPsn_pos
  rw [hn, List.range_succ, List.map_append, List.map_singleton] at hpackets
  have hlast : x.elem.packets.getLast?.map WrChunk.psn = some (Psn.ofPos (grantPos gs i + n)) := by
    rw [← List.getLast?_map, hpackets, List.getLast?_concat]
  obtain ⟨last, hl, hlp⟩ := Option.map_eq_some_iff.mp hlast
  refine ⟨last, hl, ?_⟩
  rw [(hfrom.event_meta hgx he).2.1, hlp, hpsn, Psn.ofPos_add, Psn.ofPos_add, hn]
  rfl

/-- **The PSNs of packets.**  The PSNs set aside for a request are as many as its packets exactly if
the request starts at a packet boundary or stays within one packet (and its local range does not
overflow, which panics).  In a run whose steps are exact, the packets of all the requests accepted
on a queue pair have consecutive PSNs, different ones within `2 ^ 24` packets, and every completion
is registered with the PSN after the last packet of its request. -/
theorem packets_psns (qpn : UInt32) :
    (∀ (wr : SendWrRdma) (qpParam : QpParams) (pos : ℕ) (p : UInt16),
      convertIbvMtuToU16 qpParam.pmtu = some p →
      wr.raddr.toNat + wr.length.toNat + 0x10000 < 2 ^ 64 →
      ∃ it n, wrPacketFragmenter wr qpParam (Psn.ofPos pos) = .ok it ∧
        numPsn qpParam.pmtu wr.raddr wr.length = some n ∧
        (it.collect.crashed = none ∧ it.collect.items.length = n.toNat
          ↔ wr.LocalFits ∧ wr.Fits p.toUInt64.toNat)) ∧
    ∀ (w : RdmaWriteWorker) (steps : List RdmaWriteStep),
      w.sqCtxTable.getQp qpn = some default → (∀ s ∈ steps, s.Exact qpn) →
      let run := w.run steps
      let psns := (run.packetsOn qpn).map WrChunk.psn
      psns = (List.range psns.length).map Psn.ofPos ∧
      (∀ k, ((psns.drop k).take (2 ^ 24)).Nodup) ∧
      ∀ x ∈ run.postedOn qpn, ∀ e ∈ x.event, ∃ last, x.elem.packets.getLast? = some last ∧
        e.msgMeta.endPsn = last.psn + (1 : UInt32) := by
  refine ⟨fun wr qpParam pos p hp hremote => wrPacketFragmenter_length_iff pos hp hremote, ?_⟩
  intro w steps fresh hexact run psns
  obtain ⟨ctx, gs, hledger⟩ := run_ledger fresh steps
  have hpsns : psns = (List.range (grantPos gs gs.length)).map Psn.ofPos :=
    hledger.packetsOn_psn hexact
  have hlen : psns.length = grantPos gs gs.length := by
    rw [hpsns, List.length_map, List.length_range]
  refine ⟨by rw [hlen]; exact hpsns, fun k => ?_, fun x hx e he => hledger.event_last hexact hx he⟩
  rw [hpsns]
  exact nodup_ofPos k _ _ le_rfl

/-- Two aligned writes of three packets each. -/
theorem packets_psns_aligned :
    let attrs := QpTable.newWith { (default : QpAttr) with pmtu := 1, sendCq := some 0 }
    let wr : SendWrRdma := ⟨⟨7, ibvSendSignaled, 0, 600, 0, 0, .rdmaWrite⟩, 0x200, 0⟩
    let run := (default : RdmaWriteWorker).run
      [.process attrs (.write 0x100 wr), .process attrs (.write 0x100 wr)]
    (run.packetsOn 0x100).map WrChunk.psn = (List.range 6).map Psn.ofPos ∧
    ∀ x ∈ run.postedOn 0x100, ∀ e ∈ x.event, ∃ last, x.elem.packets.getLast? = some last ∧
      e.msgMeta.endPsn = last.psn + (1 : UInt32) := by
  intro attrs wr run
  have hexact : ∀ s ∈ [RdmaWriteStep.process attrs (.write 0x100 wr),
      .process attrs (.write 0x100 wr)], s.Exact 0x100 := by
    intro s hs qp wr' hask
    obtain rfl : s = .process attrs (.write 0x100 wr) := by simpa using hs
    obtain ⟨_, _, ⟨rfl, rfl, rfl⟩, -, hqp⟩ := hask
    obtain rfl : { (default : QpAttr) with pmtu := 1, sendCq := some 0 } = qp := Option.some.inj hqp
    exact ⟨by decide, show _ < _ by decide, fun _ p hp => by cases hp; decide, by decide⟩
  obtain ⟨hpsns, -, hlast⟩ := (packets_psns 0x100).2 default _ rfl hexact
  have hlen : ((run.packetsOn 0x100).map WrChunk.psn).length = 6 := by decide +kernel
  exact ⟨by rw [← hlen]; exact hpsns, hlast⟩

/-- **An unaligned request overlaps the next one.**  A write of 256 bytes from address 1 on crosses
a packet boundary; it is given one PSN but has two packets, and the next request starts with the PSN
of the second. -/
theorem packets_psns_unaligned :
    let attrs := QpTable.newWith { (default : QpAttr) with pmtu := 1, sendCq := some 0 }
    let wr : SendWrRdma := ⟨⟨7, ibvSendSignaled, 0, 256, 0, 0, .rdmaWrite⟩, 1, 0⟩
    let run := (default : RdmaWriteWorker).run
      [.process attrs (.write 0x100 wr), .process attrs (.write 0x100 wr)]
    numPsn 1 wr.raddr wr.length = some 1 ∧
    (run.postedOn 0x100).map (fun x => x.elem.packets.map WrChunk.psn)
      = [[Psn.ofPos 0, Psn.ofPos 1], [Psn.ofPos 1, Psn.ofPos 2]] ∧
    (run.postedOn 0x100).map (fun x => x.event.map fun e => e.msgMeta.endPsn)
      = [some (Psn.ofPos 1), some (Psn.ofPos 2)] := by
  decide +kernel

end OpenRdma
