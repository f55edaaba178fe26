import OpenRdma.Workers.ReceiveSide

/-!
# How far the receive base comes

The receive tracker of a queue pair is told the PSN of every packet of a write, a send or a READ
response, and of every READ request that asks for an acknowledgement.  A READ request that does not
is answered, but its PSN is never marked: the base stays behind it for good.

* **`recvBase_reaches_iff`** — with all packets below `n` handled, the base has reached `n` exactly
  if none of them is a READ request without acknowledgement.
-/

namespace OpenRdma

/-! ## Packets -/

/-- The report is the header of the packet at position `p` of the queue pair. -/
def ReportMeta.IsPacket (qpn : UInt32) (p : ℕ) : ReportMeta → Prop
  | .headerWrite x => x.dqpn = qpn ∧ x.psn = Psn.ofPos p
  | .headerRead x => x.dqpn = qpn ∧ x.psn = Psn.ofPos p
  | _ => False

/-- Its PSN is marked in the receive tracker. -/
def ReportMeta.marks : ReportMeta → Bool
  | .headerWrite _ => true
  | .headerRead x => x.ackReq
  | _ => false

/-- The position that a header reports, on a stream that stays below the wrap. -/
def ReportMeta.seq : ReportMeta → ℕ
  | .headerWrite x => x.psn.val.toNat
  | .headerRead x => x.psn.val.toNat
  | _ => 0

/-- The positions marked by some headers. -/
def markedPositions (metas : List ReportMeta) : List ℕ :=
  (metas.filter ReportMeta.marks).map ReportMeta.seq

namespace ReportMeta.IsPacket

variable {qpn : UInt32} {p : ℕ} {m : ReportMeta}

lemma seq_eq (h : m.IsPacket qpn p) (hp : p < 2 ^ 23) : m.seq = p := by
  have hpos : (Psn.ofPos p).val.toNat = p := by
    rw [Psn.ofPos_val]
    exact Nat.mod_eq_of_lt (by omega)
  cases m with
  | headerWrite x | headerRead x => rw [seq, h.2, hpos]
  | _ => exact absurd h id

lemma qpn_eq (h : m.IsPacket qpn p) : m.qpn = qpn := by
  cases m with
  | headerWrite x | headerRead x => exact h.1
  | _ => exact absurd h id

/-- What the header does to the receive tracker. -/
lemma onMeta (h : m.IsPacket qpn p) (t : LocalAckTracker) :
    t.onMeta m = if m.marks then t.ackOne (Psn.ofPos p) else (t, none) := by
  cases m with
  | headerWrite x | headerRead x =>
    simp only [LocalAckTracker.onMeta, marks, h.2]
    rfl
  | _ => exact absurd h id

end ReportMeta.IsPacket

/-! ## Runs -/

/-- **What the tracker knows after some headers**: the positions marked, with the base at the first
one missing. -/
theorem headers_track {h : MetaHandler} {qpn : UInt32} {metas : List ReportMeta}
    {rt : RemoteAckTracker} (alive : h.panicked = none) (hl : h.recvTable.getQp qpn = some default)
    (hr : h.sendTable.getQp qpn = some rt) (packets : ∀ m ∈ metas, ∃ p < 2 ^ 23, m.IsPacket qpn p) :
    ∃ lt B, (h.run metas).1.panicked = none ∧ (h.run metas).1.recvTable.getQp qpn = some lt ∧
      (∃ rt, (h.run metas).1.sendTable.getQp qpn = some rt) ∧
      lt.psnTracker.TracksSet B (fun q => decide (q ∈ markedPositions metas)) := by
  induction metas using List.reverseRecOn with
  | nil => exact ⟨default, 0, alive, hl, ⟨rt, hr⟩, PsnTracker.tracksSet_default⟩
  | append_singleton metas m ih =>
    obtain ⟨lt, B, halive, hlt, ⟨rt', hrt⟩, htracks⟩ := ih fun m' hm' =>
      packets m' (List.mem_append_left _ hm')
    obtain ⟨p, hp, hm⟩ := packets m (List.mem_append_right _ (List.mem_singleton_self m))
    have hcnp : ∀ x, m ≠ .cnp x := by
      rintro x rfl
      exact hm
    have hqpn := hm.qpn_eq
    obtain ⟨-, hl', hr', halive'⟩ := handleMeta_tasks halive hcnp (hqpn ▸ hlt) (hqpn ▸ hrt)
    rw [hqpn] at hl' hr'
    rw [MetaHandler.run_append]
    rw [hm.onMeta] at hl'
    have hmarked : markedPositions (metas ++ [m])
        = markedPositions metas ++ if m.marks then [p] else [] := by
      cases hmarks : m.marks <;> simp [markedPositions, hmarks, hm.seq_eq hp]
    cases hmarks : m.marks with
    | false =>
      rw [hmarks] at hl' hmarked
      refine ⟨lt, B, halive', hl', ⟨_, hr'⟩, ?_⟩
      rw [hmarked]
      simpa using htracks
    | true =>
      rw [hmarks] at hl' hmarked
      have hbound : ∀ q, decide (q ∈ markedPositions metas) = true → q < 2 ^ 23 := by
        intro q hq
        obtain ⟨m', hm', rfl⟩ := List.mem_map.mp (of_decide_eq_true hq)
        obtain ⟨p', hp', hpacket⟩ :=
          packets m' (List.mem_append_left _ (List.mem_of_mem_filter hm'))
        rwa [hpacket.seq_eq hp']
      obtain ⟨B', -, htracks', -⟩ := htracks.ackOne hbound hp
      refine ⟨(lt.ackOne (Psn.ofPos p)).1, B', halive', hl', ⟨_, hr'⟩, ?_⟩
      have hset : (fun q => decide (q ∈ markedPositions metas) || decide (q = p))
          = fun q => decide (q ∈ markedPositions (metas ++ [m])) := by
        funext q
        simp [hmarked]
      rw [← hset]
      exact htracks'

/-- **The receive base reflects what was received, but for READ requests without acknowledgement.**
Let `packets` be a stream of packets from PSN 0 on, below half the circle, whose headers are handled
in any order and any number of times.  Once all packets below `n` have been handled, the base is at
`n` or past it exactly if every packet below `n` marks its PSN — that is, if none of them is a READ
request without `ack_req`. -/
theorem recvBase_reaches_iff (h : MetaHandler) (qpn : UInt32) {rt : RemoteAckTracker}
    (alive : h.panicked = none) (hl : h.recvTable.getQp qpn = some default)
    (hr : h.sendTable.getQp qpn = some rt) (packets : List ReportMeta)
    (below : packets.length ≤ 2 ^ 23)
    (stream : ∀ (i : ℕ) (m : ReportMeta), packets[i]? = some m → m.IsPacket qpn i)
    (metas : List ReportMeta) (received : ∀ m ∈ metas, m ∈ packets) (n : ℕ)
    (hn : n ≤ packets.length) (all : ∀ m ∈ packets.take n, m ∈ metas) :
    ∃ lt B, (h.run metas).1.recvTable.getQp qpn = some lt ∧ lt.basePsn = Psn.ofPos B ∧ B ≤ 2 ^ 23 ∧
      (n ≤ B ↔ ∀ m ∈ packets.take n, m.marks = true) := by
  have hpacket : ∀ m ∈ metas, ∃ p < 2 ^ 23, packets[p]? = some m ∧ m.IsPacket qpn p := by
    intro m hm
    obtain ⟨i, hi⟩ := List.mem_iff_getElem?.mp (received m hm)
    have hlt : i < packets.length := (List.getElem?_eq_some_iff.mp hi).1
    exact ⟨i, by omega, hi, stream i m hi⟩
  obtain ⟨lt, B, -, hlt, -, htracks⟩ := headers_track alive hl hr fun m hm => by
    obtain ⟨p, hp, -, hm⟩ := hpacket m hm
    exact ⟨p, hp, hm⟩
  -- a marked position is that of a packet that marks
  have hmarked : ∀ i < n, ∀ m, packets[i]? = some m →
      (i ∈ markedPositions metas ↔ m.marks = true) := by
    intro i hi m hm
    have hi23 : i < 2 ^ 23 := by omega
    constructor
    · intro hmem
      obtain ⟨m', hm', hseq⟩ := List.mem_map.mp hmem
      obtain ⟨hm', hmarks⟩ := List.mem_filter.mp hm'
      obtain ⟨p, hp, hget, hpm⟩ := hpacket m' hm'
      rw [hpm.seq_eq hp] at hseq
      rw [hseq, hm] at hget
      rw [Option.some.inj hget]
      exact hmarks
    · intro hmarks
      have hmem : m ∈ metas := all m (List.mem_of_getElem? (i := i) (by
        rw [List.getElem?_take_of_lt hi, hm]))
      exact List.mem_map.mpr ⟨m, List.mem_filter.mpr ⟨hmem, hmarks⟩, (stream i m hm).seq_eq hi23⟩
  refine ⟨lt, B, hlt, htracks.tracks.1, ?_, ?_, ?_⟩
  · refine htracks.base_le fun q hq => ?_
    obtain ⟨m, hm, rfl⟩ := List.mem_map.mp (of_decide_eq_true hq)
    obtain ⟨p, hp, -, hpm⟩ := hpacket m (List.mem_of_mem_filter hm)
    rwa [hpm.seq_eq hp]
  · intro hnB m hm
    obtain ⟨i, hi⟩ := List.mem_iff_getElem?.mp hm
    have hin : i < n := by
      have := (List.getElem?_eq_some_iff.mp hi).1
      rw [List.length_take] at this
      omega
    rw [List.getElem?_take_of_lt hin] at hi
    exact (hmarked i hin m hi).mp (of_decide_eq_true (htracks.below i (by omega)))
  · intro hmarks
    by_contra hlt
    have hB : B < packets.length := by omega
    have hget : packets[B]? = some packets[B] := List.getElem?_eq_getElem hB
    have hmem : packets[B] ∈ packets.take n := List.mem_of_getElem? (i := B) (by
      rw [List.getElem?_take_of_lt (by omega), hget])
    have := (hmarked B (by omega) _ hget).mpr (hmarks _ hmem)
    exact of_decide_eq_false htracks.clear this

/-- The header of a READ request with PSN 0. -/
def readHeader (ackReq : Bool) : ReportMeta :=
  .headerRead { (default : HeaderReadMeta) with psn := Psn.ofPos 0, dqpn := 0x100, ackReq }

/-- The header of a write of one packet with PSN 1. -/
def writeHeader : ReportMeta :=
  .headerWrite { (default : HeaderWriteMeta) with
    pos := .only, msn := 1, psn := Psn.ofPos 1, dqpn := 0x100 }

/-- A READ request that asks for an acknowledgement, handled after the write that follows it. -/
theorem recvBase_reaches_iff_signaled :
    ∃ lt B, ((default : MetaHandler).run [writeHeader, readHeader true]).1.recvTable.getQp 0x100 =
      some lt ∧ lt.basePsn = Psn.ofPos B ∧ 2 ≤ B := by
  obtain ⟨lt, B, hlt, hB, -, hiff⟩ := recvBase_reaches_iff default 0x100 rfl rfl rfl
    [readHeader true, writeHeader] (by decide)
    (fun i m hi => by
      match i with
      | 0 => cases hi; exact ⟨rfl, rfl⟩
      | 1 => cases hi; exact ⟨rfl, rfl⟩
      | i + 2 => cases hi)
    [writeHeader, readHeader true] (by decide) 2 (by decide) (by decide)
  exact ⟨lt, B, hlt, hB, hiff.mpr (by decide)⟩

/-- **Without acknowledgement the base stays.**  Both packets are handled, in order, and the base is
still at 0. -/
theorem recvBase_stuck_at_read :
    (((default : MetaHandler).run [readHeader false, writeHeader]).1.recvTable.getQp 0x100).map
      LocalAckTracker.basePsn = some (Psn.ofPos 0) := by
  decide

end OpenRdma
