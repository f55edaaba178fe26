import OpenRdma.Rx.Receiver

/-!
# The receiver writes inside the regions only

Whatever arrives, the receiver writes a packet or a flag only inside the region of the queue pair it
was admitted for, and only if the queue pair may be written to and the key is the right one.
Packets that are not the first of their message carry neither address nor key; the manager keeps
those of the first packet, and checks the whole message again for every packet.

* `Opens`, `Permitted` — the first packet of a message; an admission that was allowed.
  **`Isolation.step`** — all admissions are.
* **`rx_memory_isolated`** — every write of every run.
-/

namespace OpenRdma

open Function (update update_self update_of_ne)

/-- A write of some bytes is inside the region of a queue pair, and does not wrap. -/
structure Inside (cfg : RxQpConfig) (addr : BitVec 64) (bytes : ℕ) : Prop where
  above : cfg.physicalBase.toNat ≤ addr.toNat
  below : addr.toNat + bytes ≤ cfg.physicalBase.toNat + cfg.regionBytes.toNat
  noWrap : addr.toNat + bytes ≤ 2 ^ 64

/-! ## Packets -/

namespace RxMessageContext

variable {ctx : RxMessageContext} {cfg : RxQpConfig} {p : RxParsedPacket}

/-- A packet that passes the check ends within the message. -/
lemma segment_le (h : ctx.segment cfg p = true) :
    (messageOffset cfg (p.psn - ctx.start)).toNat + p.payloadBytes.toNat ≤ ctx.bytes.toNat := by
  simp only [segment, Bool.and_eq_true, bne_iff_ne, beq_iff_eq] at h
  obtain ⟨⟨-, hne⟩, hbytes⟩ := h
  have h25 := ctx.bytes.isLt
  have h13 := p.payloadBytes.isLt
  have hwide : (ctx.bytes.setWidth 38 : BitVec 38).toNat = ctx.bytes.toNat := by
    rw [BitVec.toNat_setWidth]
    omega
  have hpayload : (p.payloadBytes.setWidth 38 : BitVec 38).toNat = p.payloadBytes.toNat := by
    rw [BitVec.toNat_setWidth]
    omega
  have hpos : (ctx.expectedBytes cfg (p.psn - ctx.start)).toNat ≠ 0 :=
    fun hz => hne (BitVec.eq_of_toNat_eq hz)
  rw [← hpayload, hbytes]
  unfold expectedBytes at hpos ⊢
  simp only [toNat_smaller] at hpos ⊢
  split at hpos
  · rename_i hlt
    rw [BitVec.lt_def, hwide] at hlt
    rw [if_pos (by rw [BitVec.lt_def, hwide]; exact hlt), BitVec.toNat_sub, hwide]
    omega
  · simp at hpos

/-- The address of a packet that passes the checks, as a number. -/
lemma physical_toNat (ha : ctx.access cfg = true) (hs : ctx.segment cfg p = true) :
    (ctx.physical cfg p).toNat = cfg.physicalBase.toNat + (ctx.addr.toNat - cfg.virtualBase.toNat) +
      (messageOffset cfg (p.psn - ctx.start)).toNat := by
  obtain ⟨-, -, -, hpos, habove, -, -, hend⟩ := access_iff.1 ha
  have hle := segment_le hs
  have h1 := ctx.addr.isLt
  have h2 := cfg.virtualBase.isLt
  have h3 := cfg.physicalBase.isLt
  simp only [segment, Bool.and_eq_true, bne_iff_ne, beq_iff_eq] at hs
  have h38 := (messageOffset cfg (p.psn - ctx.start)).isLt
  simp only [physical, physicalMessageStart, mrOffset, BitVec.toNat_setWidth, BitVec.toNat_add,
    BitVec.toNat_sub]
  have hpayload : p.payloadBytes.toNat ≠ 0 := by
    intro hz
    refine hs.1.2 ?_
    rw [← hs.2]
    apply BitVec.eq_of_toNat_eq
    simp [hz]
  omega

/-- **A packet that passes the checks is written inside the region.** -/
theorem physical_inside (ha : ctx.access cfg = true) (hs : ctx.segment cfg p = true) :
    Inside cfg (ctx.physical cfg p) p.payloadBytes.toNat := by
  obtain ⟨-, -, -, -, habove, hbelow, -, hend⟩ := access_iff.1 ha
  have hle := segment_le hs
  have hphysical := physical_toNat ha hs
  refine ⟨?_, ?_, ?_⟩ <;> rw [hphysical] <;> omega

end RxMessageContext

/-! ## Admissions -/

/-- A packet is the first one of the message of another. -/
structure Opens (cfg : RxQpConfig) (b a : RqAdmission) : Prop where
  qp : b.admitted.qp = a.admitted.qp
  first : b.packet.first = true
  messageBytes : a.admitted.messageBytes = b.packet.messageBytes
  messageLastPsn : a.admitted.messageLastPsn = b.admitted.messageLastPsn
  dmaAddr : a.admitted.dmaAddr.toNat = cfg.physicalBase.toNat +
    (b.packet.remoteAddr.toNat - cfg.virtualBase.toNat) +
      (RxMessageContext.messageOffset cfg (a.packet.psn - b.packet.psn)).toNat

/-- An admission that was allowed: the first packet of the message had the key of the region. -/
structure Permitted (cfg : RxQpConfig) (before : List RqAdmission) (a : RqAdmission) : Prop where
  valid : cfg.valid = true
  qpn : cfg.qpn = a.admitted.qpn
  inside : Inside cfg a.admitted.dmaAddr a.admitted.payloadBytes.toNat
  remoteWrite : cfg.remoteWrite = true
  opened : ∃ b ∈ before ++ [a], Opens cfg b a ∧ b.packet.rkey = cfg.rkey

/-- The message that an admitted packet opened. -/
def RqAdmission.opening (b : RqAdmission) : RxMessageContext where
  start := b.packet.psn
  last := b.admitted.messageLastPsn
  addr := b.packet.remoteAddr
  rkey := b.packet.rkey
  bytes := b.packet.messageBytes

/-- What was admitted was allowed, and the message in progress is one that was opened. -/
structure Isolation (m : RxRqBitmapManager) (h : RqHistory) : Prop where
  permitted : EachAfter (fun before a => Permitted (m.cfgs a.admitted.qp) before a) h.admissions
  context : ∀ qp, (m.states qp).contextValid = true →
    ∃ b ∈ h.admissions, b.admitted.qp = qp ∧ b.packet.first = true ∧
    (m.states qp).stored = b.opening

section Window

variable {m m' : RxRqBitmapManager} {h : RqHistory} {qp : RxQpIndex} {p : RxParsedPacket}

lemma isolation_initial (packets : RxQpIndex → RxWindowIndex → RxParsedPacket)
    (age : RxQpIndex → RxWindowIndex → BitVec 8) : Isolation (.initial packets age) .empty where
  permitted := eachAfter_nil
  context := by
    intro qp hvalid
    cases hvalid

/-- The message a packet is judged by was opened by an earlier packet or by the packet itself. -/
lemma Isolation.opening (hi : Isolation m h) (hj : m.Judged qp p) (acked : ℕ) :
    ∃ b ∈ h.admissions ++ [m.admission qp p acked], b.admitted.qp = qp ∧ b.packet.first = true ∧
      (m.states qp).context (m.cfgs qp) p = b.opening := by
  by_cases hest : (m.states qp).establishing p = true
  · refine ⟨m.admission qp p acked, by simp, rfl, ?_, ?_⟩
    · simp only [RxRqState.establishing, Bool.and_eq_true] at hest
      exact hest.1.2
    · simp only [RqAdmission.opening, RxRqBitmapManager.admission, RxRqState.admitted,
        RxRqState.context, if_pos hest]
  · have hbelongs := hj.belongs
    simp only [RxRqState.belongs, Bool.and_eq_true, Bool.or_eq_true] at hbelongs
    obtain ⟨b, hmem, hqp, hfirst, hstored⟩ := hi.context qp (hbelongs.1.1.resolve_right hest)
    refine ⟨b, List.mem_append_left _ hmem, hqp, hfirst, ?_⟩
    rw [← hstored, RxRqState.context, if_neg hest]
    rfl

/-- **An admitted packet is allowed.** -/
theorem Isolation.admission_permitted (hi : Isolation m h) (hadmits : m.Admits qp p) (acked : ℕ) :
    Permitted (m.cfgs qp) h.admissions (m.admission qp p acked) := by
  obtain ⟨-, hwrite, hkey, -⟩ := RxMessageContext.access_iff.1 hadmits.access
  obtain ⟨b, hmem, hqp, hfirst, hctx⟩ := hi.opening hadmits.toJudged acked
  refine ⟨hadmits.valid, hadmits.qpn,
    RxMessageContext.physical_inside hadmits.access hadmits.segment, hwrite, b, hmem,
    ⟨hqp, hfirst, ?_, ?_, ?_⟩, ?_⟩
  · show ((m.states qp).context (m.cfgs qp) p).bytes = _
    rw [hctx]
    rfl
  · show ((m.states qp).context (m.cfgs qp) p).last = _
    rw [hctx]
    rfl
  · refine (RxMessageContext.physical_toNat hadmits.access hadmits.segment).trans ?_
    rw [hctx]
    rfl
  · rw [hkey, hctx]
    rfl

/-- **Every rule and method of the window keeps what it admitted allowed.** -/
theorem Isolation.step (hi : Isolation m h) (hw : RqInv m h) {l : RqLabel}
    (hs : m.step l = some m') : Isolation m' (m.observe l h) := by
  cases hw.grows hs with
  | same hcfgs hstates hadmissions hacked =>
    refine ⟨?_, ?_⟩
    · rw [hcfgs, hadmissions]
      exact hi.permitted
    · rw [hstates, hadmissions]
      exact hi.context
  | @configure index cfg hnone hacked hcfgs hstates hh =>
    -- before the start nothing has been admitted
    rw [hh] at hnone ⊢
    refine ⟨?_, ?_⟩
    · rw [hnone]
      exact eachAfter_nil
    · intro qp hvalid
      rw [hstates] at hvalid
      by_cases hqp : qp = index
      · subst hqp
        rw [update_self] at hvalid
        cases hvalid
      · rw [update_of_ne hqp] at hvalid
        obtain ⟨b, hmem, -⟩ := hi.context qp hvalid
        rw [hnone] at hmem
        cases hmem
  | @admits qp p hadmits hcfgs hstates hh =>
    rw [hh]
    refine ⟨?_, ?_⟩
    · show EachAfter _ (h.admissions ++ [m.admission qp p (h.acked qp)])
      rw [hcfgs]
      exact eachAfter_concat.2 ⟨hi.permitted, hi.admission_permitted hadmits _⟩
    · intro q hvalid
      rw [hstates] at hvalid ⊢
      by_cases hq : q = qp
      · subst hq
        rw [update_self]
        obtain ⟨b, hmem, hqp, hfirst, hctx⟩ := hi.opening hadmits.toJudged (h.acked q)
        refine ⟨b, hmem, hqp, hfirst, ?_⟩
        rw [← hctx, ← RxRqState.opened_stored]
        rfl
      · rw [update_of_ne hq] at hvalid ⊢
        obtain ⟨b, hmem, hb⟩ := hi.context q hvalid
        exact ⟨b, List.mem_append_left _ hmem, hb⟩

end Window

/-! ## Admitted packets on their way to the lanes -/

/-- An admitted packet is in a queue of the window. -/
def RxRqBitmapManager.Passing (m : RxRqBitmapManager) (p : RxAdmittedPacket) : Prop :=
  p ∈ m.admittedRouteQ.elems ∨ ∃ i, p ∈ (m.admittedQ i).elems

/-- A packet was admitted. -/
def RqHistory.Admitted (h : RqHistory) (p : RxAdmittedPacket) : Prop :=
  ∃ a ∈ h.admissions, a.admitted = p

section Passing

variable {m m' : RxRqBitmapManager} {h : RqHistory} {p : RxAdmittedPacket}

lemma RxRqBitmapManager.observe_admissions (l : RqLabel) :
    ∃ new, (m.observe l h).admissions = h.admissions ++ new := by
  unfold RxRqBitmapManager.observe
  split
  · split
    · rename_i packet _
      cases m.judge packet with
      | accept qp => exact ⟨_, rfl⟩
      | _ => exact ⟨[], (List.append_nil _).symm⟩
    · exact ⟨[], (List.append_nil _).symm⟩
  all_goals exact ⟨[], (List.append_nil _).symm⟩

lemma RqHistory.Admitted.observe (hp : h.Admitted p) (l : RqLabel) :
    (m.observe l h).Admitted p := by
  obtain ⟨a, hmem, ha⟩ := hp
  obtain ⟨new, hnew⟩ := m.observe_admissions (h := h) l
  exact ⟨a, by rw [hnew]; exact List.mem_append_left _ hmem, ha⟩

lemma RxRqBitmapManager.passing_iff : m.Passing p ↔ ∃ i, p ∈ m.route i := by
  simp only [Passing, route, List.mem_append, List.mem_filter, decide_eq_true_eq, exists_or]
  rw [or_comm]
  refine or_congr_right ⟨fun hp => ⟨p.lane, hp, rfl⟩, ?_⟩
  rintro ⟨-, hp, -⟩
  exact hp

/-- A packet in a queue of the window was there before, or has been admitted. -/
lemma passing_step {l : RqLabel} (hs : m.step l = some m') (hp : m'.Passing p) :
    m.Passing p ∨ (m.observe l h).Admitted p := by
  obtain ⟨new, hnew, hroute⟩ := RxRqBitmapManager.route_step (h := h) hs
  obtain ⟨i, hp⟩ := RxRqBitmapManager.passing_iff.1 hp
  obtain ⟨passed, -, -, hpassed⟩ := hroute i
  have hmem := List.mem_append_right passed hp
  rw [hpassed, List.mem_append] at hmem
  refine hmem.imp (fun hp => RxRqBitmapManager.passing_iff.2 ⟨i, hp⟩) fun hp => ?_
  obtain ⟨a, ha, rfl⟩ := List.mem_map.1 (List.mem_filter.1 hp).1
  exact ⟨a, by rw [hnew]; exact List.mem_append_right _ ha, rfl⟩

end Passing

/-! ## Flags -/

/-- **What the check of a flag asks**, as numbers. -/
lemma rxOrderedFlagAccess_iff {cfg : RxQpConfig} {flag : RxOrderedFlagIngress} :
    rxOrderedFlagAccess cfg flag = true ↔ cfg.remoteWrite = true ∧ cfg.rkey = flag.rkey ∧
      flag.flagAddr.toNat % 4 = 0 ∧ cfg.virtualBase.toNat ≤ flag.flagAddr.toNat ∧
      flag.flagAddr.toNat - cfg.virtualBase.toNat + 4 ≤ cfg.regionBytes.toNat ∧
      cfg.physicalBase.toNat + (flag.flagAddr.toNat - cfg.virtualBase.toNat) + 4 ≤ 2 ^ 64 := by
  have h1 := flag.flagAddr.isLt
  have h2 := cfg.virtualBase.isLt
  have h3 := cfg.physicalBase.isLt
  have h4 := cfg.regionBytes.isLt
  simp only [rxOrderedFlagAccess, Bool.and_eq_true, decide_eq_true_eq, beq_iff_eq, and_assoc]
  refine and_congr_right fun _ => and_congr_right fun _ => ?_
  rw [← BitVec.toNat_inj, BitVec.le_def, BitVec.le_def, BitVec.le_def]
  simp only [BitVec.toNat_add, BitVec.toNat_sub, BitVec.toNat_setWidth, BitVec.ofNat_eq_ofNat,
    BitVec.toNat_ofNat]
  omega

lemma rxOrderedFlagPhysical_inside {cfg : RxQpConfig} {flag : RxOrderedFlagIngress}
    (h : rxOrderedFlagAccess cfg flag = true) : Inside cfg (rxOrderedFlagPhysical cfg flag) 4 := by
  obtain ⟨-, -, -, habove, hregion, hend⟩ := rxOrderedFlagAccess_iff.1 h
  have h1 := flag.flagAddr.isLt
  have h2 := cfg.virtualBase.isLt
  have h3 := cfg.physicalBase.isLt
  have hphysical : (rxOrderedFlagPhysical cfg flag).toNat =
      cfg.physicalBase.toNat + (flag.flagAddr.toNat - cfg.virtualBase.toNat) := by
    simp only [rxOrderedFlagPhysical, BitVec.toNat_add, BitVec.toNat_sub]
    omega
  refine ⟨?_, ?_, ?_⟩ <;> rw [hphysical] <;> omega

/-- A flag that was allowed: it came in for the queue pair, with the key of its region. -/
structure FlagPermitted (cfg : RxQpConfig) (flags : List RxOrderedFlagIngress)
    (entry : RxOrderedEntry) :
    Prop where
  valid : cfg.valid = true
  inside : Inside cfg entry.dmaAddr 4
  remoteWrite : cfg.remoteWrite = true
  flag : ∃ flag ∈ flags, cfg.qpn = flag.qpn ∧ entry.qpn = flag.qpn ∧
    entry.barrierPsn = flag.barrierPsn ∧ entry.value = flag.value ∧ flag.rkey = cfg.rkey

lemma FlagPermitted.mono {cfg : RxQpConfig} {flags : List RxOrderedFlagIngress}
    {entry : RxOrderedEntry} (h : FlagPermitted cfg flags entry)
    (more : List RxOrderedFlagIngress) : FlagPermitted cfg (flags ++ more) entry := by
  obtain ⟨hvalid, hinside, hwrite, flag, hmem, hflag⟩ := h
  exact ⟨hvalid, hinside, hwrite, flag, List.mem_append_left _ hmem, hflag⟩

/-- The flags in the ordered queue were allowed; before the start there are none. -/
structure FlagsPermitted (s : RxOrderedQueueManager) (flags : List RxOrderedFlagIngress) :
    Prop where
  ingress : ∀ flag ∈ s.ingressQ.elems, flag ∈ flags
  entries : ∀ i, ∀ entry ∈ (s.orderedQ i).elems, FlagPermitted (s.cfgs i) flags entry
  selected : s.selectedValid = true → FlagPermitted (s.cfgs s.selectedQp) flags s.selectedEntry
  idle : s.running = false → flags = []

section Flags

variable {s s' : RxOrderedQueueManager} {flags : List RxOrderedFlagIngress}

lemma not_flagPermitted_nil {cfg : RxQpConfig} {entry : RxOrderedEntry} :
    ¬ FlagPermitted cfg [] entry := by
  rintro ⟨-, -, -, flag, hmem, -⟩
  cases hmem

/-- **A flag that passes the check is allowed.** -/
lemma flagAdmissible_permitted {flag : RxOrderedFlagIngress} {i : RxQpIndex}
    (h : s.flagAdmissible flag i = true) (hmem : flag ∈ flags) :
    FlagPermitted (s.cfgs i) flags (s.entry flag i) := by
  simp only [RxOrderedQueueManager.flagAdmissible, RxOrderedQueueManager.flagMatch,
    Bool.and_eq_true, beq_iff_eq] at h
  obtain ⟨⟨⟨-, hvalid, hqpn⟩, -⟩, haccess⟩ := h
  obtain ⟨hwrite, hkey, -⟩ := rxOrderedFlagAccess_iff.1 haccess
  exact ⟨hvalid, rxOrderedFlagPhysical_inside haccess, hwrite, flag, hmem, hqpn, rfl, rfl, rfl,
    hkey.symm⟩

/-- A firing that brings no flag, and changes neither the configuration nor the queues. -/
lemma FlagsPermitted.stays (hi : FlagsPermitted s flags) (hrunning : s'.running = s.running)
    (hcfgs : s'.cfgs = s.cfgs) (hordered : s'.orderedQ = s.orderedQ)
    (hingress : s'.ingressQ.elems ⊆ s.ingressQ.elems) (hvalid : s'.selectedValid = s.selectedValid)
    (hqp : s'.selectedQp = s.selectedQp) (hentry : s'.selectedEntry = s.selectedEntry) :
    FlagsPermitted s' flags where
  ingress := fun flag hmem => hi.ingress flag (hingress hmem)
  entries := by rw [hcfgs, hordered]; exact hi.entries
  selected := by rw [hvalid, hcfgs, hqp, hentry]; exact hi.selected
  idle := by rw [hrunning]; exact hi.idle

/-- **Every rule and method of the ordered queue keeps its flags allowed.** -/
theorem FlagsPermitted.step (hi : FlagsPermitted s flags) {l : OrderedLabel}
    (hstep : s.step l = some s') : FlagsPermitted s' (flags ++ l.flags) := by
  have hnone : l.flags = [] → FlagsPermitted s' flags → FlagsPermitted s' (flags ++ l.flags) := by
    intro hnil hi
    rw [hnil, List.append_nil]
    exact hi
  cases RxOrderedQueueManager.step_fires hstep with
  | configure hidle hs =>
    -- before the start no flag has come in
    have hempty := hi.idle hidle
    subst hempty
    subst hs
    refine hnone rfl ⟨hi.ingress, ?_, ?_, fun _ => rfl⟩
    · intro i entry hmem
      exact absurd (hi.entries i entry hmem) not_flagPermitted_nil
    · intro hvalid
      exact absurd (hi.selected hvalid) not_flagPermitted_nil
  | start hs =>
    subst hs
    exact hnone rfl ⟨hi.ingress, hi.entries, hi.selected, nofun⟩
  | orderedFlagIn hrun hfailed hq hs =>
    subst hs
    refine ⟨?_, ?_, ?_, ?_⟩
    · intro f hmem
      dsimp only at hmem
      rw [Fifo.enq_eq_some hq] at hmem
      exact (List.mem_append.1 hmem).elim (fun h => List.mem_append_left _ (hi.ingress f h))
        (List.mem_append_right _)
    · exact fun i entry hmem => (hi.entries i entry hmem).mono _
    · exact fun hvalid => (hi.selected hvalid).mono _
    · intro hidle
      exact absurd (hrun.symm.trans hidle) nofun
  | rejectInvalidFlag hrun hq hs | rejectOrderedOverflow hrun hq hs =>
    subst hs
    refine hnone rfl (hi.stays rfl rfl rfl ?_ rfl rfl rfl)
    rw [Fifo.deq_eq_some hq]
    exact List.subset_cons_self _ _
  | @admitOrderedFlag i flag q o hrun hfailed hq hflag ho hs =>
    subst hs
    have hmem : flag ∈ flags := hi.ingress flag (by
      rw [Fifo.deq_eq_some hq]
      exact List.mem_cons_self)
    refine hnone rfl ⟨?_, ?_, hi.selected, hi.idle⟩
    · intro f hf
      refine hi.ingress f ?_
      rw [Fifo.deq_eq_some hq]
      exact List.mem_cons_of_mem _ hf
    · intro j entry hentry
      dsimp only at hentry ⊢
      by_cases hj : j = i
      · subst hj
        rw [update_self, Fifo.enq_eq_some ho, List.mem_append,
          List.mem_singleton] at hentry
        rcases hentry with hentry | rfl
        · exact hi.entries j entry hentry
        · exact flagAdmissible_permitted hflag hmem
      · rw [update_of_ne hj] at hentry
        exact hi.entries j entry hentry
  | @selectEligibleFlag i entry hfree hfirst hready hs =>
    subst hs
    refine hnone rfl ⟨hi.ingress, hi.entries, fun _ => hi.entries i entry ?_, hi.idle⟩
    exact List.mem_of_mem_head? hfirst
  | flagRequestOut hrun hselected hc hs =>
    subst hs
    refine hnone rfl ⟨hi.ingress, ?_, nofun, hi.idle⟩
    exact fun j entry hentry =>
      hi.entries j entry (RxOrderedQueueManager.mem_orderedQ_accepted hentry)
  | _ =>
    subst_vars
    exact hnone rfl (hi.stays rfl rfl rfl (List.Subset.refl _) rfl rfl rfl)

end Flags

/-! ## The receiver -/

/-- A write is that of an admitted packet. -/
def Writes (h : RqHistory) (r : RxDmaWriteRequest) : Prop :=
  ∃ p, h.Admitted p ∧ r.addr = p.dmaAddr ∧ r.bytes = p.payloadBytes ∧ r.qpn = p.qpn ∧
  r.psn = p.psn ∧
    r.globalSeq = p.globalSeq

/-- The entry of the ordered queue that a flag write was made from. -/
def RxFlagDmaRequest.source (r : RxFlagDmaRequest) : RxOrderedEntry where
  orderedSeq := r.orderedSeq
  qpn := r.qpn
  barrierPsn := r.barrierPsn
  dmaAddr := r.addr
  value := r.value

/-- The flags of a run. -/
def ReceiverHistory.ingress (h : ReceiverHistory) : List RxOrderedFlagIngress :=
  h.flags.map Prod.fst

/-- Whatever is on its way to the memory, or has been written, was allowed. -/
structure Confined (s : RxReceiver) (h : ReceiverHistory) : Prop where
  window : RqInv s.window h.rq
  isolation : Isolation s.window h.rq
  passing : ∀ p, s.window.Passing p → h.rq.Admitted p
  held : ∀ i, ∀ p ∈ (s.dma.lanes i).held, h.rq.Admitted p
  waiting : ∀ i, ∀ r ∈ (s.dma.lanes i).requestQ.elems, Writes h.rq r
  requests : ∀ r ∈ h.requests, Writes h.rq r
  flags : FlagsPermitted s.ordered h.ingress
  flagRequests : ∀ r ∈ h.flagRequests, ∃ qp, FlagPermitted (s.ordered.cfgs qp) h.ingress r.source
  cfgs : s.ordered.cfgs = s.window.cfgs

section Receiver

variable {s s' : RxReceiver} {h : ReceiverHistory} {l : ReceiverLabel}

lemma RqHistory.Admitted.receive {p : RxAdmittedPacket} (hp : h.rq.Admitted p) :
    (s.observe l h).rq.Admitted p := by
  rw [RxReceiver.observe_rq, RxReceiver.observeWindow]
  split
  · exact hp.observe _
  · exact hp

lemma Writes.receive {r : RxDmaWriteRequest} (hr : Writes h.rq r) :
    Writes (s.observe l h).rq r := by
  obtain ⟨p, hp, hr⟩ := hr
  exact ⟨p, hp.receive, hr⟩

/-- A packet comes to a lane from the window. -/
lemma admittedIn_passing (hs : s.step l = some s') {i : RxLaneId} {p : RxAdmittedPacket}
    (hl : s.onLane i l = some (.admittedIn p)) : s.window.Passing p := by
  cases l with
  | connectAdmitted j =>
    simp only [RxReceiver.onLane] at hl
    split at hl
    · obtain ⟨q, hq, hp⟩ := Option.map_eq_some_iff.1 hl
      cases hp
      exact .inr ⟨i, List.mem_of_mem_head? hq⟩
    · cases hl
  | lane j k =>
    -- a lane does not take a packet on its own
    obtain ⟨halone, -⟩ := guard_bind_eq_some.1 hs
    simp only [RxReceiver.onLane] at hl
    split at hl
    · cases hl
      cases halone
    · cases hl
  | retireCompletedLane j =>
    simp only [RxReceiver.onLane] at hl
    split at hl <;> cases hl
  | configureEpoch value => cases hl
  | configureQp index cfg => cases hl
  | start => cases hl
  | packetIn j packet => cases hl
  | window k => cases hl
  | connectRetire => cases hl
  | ordered k => cases hl
  | orderedFlagIn flag => cases hl
  | flagDmaRequest => cases hl

/-- The flags that a firing brings to the ordered queue are recorded. -/
lemma observe_ingress (hs : s.step l = some s') :
    (s.observe l h).ingress = h.ingress ++ ((s.onOrdered l).map OrderedLabel.flags).getD [] := by
  have hstays : ∀ h' : ReceiverHistory, h'.flags = h.flags → h'.ingress = h.ingress ++ [] := by
    intro h' hsame
    rw [ReceiverHistory.ingress, hsame, List.append_nil]
    rfl
  cases l with
  | ordered k =>
    obtain ⟨halone, -⟩ := guard_bind_eq_some.1 hs
    cases k with
    | orderedFlagIn flag => cases halone
    | _ => exact hstays _ rfl
  | orderedFlagIn flag => exact List.map_append
  | lane i k => cases k <;> exact hstays _ rfl
  | connectRetire =>
    show _ = h.ingress ++
      ((s.dma.retireQ.first.map OrderedLabel.retireIn).map OrderedLabel.flags).getD []
    cases s.dma.retireQ.first <;> exact hstays _ rfl
  | _ => exact hstays _ rfl

/-- A write that the DMA accepts was waiting in a lane. -/
lemma mem_observe_requests {r : RxDmaWriteRequest} (hr : r ∈ (s.observe l h).requests) :
    r ∈ h.requests ∨ ∃ i, r ∈ (s.dma.lanes i).requestQ.elems := by
  cases l with
  | lane i k =>
    cases k with
    | requestOut =>
      rcases List.mem_append.1 hr with hr | hr
      · exact .inl hr
      · obtain ⟨t, ht⟩ := mem_handedOut.1 hr
        obtain ⟨q, hq, -⟩ := RxDmaLane.requestOut_eq_some ht
        exact .inr ⟨i, by rw [Fifo.deq_eq_some hq]; exact List.mem_cons_self⟩
    | _ => exact .inl hr
  | ordered k => cases k <;> exact .inl hr
  | _ => exact .inl hr

/-- A flag write that the DMA accepts was selected. -/
lemma mem_observe_flagRequests {r : RxFlagDmaRequest} (hr : r ∈ (s.observe l h).flagRequests) :
    r ∈ h.flagRequests ∨ s.ordered.selectedValid = true ∧ r.source = s.ordered.selectedEntry := by
  cases l with
  | flagDmaRequest =>
    rcases List.mem_append.1 hr with hr | hr
    · exact .inl hr
    · obtain ⟨t, hout⟩ := mem_handedOut.1 hr
      obtain ⟨-, hout⟩ := guard_bind_eq_some.1 hout
      obtain ⟨⟨request, ordered⟩, hordered, hout⟩ := bind_eq_some.1 hout
      cases hout
      obtain ⟨rfl, hselected, -⟩ := RxOrderedQueueManager.flagRequestOut_eq_some hordered
      exact .inr ⟨hselected, rfl⟩
  | lane i k => cases k <;> exact .inl hr
  | ordered k => cases k <;> exact .inl hr
  | _ => exact .inl hr

/-- Only `configure` changes the configuration of the ordered queue. -/
lemma RxOrderedQueueManager.step_cfgs {m m' : RxOrderedQueueManager} {k : OrderedLabel}
    (hs : m.step k = some m') (hk : ∀ index cfg, k ≠ .configure index cfg) : m'.cfgs = m.cfgs := by
  cases step_fires hs with
  | configure hidle hs => exact absurd rfl (hk _ _)
  | _ => subst_vars; rfl

/-- The window and the ordered queue have the same configuration. -/
lemma cfgs_step (hi : s.ordered.cfgs = s.window.cfgs) (hs : s.step l = some s') :
    s'.ordered.cfgs = s'.window.cfgs := by
  obtain ⟨hwindow, -, hordered⟩ := RxReceiver.step_parts hs
  by_cases hl : ∃ index cfg, l = .configureQp index cfg
  · obtain ⟨index, cfg, rfl⟩ := hl
    obtain ⟨-, hordered⟩ := guard_bind_eq_some.1 hordered
    obtain ⟨-, hwindow⟩ := guard_bind_eq_some.1 hwindow
    rw [← Option.some.inj hordered, ← Option.some.inj hwindow]
    exact congrArg (update · index cfg) hi
  · have hsame : s'.window.cfgs = s.window.cfgs := by
      rcases stepPart_eq_some hwindow with ⟨-, hsame⟩ | ⟨k, hk, hstep⟩
      · rw [hsame]
      · refine RxRqBitmapManager.step_cfgs hstep ?_
        rintro index cfg rfl
        cases l <;> cases hk
        · exact hl ⟨_, _, rfl⟩
        · cases (guard_bind_eq_some.1 hs).1
    have hsame' : s'.ordered.cfgs = s.ordered.cfgs := by
      rcases stepPart_eq_some hordered with ⟨-, hsame⟩ | ⟨k, hk, hstep⟩
      · rw [hsame]
      · refine RxOrderedQueueManager.step_cfgs hstep ?_
        rintro index cfg rfl
        cases l with
        | configureQp index' cfg' => exact hl ⟨_, _, rfl⟩
        | ordered k =>
          cases hk
          cases (guard_bind_eq_some.1 hs).1
        | connectRetire =>
          obtain ⟨r, -, hr⟩ := Option.map_eq_some_iff.1 hk
          cases hr
        | _ => cases hk
    rw [hsame, hsame', hi]

/-- **Every rule and method of the receiver keeps what it writes allowed.** -/
theorem Confined.step (hi : Confined s h) (hs : s.step l = some s') :
    Confined s' (s.observe l h) := by
  obtain ⟨-, hlanes, hordered⟩ := RxReceiver.step_parts hs
  have hflags : FlagsPermitted s'.ordered (s.observe l h).ingress := by
    rw [observe_ingress hs]
    rcases stepPart_eq_some hordered with ⟨hl, hsame⟩ | ⟨k, hl, hk⟩
    · rw [hl, hsame]
      simpa using hi.flags
    · rw [hl]
      exact hi.flags.step hk
  have hmore : ∀ qp entry, FlagPermitted (s.ordered.cfgs qp) h.ingress entry →
      FlagPermitted (s'.ordered.cfgs qp) (s.observe l h).ingress entry := by
    intro qp entry hentry
    rw [observe_ingress hs]
    refine (?_ : FlagPermitted (s'.ordered.cfgs qp) h.ingress entry).mono _
    rcases stepPart_eq_some hordered with ⟨-, hsame⟩ | ⟨k, -, hk⟩
    · rw [hsame]
      exact hentry
    · by_cases hconfigure : ∃ index cfg, k = .configure index cfg
      · -- a configuration comes before all flags
        obtain ⟨index, cfg, rfl⟩ := hconfigure
        obtain ⟨hidle, -⟩ := guard_bind_eq_some.1 hk
        rw [hi.flags.idle (by simpa using hidle)] at hentry
        exact absurd hentry not_flagPermitted_nil
      · rw [RxOrderedQueueManager.step_cfgs hk fun index cfg hne => hconfigure ⟨index, cfg, hne⟩]
        exact hentry
  refine ⟨RxReceiver.rqInv_step hi.window hs, ?_, ?_, ?_, ?_, ?_, hflags, ?_, cfgs_step hi.cfgs hs⟩
  · exact RxReceiver.window_keeps hs hi.isolation fun k hk => hi.isolation.step hi.window hk
  · refine RxReceiver.window_keeps (P := fun m h => ∀ p, m.Passing p → h.Admitted p) hs
      hi.passing ?_
    intro k hk p hp
    rcases passing_step (h := h.rq) hk hp with hp | hp
    · exact (hi.passing p hp).observe k
    · exact hp
  · intro i p hp
    rcases stepPart_eq_some (hlanes i) with ⟨-, hsame⟩ | ⟨k, hl, hk⟩
    · rw [hsame] at hp
      exact (hi.held i p hp).receive
    · rcases RxDmaLane.mem_held_step hk hp with hp | rfl
      · exact (hi.held i p hp).receive
      · exact (hi.passing p (admittedIn_passing hs hl)).receive
  · intro i r hr
    rcases stepPart_eq_some (hlanes i) with ⟨-, hsame⟩ | ⟨k, hl, hk⟩
    · rw [hsame] at hr
      exact (hi.waiting i r hr).receive
    · rcases RxDmaLane.mem_requestQ_step hk hr with hr | ⟨hcurrent, rfl⟩
      · exact (hi.waiting i r hr).receive
      · exact Writes.receive ⟨_, hi.held i _ hcurrent, rfl, rfl, rfl, rfl, rfl⟩
  · intro r hr
    rcases mem_observe_requests hr with hr | ⟨i, hr⟩
    · exact (hi.requests r hr).receive
    · exact (hi.waiting i r hr).receive
  · intro r hr
    rcases mem_observe_flagRequests hr with hr | ⟨hselected, hr⟩
    · obtain ⟨qp, hqp⟩ := hi.flagRequests r hr
      exact ⟨qp, hmore qp _ hqp⟩
    · rw [hr]
      exact ⟨_, hmore _ _ (hi.flags.selected hselected)⟩

end Receiver

lemma confined_initial (packets : RxQpIndex → RxWindowIndex → RxParsedPacket)
    (age : RxQpIndex → RxWindowIndex → BitVec 8) : Confined (.initial packets age) .empty where
  window := .initial packets age
  isolation := isolation_initial packets age
  passing := by
    rintro p (hp | ⟨i, hp⟩) <;> cases hp
  held := by
    intro i p hp
    cases hp
  waiting := by
    intro i r hr
    cases hr
  requests := by
    intro r hr
    cases hr
  flags := by
    refine ⟨?_, ?_, nofun, fun _ => rfl⟩
    · intro flag hmem
      cases hmem
    · intro i entry hmem
      cases hmem
  flagRequests := by
    intro r hr
    cases hr
  cfgs := rfl

/-- **Memory isolation.**  In every run of the receiver, whatever packets and flags it is given,
every packet write is that of an admission that was allowed, and every flag write is that of a flag
that was allowed: inside the region of the queue pair, without wrapping, with remote writes enabled
and the key right. -/
theorem rx_memory_isolated (packets : RxQpIndex → RxWindowIndex → RxParsedPacket)
    (age : RxQpIndex → RxWindowIndex → BitVec 8) {labels : List ReceiverLabel} {s : RxReceiver}
    {h : ReceiverHistory} (hrun : fire receiverStep (.initial packets age, .empty) labels =
      some (s, h)) :
    (∀ r ∈ h.requests, ∃ before a after, h.rq.admissions = before ++ a :: after ∧
      Permitted (s.window.cfgs a.admitted.qp) before a ∧ r.addr = a.admitted.dmaAddr ∧
      r.bytes = a.admitted.payloadBytes ∧ r.qpn = a.admitted.qpn ∧ r.psn = a.admitted.psn) ∧
    ∀ r ∈ h.flagRequests, ∃ qp, FlagPermitted (s.window.cfgs qp) h.ingress r.source := by
  have hinv : Confined s h := by
    refine fire_rule (P := fun p => Confined p.1 p.2) ?_ (confined_initial packets age) hrun
    rintro ⟨s, h⟩ l ⟨s', h'⟩ hi hs
    obtain ⟨hs, rfl⟩ := watched_eq_some.1 hs
    exact hi.step hs
  refine ⟨?_, ?_⟩
  · intro r hr
    obtain ⟨p, ⟨a, hmem, rfl⟩, haddr, hbytes, hqpn, hpsn, -⟩ := hinv.requests r hr
    obtain ⟨before, after, hsplit⟩ := List.append_of_mem hmem
    exact ⟨before, a, after, hsplit, hinv.isolation.permitted before a after hsplit, haddr, hbytes,
      hqpn, hpsn⟩
  · intro r hr
    rw [← hinv.cfgs]
    exact hinv.flagRequests r hr

/-- A flag of the queue pair, at the end of its region. -/
def endFlag : RxOrderedFlagIngress where
  qpn := 7
  barrierPsn := 0xFFFFFE
  flagAddr := 0x1FFC
  rkey := 5
  value := 1

/-- A message in two packets, the last one first, and a flag that waits for none of them. -/
def writingRun : List ReceiverLabel :=
  [.configureEpoch 0, .configureQp 0 wrapConfig, .start, .packetIn 0 lastOfTwo,
    .packetIn 1 firstOfTwo, .window (.mergeIngressLane 0), .window (.mergeIngressLane 1),
    .window .processCandidate,
    .window .processCandidate, .window .resolvePending, .window .processCandidate,
    .window (.routeAdmitted 1), .window (.routeAdmitted 0), .connectAdmitted 0, .connectAdmitted 1,
    .lane 0 .beginPacket, .lane 0 .sendDescriptor, .lane 0 .requestOut, .lane 1 .beginPacket,
    .lane 1 .sendDescriptor, .lane 1 .requestOut, .orderedFlagIn endFlag,
    .ordered (.admitOrderedFlag 0), .ordered (.selectEligibleFlag 0), .flagDmaRequest]

theorem rx_memory_isolated_two_packets :
    ∃ s h, fire receiverStep (.initial (fun _ _ => default) (fun _ _ => 0), .empty) writingRun =
      some (s, h) ∧ h.requests.map (fun r => (r.addr, r.bytes)) = [(0x80E4, 72), (0x8000, 228)] ∧
      h.flagRequests.map (·.addr) = [0x8FFC] ∧
      (∀ r ∈ h.requests, ∃ before a after, h.rq.admissions = before ++ a :: after ∧
        Permitted (s.window.cfgs a.admitted.qp) before a ∧ r.addr = a.admitted.dmaAddr) ∧
      ∀ r ∈ h.flagRequests, ∃ qp, FlagPermitted (s.window.cfgs qp) h.ingress r.source := by
  have hview :
    (fire receiverStep (.initial (fun _ _ => default) (fun _ _ => 0), .empty) writingRun).map
      (fun p => (p.2.requests.map (fun r => (r.addr, r.bytes)), p.2.flagRequests.map (·.addr))) =
      some ([(0x80E4, 72), (0x8000, 228)], [0x8FFC]) := by decide +kernel
  obtain ⟨⟨s, h⟩, hrun, hview⟩ := Option.map_eq_some_iff.1 hview
  obtain ⟨hrequests, hflags⟩ := Prod.mk.inj hview
  obtain ⟨hpackets, hwrites⟩ := rx_memory_isolated _ _ hrun
  refine ⟨s, h, hrun, hrequests, hflags, ?_, hwrites⟩
  intro r hr
  obtain ⟨before, a, after, hsplit, hpermitted, haddr, -⟩ := hpackets r hr
  exact ⟨before, a, after, hsplit, hpermitted, haddr⟩

end OpenRdma
