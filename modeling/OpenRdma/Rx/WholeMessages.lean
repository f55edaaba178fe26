import OpenRdma.Rx.Receiver

/-!
# Acknowledgements and messages

An admitted packet carries how far its queue pair is acknowledged, and whether its message is
complete.  Packets may be admitted out of order, but one message after the other: the admissions of
a queue pair, in their order, are whole messages, followed by the packets of one that is under way.

* `AckAfter` — what an admission says about the packets before it; **`RqAckInv.step`**.
* **`MessageInv.step`** — what has been admitted on a queue pair is framed, at any time.
-/

namespace OpenRdma

open Function (update update_self update_of_ne)

/-! ## Acknowledgements -/

lemma ackedAfter_concat (qp : RxQpIndex) (l : List RqAdmission) (a : RqAdmission) :
    ackedAfter qp (l ++ [a]) = if a.admitted.qp = qp then a.acked else ackedAfter qp l := by
  unfold ackedAfter
  by_cases hqp : a.admitted.qp = qp
  · simp [hqp]
  · simp [hqp]

/-- What an admission says about the packets of its queue pair. -/
structure AckAfter (cfg : RxQpConfig) (before : List RqAdmission) (a : RqAdmission) : Prop where
  ackPsn : a.admitted.ackPsnAfterMerge = cfg.initialPsn - 1 + BitVec.ofNat 24 a.acked
  advances : ∃ d ≤ 16, a.acked = ackedAfter a.admitted.qp before + d
  unchanged : a.admitted.ackValid = false → a.acked = ackedAfter a.admitted.qp before
  covered : ∀ p < a.acked, ∃ b ∈ before ++ [a], b.admitted.qp = a.admitted.qp ∧ b.position = p

/-- What all admissions say, and how far each queue pair is. -/
structure RqAckInv (m : RxRqBitmapManager) (h : RqHistory) : Prop where
  acks : EachAfter (fun before a => AckAfter (m.cfgs a.admitted.qp) before a) h.admissions
  acked : ∀ qp, h.acked qp = ackedAfter qp h.admissions

section Window

variable {m m' : RxRqBitmapManager} {h : RqHistory}

lemma RqAckInv.initial (packets : RxQpIndex → RxWindowIndex → RxParsedPacket)
    (age : RxQpIndex → RxWindowIndex → BitVec 8) : RqAckInv (.initial packets age) .empty where
  acks := eachAfter_nil
  acked := fun _ => rfl

/-- **Every rule and method of the window keeps the acknowledgements right.** -/
theorem RqAckInv.step (hi : RqAckInv m h) (hw : RqInv m h) {l : RqLabel} (hs : m.step l = some m') :
    RqAckInv m' (m.observe l h) := by
  have hw' := hw.step hs
  rcases hw.grows hs with ⟨hcfgs, -, hadmissions, hacked⟩ | ⟨hnone, hacked, -, -, -⟩ |
    @⟨qp, packet, hadmits, hcfgs, hstates, hobs⟩
  · exact ⟨by rw [hcfgs, hadmissions]; exact hi.acks, by rw [hadmissions, hacked]; exact hi.acked⟩
  · refine ⟨?_, ?_⟩
    · rw [hnone]
      exact eachAfter_nil
    · rw [hnone, hacked]
      exact fun _ => rfl
  rw [hobs] at hw' ⊢
  have hexact := hw'.exact qp (by rw [hcfgs]; exact hadmits.valid)
  have hself :
    (m.record packet h (.accept qp)).acked qp = (m.admission qp packet (h.acked qp)).acked :=
    update_self _ _ _
  obtain ⟨d, hd, -, hdist, -⟩ := (m.states qp).merge_spec (rxPsnInWindow_iff.1 hadmits.inWindow)
  have hadvance : (m.admission qp packet (h.acked qp)).acked = ackedAfter qp h.admissions + d := by
    rw [RxRqBitmapManager.admission, hdist, hi.acked]
  refine ⟨?_, ?_⟩
  · rw [hcfgs]
    refine eachAfter_concat.2 ⟨hi.acks, ?_, ⟨d, hd, hadvance⟩, ?_, ?_⟩
    · have hack := hexact.ackPsn
      rw [hstates, update_self, hcfgs, hself] at hack
      exact hack
    · intro hvalid
      have hzero : ((m.states qp).merge packet.psn).2 = (m.states qp).ackPsn := by
        simpa [RxRqBitmapManager.admission, RxRqState.admitted, RxRqState.ackValid] using hvalid
      rw [RxRqBitmapManager.admission, hzero, BitVec.sub_self, hi.acked]
      rfl
    · intro p hp
      have hmem := (hexact.mem_positions p).2 (.inl (by rw [hself]; exact hp))
      obtain ⟨b, hb, hpos⟩ := List.mem_map.1 hmem
      obtain ⟨hb, hqp⟩ := List.mem_filter.1 hb
      exact ⟨b, hb, of_decide_eq_true hqp, hpos⟩
  · intro q
    show update h.acked qp _ q = ackedAfter q (h.admissions ++ [_])
    rw [ackedAfter_concat]
    by_cases hq : q = qp
    · subst hq
      rw [update_self]
      exact (if_pos rfl).symm
    · rw [update_of_ne hq, hi.acked]
      exact (if_neg fun heq => hq heq.symm).symm

end Window

/-! ## Messages -/

/-- The number of packets of a message. -/
def packetsIn (cfg : RxQpConfig) (bytes : TxLength) : ℕ :=
  (packetCountForMessage bytes cfg.pmtu).toNat

/-- The packets of a message that starts at a position, in the order in which they were admitted. -/
structure WholeMessage (cfg : RxQpConfig) (base : ℕ) (as : List RqAdmission) : Prop where
  /-- Every packet of the message, once. -/
  positions : (as.map (·.position)).Perm (List.range' base as.length)
  opened : ∃ b ∈ as, b.position = base ∧ b.packet.first = true ∧
    as.length = packetsIn cfg b.packet.messageBytes ∧
    ∀ a ∈ as, a.admitted.messageBytes = b.packet.messageBytes ∧
      a.admitted.messageLastPsn = b.packet.psn + BitVec.ofNat 24 as.length - 1
  completed : ∃ init last, as = init ++ [last] ∧ last.admitted.messageComplete = true ∧
    ∀ a ∈ init, a.admitted.messageComplete = false

/-- Whole messages, one after the other. -/
def WholeMessages (cfg : RxQpConfig) (msgs : List (List RqAdmission)) : Prop :=
  EachAfter (fun before as => WholeMessage cfg before.flatten.length as) msgs

/-- Whole messages, and a rest that completes none. -/
def Framed (cfg : RxQpConfig) (as : List RqAdmission) : Prop :=
  ∃ msgs rest, as = msgs.flatten ++ rest ∧ WholeMessages cfg msgs ∧
    ∀ a ∈ rest, a.admitted.messageComplete = false

/-- The message under way: `acked` positions of the queue pair are acknowledged. -/
structure Within (cfg : RxQpConfig) (ctx : RxMessageContext) (base acked : ℕ)
    (as : List RqAdmission) :
    Prop where
  start : ctx.start = cfg.initialPsn + BitVec.ofNat 24 base
  last : ctx.last = ctx.start + BitVec.ofNat 24 (packetsIn cfg ctx.bytes) - 1
  lower : base ≤ acked
  upper : acked < base + packetsIn cfg ctx.bytes
  inside : ∀ a ∈ as, base ≤ a.position ∧ a.position < base + packetsIn cfg ctx.bytes
  same : ∀ a ∈ as, a.admitted.messageBytes = ctx.bytes ∧ a.admitted.messageLastPsn = ctx.last
  incomplete : ∀ a ∈ as, a.admitted.messageComplete = false

/-- One of the packets opened the message. -/
def OpenedBy (ctx : RxMessageContext) (base : ℕ) (as : List RqAdmission) : Prop :=
  ∃ b ∈ as, b.position = base ∧ b.packet.first = true ∧ b.packet.messageBytes = ctx.bytes ∧
    b.packet.psn = ctx.start

/-- What has been admitted on a queue pair. -/
structure MessageState (cfg : RxQpConfig) (state : RxRqState) (acked : ℕ) (on : List RqAdmission) :
    Prop where
  framed : ∀ before, before <+: on → Framed cfg before
  split : ∃ msgs rest, on = msgs.flatten ++ rest ∧ WholeMessages cfg msgs ∧
    (state.contextValid = false → rest = [] ∧ acked = msgs.flatten.length) ∧
    (state.contextValid = true → Within cfg state.stored msgs.flatten.length acked rest ∧
      OpenedBy state.stored msgs.flatten.length rest)

def MessageInv (m : RxRqBitmapManager) (h : RqHistory) : Prop :=
  ∀ qp, (m.cfgs qp).valid = true → MessageState (m.cfgs qp) (m.states qp) (h.acked qp) (h.on qp)

section Messages

variable {cfg : RxQpConfig} {m m' : RxRqBitmapManager} {h : RqHistory} {qp : RxQpIndex}
    {p : RxParsedPacket}

lemma packetsIn_lt (cfg : RxQpConfig) (bytes : TxLength) : packetsIn cfg bytes < 2 ^ 17 :=
  BitVec.isLt _

variable {msgs : List (List RqAdmission)}

/-- Whole messages take up all the positions up to their number. -/
lemma WholeMessages.positions (hm : WholeMessages cfg msgs) :
    (msgs.flatten.map (·.position)).Perm (List.range msgs.flatten.length) := by
  induction msgs using List.reverseRecOn with
  | nil => exact List.Perm.refl _
  | append_singleton msgs as ih =>
    obtain ⟨hm, has⟩ := eachAfter_concat.1 hm
    rw [List.flatten_append, List.flatten_singleton, List.map_append, List.length_append,
      List.range_add]
    refine (ih hm).append ?_
    rw [← List.range'_eq_map_range]
    exact has.positions

variable {rest : List RqAdmission} {ctx : RxMessageContext}

/-- No position of the queue pair is beyond the message under way. -/
lemma position_lt {acked k : ℕ} (hm : WholeMessages cfg msgs)
    (hin : Within cfg ctx msgs.flatten.length acked rest)
    (hk : k ∈ (msgs.flatten ++ rest).map (·.position)) :
    k < msgs.flatten.length + packetsIn cfg ctx.bytes := by
  rw [List.map_append, List.mem_append] at hk
  rcases hk with hk | hk
  · have hlt := List.mem_range.1 (hm.positions.mem_iff.1 hk)
    exact Nat.lt_add_right _ hlt
  · obtain ⟨a, ha, rfl⟩ := List.mem_map.1 hk
    exact (hin.inside a ha).2

/-- The message that a packet is judged by is under way, or opened by the packet. -/
lemma MessageState.judged (hm : MessageState (m.cfgs qp) (m.states qp) (h.acked qp) (h.on qp))
    (hw : WindowExact m h qp) (hj : m.Judged qp p) :
    ∃ msgs rest, h.on qp = msgs.flatten ++ rest ∧ WholeMessages (m.cfgs qp) msgs ∧
      Within (m.cfgs qp) ((m.states qp).context (m.cfgs qp) p) msgs.flatten.length
        (h.acked qp) rest ∧
      OpenedBy ((m.states qp).context (m.cfgs qp) p) msgs.flatten.length
        (rest ++ [m.admission qp p (h.acked qp)]) := by
  obtain ⟨msgs, rest, hon, hmsgs, hclosed, hopen⟩ := hm.split
  refine ⟨msgs, rest, hon, hmsgs, ?_⟩
  have hbelongs := hj.belongs
  simp only [RxRqState.belongs, Bool.and_eq_true, Bool.or_eq_true] at hbelongs
  by_cases hest : (m.states qp).establishing p = true
  · have hctx : (m.states qp).context (m.cfgs qp) p =
        ⟨p.psn, p.psn + BitVec.ofNat 24 (packetsIn (m.cfgs qp) p.messageBytes) - 1, p.remoteAddr,
          p.rkey, p.messageBytes⟩ := by
      rw [RxRqState.context, if_pos hest, packetsIn, BitVec.ofNat_toNat]
    simp only [RxRqState.establishing, Bool.and_eq_true, Bool.not_eq_true', beq_iff_eq] at hest
    obtain ⟨rfl, hacked⟩ := hclosed hest.1.1
    have hoffset : windowOffset (m.states qp).ackPsn p.psn = 0 := by
      rw [windowOffset, hest.2, BitVec.sub_self]
      rfl
    have hpsn := hw.psn_eq_position p.psn
    rw [hoffset, Nat.add_zero] at hpsn
    have hpos : 0 < packetsIn (m.cfgs qp) p.messageBytes := by
      by_contra hzero
      have hafter := rxPsnAtOrAfter_iff.1 hbelongs.2
      rw [hctx, Nat.eq_zero_of_not_pos hzero] at hafter
      bv_omega
    rw [hctx]
    refine ⟨⟨?_, rfl, hacked.ge, ?_, List.forall_mem_nil _, List.forall_mem_nil _,
      List.forall_mem_nil _⟩, _, List.mem_singleton_self _, ?_, hest.1.2, rfl, rfl⟩
    · rw [← hacked]
      exact hpsn
    · rw [hacked]
      exact Nat.lt_add_of_pos_right hpos
    · show h.acked qp + windowOffset (m.states qp).ackPsn p.psn = _
      rw [hoffset, Nat.add_zero, hacked]
  · obtain ⟨hin, b, hb, hopened⟩ := hopen (hbelongs.1.1.resolve_right hest)
    have hctx : (m.states qp).context (m.cfgs qp) p = (m.states qp).stored := by
      rw [RxRqState.context, if_neg hest]
      rfl
    rw [hctx]
    exact ⟨hin, b, List.mem_append_left _ hb, hopened⟩

/-- A packet that is judged by a message is one of its packets. -/
lemma Within.position_lt {base : ℕ} (hin : Within (m.cfgs qp) ctx base (h.acked qp) rest)
    (hw : WindowExact m h qp) (hwindow : windowOffset (m.states qp).ackPsn p.psn < 16)
    (hlast : rxPsnAtOrAfter ctx.last p.psn = true) :
    h.acked qp + windowOffset (m.states qp).ackPsn p.psn < base +
      packetsIn (m.cfgs qp) ctx.bytes := by
  have hlt := packetsIn_lt (m.cfgs qp) ctx.bytes
  have hlower := hin.lower
  have hupper := hin.upper
  have hafter := rxPsnAtOrAfter_iff.1 hlast
  rw [hin.last, hin.start, hw.psn_eq_position p.psn] at hafter
  generalize windowOffset (m.states qp).ackPsn p.psn = k at hwindow hafter ⊢
  obtain ⟨x, hx⟩ := Nat.exists_eq_add_of_le hlower
  rw [hx] at hafter hupper ⊢
  have hdiff : (m.cfgs qp).initialPsn + BitVec.ofNat 24 base +
      BitVec.ofNat 24 (packetsIn (m.cfgs qp) ctx.bytes) - 1 -
      ((m.cfgs qp).initialPsn + BitVec.ofNat 24 (base + x + k)) =
      BitVec.ofNat 24 (packetsIn (m.cfgs qp) ctx.bytes) - 1 - BitVec.ofNat 24 (x + k) := by
    simp only [BitVec.ofNat_add]
    ring
  rw [hdiff] at hafter
  generalize packetsIn (m.cfgs qp) ctx.bytes = n at *
  simp only [BitVec.toNat_sub, BitVec.toNat_ofNat, BitVec.ofNat_eq_ofNat] at hafter
  omega

/-- **A packet completes the message if all of the message is acknowledged with it.** -/
lemma Within.complete_iff {base : ℕ}
    (hin : Within (m.cfgs qp) ((m.states qp).context (m.cfgs qp) p) base (h.acked qp) rest)
    (hw : WindowExact m h qp) (hwindow : windowOffset (m.states qp).ackPsn p.psn < 16)
    (hle : (m.admission qp p (h.acked qp)).acked ≤
      base + packetsIn (m.cfgs qp) ((m.states qp).context (m.cfgs qp) p).bytes) :
    (m.admission qp p (h.acked qp)).admitted.messageComplete = true ↔
      (m.admission qp p (h.acked qp)).acked =
        base + packetsIn (m.cfgs qp) ((m.states qp).context (m.cfgs qp) p).bytes := by
  obtain ⟨d, hd, hack, hdist, -⟩ := (m.states qp).merge_spec hwindow
  have hacked : (m.admission qp p (h.acked qp)).acked = h.acked qp + d := by
    rw [RxRqBitmapManager.admission, hdist]
  have hlt := packetsIn_lt (m.cfgs qp) ((m.states qp).context (m.cfgs qp) p).bytes
  have hlower := hin.lower
  have hupper := hin.upper
  show (m.states qp).messageComplete (m.cfgs qp) p = true ↔ _
  rw [RxRqState.messageComplete, Bool.and_eq_true, rxPsnAtOrAfter_iff, RxRqState.ackValid,
    bne_iff_ne, hack, hin.last, hin.start, hw.ackPsn]
  rw [hacked] at hle ⊢
  obtain ⟨x, hx⟩ := Nat.exists_eq_add_of_le hlower
  rw [hx] at hle hupper ⊢
  generalize packetsIn (m.cfgs qp) ((m.states qp).context (m.cfgs qp) p).bytes = n at *
  have hdiff : (m.cfgs qp).initialPsn - 1 + BitVec.ofNat 24 (base + x) + BitVec.ofNat 24 d -
      ((m.cfgs qp).initialPsn + BitVec.ofNat 24 base + BitVec.ofNat 24 n - 1) =
      BitVec.ofNat 24 (x + d) - BitVec.ofNat 24 n := by
    simp only [BitVec.ofNat_add]
    ring
  rw [hdiff]
  constructor
  · rintro ⟨-, hafter⟩
    simp only [BitVec.toNat_sub, BitVec.toNat_ofNat] at hafter
    omega
  · intro hall
    refine ⟨?_, ?_⟩
    · intro hzero
      have hbits : BitVec.ofNat 24 d = 0 := add_eq_left.1 hzero
      have hzero := congrArg BitVec.toNat hbits
      simp only [BitVec.toNat_ofNat, BitVec.ofNat_eq_ofNat] at hzero
      omega
    · rw [show x + d = n by omega, BitVec.sub_self]
      decide

/-- The packets of a message, once all of it is acknowledged. -/
lemma Within.whole
    {a : RqAdmission} {acked : ℕ} (hm : WholeMessages cfg msgs)
    (hin : Within cfg ctx msgs.flatten.length acked rest)
    (hopened : OpenedBy ctx msgs.flatten.length (rest ++ [a]))
    (hposition : msgs.flatten.length ≤ a.position ∧
      a.position < msgs.flatten.length + packetsIn cfg ctx.bytes)
    (hsame : a.admitted.messageBytes = ctx.bytes ∧ a.admitted.messageLastPsn = ctx.last)
    (hcomplete : a.admitted.messageComplete = true)
    (hnodup : ((msgs.flatten ++ (rest ++ [a])).map (·.position)).Nodup)
    (hall : ∀ k < msgs.flatten.length + packetsIn cfg ctx.bytes,
      k ∈ (msgs.flatten ++ (rest ++ [a])).map (·.position)) :
    WholeMessage cfg msgs.flatten.length (rest ++ [a]) ∧
    (rest ++ [a]).length = packetsIn cfg ctx.bytes := by
  have hinside : ∀ b ∈ rest ++ [a], msgs.flatten.length ≤ b.position ∧
      b.position < msgs.flatten.length + packetsIn cfg ctx.bytes := by
    intro b hb
    rcases List.mem_append.1 hb with hb | hb
    · exact hin.inside b hb
    · rw [List.mem_singleton.1 hb]
      exact hposition
  have hperm : ((rest ++ [a]).map (·.position)).Perm
      (List.range' msgs.flatten.length (packetsIn cfg ctx.bytes)) := by
    rw [List.map_append] at hnodup
    refine (List.perm_ext_iff_of_nodup hnodup.of_append_right List.nodup_range').2 ?_
    intro k
    rw [List.mem_range'_1]
    constructor
    · intro hk
      obtain ⟨b, hb, rfl⟩ := List.mem_map.1 hk
      exact hinside b hb
    · rintro ⟨hge, hlt⟩
      have hk := hall k hlt
      rw [List.map_append, List.mem_append] at hk
      refine hk.resolve_left fun hk => ?_
      have := List.mem_range.1 (hm.positions.mem_iff.1 hk)
      omega
  have hlen : (rest ++ [a]).length = packetsIn cfg ctx.bytes := by
    have := hperm.length_eq
    rwa [List.length_map, List.length_range'] at this
  have hctx : ∀ b ∈ rest ++ [a], b.admitted.messageBytes = ctx.bytes ∧
      b.admitted.messageLastPsn = ctx.last := by
    intro b hb
    rcases List.mem_append.1 hb with hb | hb
    · exact hin.same b hb
    · rw [List.mem_singleton.1 hb]
      exact hsame
  obtain ⟨b, hb, hbase, hfirst, hbytes, hpsn⟩ := hopened
  refine ⟨⟨?_, ⟨b, hb, hbase, hfirst, ?_, ?_⟩, rest, a, rfl, hcomplete, hin.incomplete⟩, hlen⟩
  · rw [hlen]
    exact hperm
  · rw [hlen, hbytes]
  · intro c hc
    rw [hlen, hbytes, hpsn, ← hin.last]
    exact hctx c hc

/-- One more packet is admitted: it completes its message, or the message stays under way. -/
lemma MessageState.accept (hm : MessageState (m.cfgs qp) (m.states qp) (h.acked qp) (h.on qp))
    (hw : WindowExact m h qp) (hadmits : m.Admits qp p)
    (hnodup : ((h.on qp ++ [m.admission qp p (h.acked qp)]).map (·.position)).Nodup)
    (hcovered : ∀ k < (m.admission qp p (h.acked qp)).acked,
      k ∈ (h.on qp ++ [m.admission qp p (h.acked qp)]).map (·.position)) :
    MessageState (m.cfgs qp) ((m.states qp).accept (m.cfgs qp) p)
      (m.admission qp p (h.acked qp)).acked
      (h.on qp ++ [m.admission qp p (h.acked qp)]) := by
  obtain ⟨msgs, rest, hon, hmsgs, hin, hopened⟩ := hm.judged hw hadmits.toJudged
  have hbelongs := hadmits.belongs
  simp only [RxRqState.belongs, Bool.and_eq_true, Bool.or_eq_true] at hbelongs
  have hwindow := rxPsnInWindow_iff.1 hadmits.inWindow
  have hposition : (m.admission qp p (h.acked qp)).position < msgs.flatten.length +
      packetsIn (m.cfgs qp) ((m.states qp).context (m.cfgs qp) p).bytes :=
    hin.position_lt hw hwindow hbelongs.2
  have hlower : msgs.flatten.length ≤ (m.admission qp p (h.acked qp)).position :=
    hin.lower.trans (Nat.le_add_right _ _)
  have hstored :
      ((m.states qp).accept (m.cfgs qp) p).stored = (m.states qp).context (m.cfgs qp) p := by
    rw [← RxRqState.opened_stored]
    rfl
  have hvalid : ((m.states qp).accept (m.cfgs qp) p).contextValid =
      !(m.admission qp p (h.acked qp)).admitted.messageComplete := by
    show (((m.states qp).opened (m.cfgs qp) p).contextValid && _) = _
    rw [RxRqState.opened_contextValid hadmits.belongs, Bool.true_and]
    rfl
  have hacked : h.acked qp ≤ (m.admission qp p (h.acked qp)).acked := Nat.le_add_right _ _
  have hsame : (m.admission qp p (h.acked qp)).admitted.messageBytes =
      ((m.states qp).context (m.cfgs qp) p).bytes ∧
      (m.admission qp p (h.acked qp)).admitted.messageLastPsn =
        ((m.states qp).context (m.cfgs qp) p).last := ⟨rfl, rfl⟩
  -- a position beyond the message would have been admitted
  have hle : (m.admission qp p (h.acked qp)).acked ≤ msgs.flatten.length +
      packetsIn (m.cfgs qp) ((m.states qp).context (m.cfgs qp) p).bytes := by
    by_contra hgt
    have hmem := hcovered _ (not_le.1 hgt)
    rw [List.map_append, List.mem_append, hon] at hmem
    rcases hmem with hmem | hmem
    · exact absurd (position_lt hmsgs hin hmem) (lt_irrefl _)
    · rw [List.map_singleton, List.mem_singleton] at hmem
      exact absurd hposition (by rw [hmem]; exact lt_irrefl _)
  have hcomplete := hin.complete_iff hw hwindow hle
  generalize m.admission qp p (h.acked qp) = a at *
  rw [hon, List.append_assoc] at hnodup hcovered
  have hprefix : ∀ {l}, Framed (m.cfgs qp) (h.on qp ++ [a]) → l <+: h.on qp ++ [a] →
      Framed (m.cfgs qp) l := by
    intro l hframed hl
    rcases List.prefix_concat_iff.1 hl with rfl | hl
    · exact hframed
    · exact hm.framed l hl
  by_cases hdone : a.admitted.messageComplete = true
  · have hall := hcomplete.1 hdone
    obtain ⟨hwhole, hlen⟩ := hin.whole hmsgs hopened ⟨hlower, hposition⟩ hsame hdone hnodup
      (by rw [← hall]; exact hcovered)
    have hmsgs' : WholeMessages (m.cfgs qp) (msgs ++ [rest ++ [a]]) :=
      eachAfter_concat.2 ⟨hmsgs, hwhole⟩
    have hon' : h.on qp ++ [a] = (msgs ++ [rest ++ [a]]).flatten ++ [] := by
      rw [hon]
      simp
    refine ⟨fun l => hprefix ⟨_, [], hon', hmsgs', List.forall_mem_nil _⟩, _, [], hon', hmsgs',
      fun _ => ⟨rfl, ?_⟩, ?_⟩
    · rw [hall, List.flatten_append, List.flatten_singleton, List.length_append, hlen]
    · intro htrue
      rw [hvalid, hdone] at htrue
      cases htrue
  · have hfalse : a.admitted.messageComplete = false := by simpa using hdone
    have hon' : h.on qp ++ [a] = msgs.flatten ++ (rest ++ [a]) := by
      rw [hon, List.append_assoc]
    have hnew : ∀ {Q : RqAdmission → Prop}, (∀ b ∈ rest, Q b) → Q a → ∀ b ∈ rest ++ [a], Q b := by
      intro Q hrest ha b hb
      rcases List.mem_append.1 hb with hb | hb
      · exact hrest b hb
      · rw [List.mem_singleton.1 hb]
        exact ha
    have hincomplete := hnew hin.incomplete hfalse
    refine ⟨fun l => hprefix ⟨msgs, _, hon', hmsgs, hincomplete⟩, msgs, _, hon', hmsgs, ?_, ?_⟩
    · intro hclosed
      rw [hvalid, hfalse] at hclosed
      cases hclosed
    · intro _
      rw [hstored]
      refine ⟨⟨hin.start, hin.last, hin.lower.trans hacked, ?_, hnew hin.inside ⟨hlower, hposition⟩,
        hnew hin.same hsame, hincomplete⟩, hopened⟩
      exact lt_of_le_of_ne hle fun hall => hdone (hcomplete.2 hall)

lemma MessageState.empty (cfg : RxQpConfig) (psn : TxPsn) : MessageState cfg (.init psn) 0 [] := by
  refine ⟨?_, [], [], rfl, eachAfter_nil, fun _ => ⟨rfl, rfl⟩, nofun⟩
  intro before hbefore
  obtain rfl := List.prefix_nil.1 hbefore
  exact ⟨[], [], rfl, eachAfter_nil, nofun⟩

lemma MessageInv.initial (packets : RxQpIndex → RxWindowIndex → RxParsedPacket)
    (age : RxQpIndex → RxWindowIndex → BitVec 8) : MessageInv (.initial packets age) .empty := by
  intro qp hvalid
  cases hvalid

/-- **Every rule and method of the window keeps what was admitted framed.** -/
theorem MessageInv.step (hi : MessageInv m h) (hw : RqInv m h) {l : RqLabel}
    (hs : m.step l = some m') : MessageInv m' (m.observe l h) := by
  have hw' := hw.step hs
  intro q hvalid
  rcases hw.grows hs with ⟨hcfgs, hstates, hadmissions, hacked⟩ |
    ⟨hnone, hacked, hcfgs, hstates, hsame⟩ | @⟨qp, packet, hadmits, hcfgs, hstates, hobs⟩
  · rw [hcfgs] at hvalid ⊢
    rw [hstates, hacked, RqHistory.on, hadmissions]
    exact hi q hvalid
  · rw [hacked, RqHistory.on, hnone, hcfgs, hstates]
    rename_i index cfg
    by_cases hq : q = index
    · subst hq
      rw [update_self, update_self]
      exact .empty cfg cfg.initialPsn
    · rw [hcfgs, update_of_ne hq] at hvalid
      have hmessages := hi q hvalid
      rw [RqHistory.on, ← hsame, hnone, hacked] at hmessages
      rw [update_of_ne hq, update_of_ne hq]
      exact hmessages
  · have hexact := hw'.exact q hvalid
    rw [hcfgs] at hvalid
    have hmessages := hi q hvalid
    rw [hobs] at hexact ⊢
    rw [hcfgs, hstates]
    by_cases hq : q = qp
    · subst hq
      have hon :
          (m.record packet h (.accept q)).on q = h.on q ++ [m.admission q packet (h.acked q)] := by
        simp [RqHistory.on, RxRqBitmapManager.record, RxRqBitmapManager.admission,
          RxRqState.admitted]
      have hself :
        (m.record packet h (.accept q)).acked q = (m.admission q packet (h.acked q)).acked :=
        update_self _ _ _
      have hnodup := hexact.nodup
      rw [RqHistory.positions, hon] at hnodup
      rw [update_self, hon, hself]
      refine hmessages.accept (hw.exact q hvalid) hadmits hnodup ?_
      intro k hk
      have hmem := (hexact.mem_positions k).2 (.inl (by rw [hself]; exact hk))
      rwa [RqHistory.positions, hon] at hmem
    · have hon : (m.record packet h (.accept qp)).on q = h.on q := by
        simp [RqHistory.on, RxRqBitmapManager.record, RxRqBitmapManager.admission,
          RxRqState.admitted, Ne.symm hq]
      have hother : (m.record packet h (.accept qp)).acked q = h.acked q :=
        update_of_ne hq _ _
      rw [update_of_ne hq, hon, hother]
      exact hmessages

/-- Every whole message is completed once, by its last packet. -/
lemma WholeMessages.completes (hm : WholeMessages cfg msgs) :
    msgs.flatten.filter (·.admitted.messageComplete) = msgs.filterMap List.getLast? := by
  induction msgs using List.reverseRecOn with
  | nil => rfl
  | append_singleton msgs as ih =>
    obtain ⟨hbefore, has⟩ := eachAfter_concat.1 hm
    obtain ⟨init, last, rfl, hlast, hinit⟩ := has.completed
    have hnone : init.filter (·.admitted.messageComplete) = [] := by
      rw [List.filter_eq_nil_iff]
      intro a ha
      rw [hinit a ha]
      exact Bool.false_ne_true
    rw [List.flatten_append, List.filter_append, ih hbefore, List.filterMap_append,
      List.flatten_singleton, List.filter_append, hnone]
    simp [hlast]

end Messages

end OpenRdma
