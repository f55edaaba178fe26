import OpenRdma.Rx.Retirement

/-!
# A flag is written after the data it guards

A flag waits in the queue of its queue pair until the DMA watermark has reached its barrier.
Sequence numbers have 24 bits, and the watermark may be far from where it was when the flag came in;
but it does not move backwards, so a barrier that was at most `2 ^ 22` ahead of it then is not
mistaken for one behind it.

* **`ordered_flag_after_data`** — whenever a flag write is accepted.
-/

namespace OpenRdma

open Function (update update_self update_of_ne)

/-! ## The watermark -/

/-- Every position before the watermark has been admitted. -/
lemma RqAckInv.covered {m : RxRqBitmapManager} {r : RqHistory} (hi : RqAckInv m r) {qp : RxQpIndex}
    {p : ℕ} :
    ∀ n, p < ackedAfter qp (r.admissions.take n) →
      ∃ a ∈ r.admissions.take n, a.admitted.qp = qp ∧ a.position = p := by
  intro n
  induction n with
  | zero =>
    intro hp
    rw [List.take_zero] at hp
    exact absurd hp (Nat.not_lt_zero p)
  | succ n ih =>
    intro hp
    cases ha : r.admissions[n]? with
    | none =>
      rw [List.take_add_one, ha] at hp ⊢
      simp only [Option.toList_none, List.append_nil] at hp ⊢
      exact ih hp
    | some a =>
      rw [take_succ_of_getElem? ha, ackedAfter_concat] at hp
      rw [take_succ_of_getElem? ha]
      by_cases hqp : a.admitted.qp = qp
      · rw [if_pos hqp] at hp
        obtain ⟨b, hb, hsame, hposition⟩ := (hi.at ha).covered p hp
        exact ⟨b, hb, hsame.trans hqp, hposition⟩
      · rw [if_neg hqp] at hp
        obtain ⟨b, hb, hb'⟩ := ih hp
        exact ⟨b, List.mem_append_left _ hb, hb'⟩

/-- **Every position before the watermark has been admitted, and its DMA is complete.** -/
theorem ReceiverInv.covered {s : RxReceiver} {h : ReceiverHistory} {g : RetireHistory}
    (hi : ReceiverInv s h g) {qp : RxQpIndex} (hvalid : (s.window.cfgs qp).valid = true) {p : ℕ}
    (hp : p < h.dmaMark qp) :
    ∃ a ∈ h.rq.admissions, a.admitted.qp = qp ∧ a.position = p ∧
      a.admitted.psn = (s.window.cfgs qp).initialPsn + BitVec.ofNat 24 p ∧
      Finished s h a.admitted := by
  obtain ⟨a, ha, hqp, rfl⟩ := hi.acks.covered _ hp
  have hmem := List.mem_of_mem_take ha
  refine ⟨a, hmem, hqp, rfl, ?_, ?_⟩
  · refine (hi.confined.window.exact qp hvalid).psn a ?_
    exact List.mem_filter.2 ⟨hmem, decide_eq_true hqp⟩
  · refine hi.retirement.finished a ?_
    exact (List.take_subset_take_left _ hi.retirement.lengths.1) ha

/-! ## Flags -/

/-- An entry of a queue was made from the `n`-th flag of the run, which came in at some
watermarks. -/
structure FromFlag (cfgs : RxQpIndex → RxQpConfig) (h : ReceiverHistory) (i : RxQpIndex)
    (e : RxOrderedEntry)
    (n : ℕ) (flag : RxOrderedFlagIngress) (marks : RxQpIndex → ℕ) : Prop where
  get : h.flags[n]? = some (flag, marks)
  seq : e.orderedSeq = BitVec.ofNat 64 n
  qpn : e.qpn = flag.qpn
  barrierPsn : e.barrierPsn = flag.barrierPsn
  valid : (cfgs i).valid = true
  own : (cfgs i).qpn = flag.qpn
  only : ∀ j, (cfgs j).valid = true → (cfgs j).qpn = flag.qpn → j = i

/-- A barrier that was near the watermark is behind it now.  The barrier is a position of the queue
pair, which may be before the first one. -/
def Behind (cfg : RxQpConfig) (barrier : TxPsn) (mark now : ℕ) : Prop :=
  ∀ z : ℤ, z ≤ mark + 2 ^ 22 → barrier = cfg.initialPsn - 1 + BitVec.ofInt 24 z → z ≤ now

/-- **What the check of a barrier says.** -/
lemma behind_of_ready {cfg : RxQpConfig} {ack barrier : TxPsn} {mark now : ℕ} (hmark : mark ≤ now)
    (hack : ack = cfg.initialPsn - 1 + BitVec.ofNat 24 now)
    (hready : rxPsnAtOrAfter ack barrier = true) : Behind cfg barrier mark now := by
  intro z hz hbarrier
  have hlt := rxPsnAtOrAfter_iff.1 hready
  rw [hack, hbarrier, add_sub_add_left_eq_sub] at hlt
  by_contra hgt
  rw [BitVec.toNat_sub, BitVec.toNat_ofNat, BitVec.toNat_ofInt] at hlt
  omega

/-- Where the flags of a run are. -/
structure FlagInv (s : RxReceiver) (h : ReceiverHistory) : Prop where
  /-- The flags that wait to come in are the last ones, and the next one gets the next number. -/
  ingress : s.ordered.failed = false → ∃ n ≤ h.flags.length, s.ordered.nextOrderedSeq =
    BitVec.ofNat 64 n ∧ s.ordered.ingressQ.elems = (h.flags.drop n).map (·.1)
  entries : ∀ i, ∀ e ∈ (s.ordered.orderedQ i).elems,
    ∃ n flag marks, FromFlag s.ordered.cfgs h i e n flag marks
  selected : s.ordered.selectedValid = true → ∃ n flag marks,
    FromFlag s.ordered.cfgs h s.ordered.selectedQp s.ordered.selectedEntry n flag marks ∧
    Behind (s.ordered.cfgs s.ordered.selectedQp) flag.barrierPsn (marks s.ordered.selectedQp)
      (h.dmaMark s.ordered.selectedQp)
  marks : ∀ x ∈ h.flags, ∀ i, x.2 i ≤ h.dmaMark i

section Receiver

variable {s s' : RxReceiver} {h h' : ReceiverHistory} {g : RetireHistory}
  {flag : RxOrderedFlagIngress}

lemma FromFlag.mono {cfgs : RxQpIndex → RxQpConfig} {i : RxQpIndex} {e : RxOrderedEntry} {n : ℕ}
    {marks : RxQpIndex → ℕ} (hf : FromFlag cfgs h i e n flag marks)
    (hmore : h.flags <+: h'.flags) : FromFlag cfgs h' i e n flag marks := by
  obtain ⟨hget, hseq, hqpn, hbarrier, hvalid, hown, honly⟩ := hf
  obtain ⟨rest, hrest⟩ := hmore
  refine ⟨?_, hseq, hqpn, hbarrier, hvalid, hown, honly⟩
  rw [← hrest, List.getElem?_append_left (List.getElem?_eq_some_iff.1 hget).1]
  exact hget

lemma Behind.mono {cfg : RxQpConfig} {barrier : TxPsn} {mark now later : ℕ}
    (hb : Behind cfg barrier mark now) (hlater : now ≤ later) : Behind cfg barrier mark later := by
  intro z hz hbarrier
  exact (hb z hz hbarrier).trans (Int.ofNat_le.2 hlater)

/-- What is known of the flags holds later too. -/
lemma FlagInv.later (hi : FlagInv s h) (hmore : h.flags <+: h'.flags)
    (hmarks : ∀ i, h.dmaMark i ≤ h'.dmaMark i) :
    (∀ i, ∀ e ∈ (s.ordered.orderedQ i).elems,
      ∃ n flag marks, FromFlag s.ordered.cfgs h' i e n flag marks) ∧
    (s.ordered.selectedValid = true → ∃ n flag marks,
      FromFlag s.ordered.cfgs h' s.ordered.selectedQp s.ordered.selectedEntry n flag marks ∧
      Behind (s.ordered.cfgs s.ordered.selectedQp) flag.barrierPsn (marks s.ordered.selectedQp)
        (h'.dmaMark s.ordered.selectedQp)) ∧
    ∀ x ∈ h.flags, ∀ i, x.2 i ≤ h'.dmaMark i := by
  refine ⟨fun i e he => ?_, fun hselected => ?_, fun x hx i => (hi.marks x hx i).trans (hmarks i)⟩
  · obtain ⟨n, flag, marks, hfrom⟩ := hi.entries i e he
    exact ⟨n, flag, marks, hfrom.mono hmore⟩
  · obtain ⟨n, flag, marks, hfrom, hbehind⟩ := hi.selected hselected
    exact ⟨n, flag, marks, hfrom.mono hmore, hbehind.mono (hmarks _)⟩

/-- A firing that has nothing to do with flags, or stops the ordered queue. -/
lemma FlagInv.keeps (hi : FlagInv s h) (hcfgs : s'.ordered.cfgs = s.ordered.cfgs)
    (hflags : h'.flags = h.flags) (hmarks : ∀ i, h.dmaMark i ≤ h'.dmaMark i)
    (hingress : s'.ordered.failed = true ∨ s'.ordered.failed = s.ordered.failed ∧
      s'.ordered.nextOrderedSeq = s.ordered.nextOrderedSeq ∧
      s'.ordered.ingressQ = s.ordered.ingressQ)
    (horderedQ : s'.ordered.orderedQ = s.ordered.orderedQ)
    (hvalid : s'.ordered.selectedValid = s.ordered.selectedValid)
    (hqp : s'.ordered.selectedQp = s.ordered.selectedQp)
    (hentry : s'.ordered.selectedEntry = s.ordered.selectedEntry) : FlagInv s' h' := by
  have hmore : h.flags <+: h'.flags := by
    rw [hflags]
  obtain ⟨hentries, hselected, hmarked⟩ := hi.later hmore hmarks
  refine ⟨?_, ?_, ?_, ?_⟩
  · intro hnone
    rcases hingress with hfailed | ⟨hfailed, hseq, hq⟩
    · rw [hfailed] at hnone
      cases hnone
    · rw [hseq, hq, hflags]
      exact hi.ingress (hfailed.symm.trans hnone)
  · rw [horderedQ, hcfgs]
    exact hentries
  · rw [hvalid, hcfgs, hqp, hentry]
    exact hselected
  · rw [hflags]
    exact hmarked

/-- The flags that a firing brings to the ordered queue are recorded, with the watermarks. -/
lemma observe_flags {l : ReceiverLabel} (hs : s.step l = some s') :
    (s.observe l h).flags =
      h.flags ++ (((s.onOrdered l).map OrderedLabel.flags).getD []).map (·, h.dmaMark) := by
  cases l with
  | ordered k =>
    obtain ⟨halone, -⟩ := guard_bind_eq_some.1 hs
    cases k with
    | orderedFlagIn flag => cases halone
    | _ => exact (List.append_nil _).symm
  | orderedFlagIn flag => rfl
  | lane i k => cases k <;> exact (List.append_nil _).symm
  | connectRetire =>
    show h.flags = h.flags ++
      (((s.dma.retireQ.first.map OrderedLabel.retireIn).map OrderedLabel.flags).getD []).map
      (·, h.dmaMark)
    cases s.dma.retireQ.first <;> exact (List.append_nil _).symm
  | _ => exact (List.append_nil _).symm

/-- A flag that is admitted is the next one. -/
lemma FlagInv.admits (hi : FlagInv s h) {i : RxQpIndex}
    {q : Fifo RxOrderedFlagIngress 8} {o : Fifo RxOrderedEntry 4}
    (hfailed : s.ordered.failed = false) (hq : s.ordered.ingressQ.deq = some (flag, q))
    (hflag : s.ordered.flagAdmissible flag i = true)
    (ho : (s.ordered.orderedQ i).enq (s.ordered.entry flag i) = some o)
    (hs : s'.ordered = { s.ordered with
      ingressQ := q
      orderedQ := update s.ordered.orderedQ i o
      lastBarrier := update s.ordered.lastBarrier i flag.barrierPsn
      lastBarrierValid := update s.ordered.lastBarrierValid i true
      nextOrderedSeq := s.ordered.nextOrderedSeq + 1 })
    (hflags : h'.flags = h.flags) (hmarks : ∀ i, h.dmaMark i ≤ h'.dmaMark i) : FlagInv s' h' := by
  have hmore : h.flags <+: h'.flags := by
    rw [hflags]
  obtain ⟨hentries, hselected, hmarked⟩ := hi.later hmore hmarks
  obtain ⟨n, -, hseq, hingress⟩ := hi.ingress hfailed
  rw [Fifo.deq_eq_some hq] at hingress
  obtain ⟨⟨f, marks⟩, rest, hdrop, hf, hrest⟩ := List.map_eq_cons_iff.1 hingress.symm
  dsimp only at hf
  subst hf
  have hget : h.flags[n]? = some (f, marks) := by
    rw [← List.head?_drop, hdrop, List.head?_cons]
  have hnext : h.flags.drop (n + 1) = rest := by
    rw [← List.drop_drop, hdrop]
    rfl
  simp only [RxOrderedQueueManager.flagAdmissible, Bool.and_eq_true, beq_iff_eq] at hflag
  obtain ⟨⟨⟨hone, hmatch⟩, -⟩, -⟩ := hflag
  have honly := countMatches_eq_one hone
  have hi' := (honly i).1 hmatch
  have hfrom : FromFlag s.ordered.cfgs h i (s.ordered.entry f i) n f marks := by
    obtain ⟨hvalid, hown⟩ : (s.ordered.cfgs i).valid = true ∧ (s.ordered.cfgs i).qpn = f.qpn := by
      simpa [RxOrderedQueueManager.flagMatch] using hmatch
    refine ⟨hget, hseq, rfl, rfl, hvalid, hown, fun j hj hjown => ?_⟩
    rw [hi']
    exact (honly j).1 (Bool.and_eq_true_iff.2 ⟨hj, beq_iff_eq.2 hjown⟩)
  refine ⟨?_, ?_, ?_, ?_⟩
  · intro _
    refine ⟨n + 1, ?_, ?_, ?_⟩
    · rw [hflags]
      exact (List.getElem?_eq_some_iff.1 hget).1
    · rw [hs, BitVec.ofNat_add, ← hseq]
      rfl
    · rw [hs, hflags, hnext]
      exact hrest.symm
  · rw [hs]
    intro j e he
    dsimp only at he ⊢
    by_cases hj : j = i
    · subst hj
      rw [update_self, Fifo.enq_eq_some ho, List.mem_append, List.mem_singleton] at he
      rcases he with he | rfl
      · exact hentries j e he
      · exact ⟨n, f, marks, hfrom.mono hmore⟩
    · rw [update_of_ne hj] at he
      exact hentries j e he
  · rw [hs]
    exact hselected
  · rw [hflags]
    exact hmarked

/-- A flag comes in, with the watermarks of the moment. -/
lemma FlagInv.comes (hi : FlagInv s h)
    {q : Fifo RxOrderedFlagIngress 8} (hq : s.ordered.ingressQ.enq flag = some q)
    (hs : s'.ordered = { s.ordered with ingressQ := q })
    (hflags : h'.flags = h.flags ++ [(flag, h.dmaMark)])
    (hmarks : ∀ i, h.dmaMark i ≤ h'.dmaMark i) :
    FlagInv s' h' := by
  have hmore : h.flags <+: h'.flags := by
    rw [hflags]
    exact List.prefix_append _ _
  obtain ⟨hentries, hselected, hmarked⟩ := hi.later hmore hmarks
  refine ⟨?_, by rw [hs]; exact hentries, by rw [hs]; exact hselected, ?_⟩
  · rw [hs]
    intro hnone
    obtain ⟨n, hn, hseq, hingress⟩ := hi.ingress hnone
    refine ⟨n, hn.trans hmore.length_le, hseq, ?_⟩
    rw [hflags, List.drop_append_of_le_length hn, List.map_append, ← hingress]
    exact Fifo.enq_eq_some hq
  · rw [hflags]
    intro x hx i
    rcases List.mem_append.1 hx with hx | hx
    · exact hmarked x hx i
    · cases List.mem_singleton.1 hx
      exact hmarks i

/-- **Every rule and method of the receiver keeps track of the flags.** -/
theorem FlagInv.step (hi : FlagInv s h) (hr : ReceiverInv s h g) {l : ReceiverLabel}
    (hs : s.step l = some s') : FlagInv s' (s.observe l h) := by
  have hmarks : ∀ i, h.dmaMark i ≤ (s.observe l h).dmaMark i := by
    intro i
    obtain ⟨d, -, hd⟩ := hr.dmaMark_step hs i
    rw [hd]
    exact Nat.le_add_right _ _
  have hflags := observe_flags (h := h) hs
  obtain ⟨-, -, hordered⟩ := RxReceiver.step_parts hs
  rcases stepPart_eq_some hordered with ⟨hl, hsame⟩ | ⟨k, hl, hk⟩
  · rw [hl] at hflags
    have hflags := hflags.trans (List.append_nil _)
    refine hi.keeps ?_ hflags hmarks (.inr ⟨?_, ?_, ?_⟩) ?_ ?_ ?_ ?_ <;> rw [hsame]
  rw [hl] at hflags
  have hnone : k.flags = [] → (s.observe l h).flags = h.flags := by
    intro hnil
    rw [hflags, Option.map_some, Option.getD_some, hnil, List.map_nil, List.append_nil]
  have hlater : k.flags = [] → _ := fun hnil => hi.later (by rw [hnone hnil]) hmarks
  cases RxOrderedQueueManager.step_fires hk with
  | configure hidle hq =>
    -- before the start no flag has come in
    have hempty : h.flags = [] := List.map_eq_nil_iff.1 (hr.confined.flags.idle hidle)
    have habsurd : ∀ {i e n flag marks}, ¬ FromFlag s.ordered.cfgs h i e n flag marks := by
      intro i e n flag marks hfrom
      have hget := hfrom.get
      rw [hempty] at hget
      cases hget
    refine ⟨?_, ?_, ?_, ?_⟩
    · rw [hq, hnone rfl]
      exact hi.ingress
    · rw [hq]
      intro i e he
      obtain ⟨n, flag, marks, hfrom⟩ := hi.entries i e he
      exact absurd hfrom habsurd
    · rw [hq]
      intro hselected
      obtain ⟨n, flag, marks, hfrom, -⟩ := hi.selected hselected
      exact absurd hfrom habsurd
    · rw [hnone rfl, hempty]
      intro x hx
      cases hx
  | badRetire | rejectInvalidFlag | rejectOrderedOverflow | badFlagResponse |
      rejectStaleFlagResponse =>
    refine hi.keeps ?_ (hnone rfl) hmarks (.inl ?_) ?_ ?_ ?_ ?_ <;> simp only [*]
  | orderedFlagIn hrun hfailed hin hq => exact hi.comes hin hq hflags hmarks
  | admitOrderedFlag hrun hfailed hdeq hflag ho hq =>
    exact hi.admits hfailed hdeq hflag ho hq (hnone rfl) hmarks
  | @selectEligibleFlag i entry hfree hfirst hready hq =>
    obtain ⟨hentries, -, hmarked⟩ := hlater rfl
    refine ⟨by rw [hq, hnone rfl]; exact hi.ingress, by rw [hq]; exact hentries, ?_,
      by rw [hnone rfl]; exact hmarked⟩
    rw [hq]
    intro _
    obtain ⟨n, flag, marks, hfrom⟩ := hi.entries i entry (List.mem_of_mem_head? hfirst)
    refine ⟨n, flag, marks, hfrom.mono (by rw [hnone rfl]), ?_⟩
    refine Behind.mono ?_ (hmarks i)
    refine behind_of_ready ?_ (hr.retirement.marks i hfrom.valid) ?_
    · exact hi.marks _ (List.mem_of_getElem? hfrom.get) i
    · rw [← hfrom.barrierPsn]
      exact hready
  | flagRequestOut hrun hselected hc hq =>
    obtain ⟨hentries, -, hmarked⟩ := hlater rfl
    refine ⟨by rw [hq, hnone rfl]; exact hi.ingress, ?_, by rw [hq]; exact nofun,
      by rw [hnone rfl]; exact hmarked⟩
    rw [hq]
    exact fun j e he => hentries j e (RxOrderedQueueManager.mem_orderedQ_accepted he)
  | _ => refine hi.keeps ?_ (hnone rfl) hmarks (.inr ⟨?_, ?_, ?_⟩) ?_ ?_ ?_ ?_ <;> simp only [*]

end Receiver

lemma FlagInv.initial (packets : RxQpIndex → RxWindowIndex → RxParsedPacket)
    (age : RxQpIndex → RxWindowIndex → BitVec 8) : FlagInv (.initial packets age) .empty := by
  refine ⟨fun _ => ⟨0, Nat.le_refl 0, rfl, rfl⟩, ?_, nofun, ?_⟩
  · intro i e he
    cases he
  · intro x hx
    cases hx

/-- **A flag does not become visible before the data it guards.**  In every run of the receiver,
whenever a flag write is accepted, it is that of a flag that came in, and if the barrier of the flag
was at most `2 ^ 22` ahead of the watermark then, every position of the queue pair through the
barrier has been admitted, and its own completion, which reports success, has been consumed. -/
theorem ordered_flag_after_data (packets : RxQpIndex → RxWindowIndex → RxParsedPacket)
    (age : RxQpIndex → RxWindowIndex → BitVec 8) {labels : List ReceiverLabel} {s s' : RxReceiver}
    {h : ReceiverHistory} (hrun : fire receiverStep (.initial packets age, .empty) labels =
      some (s, h))
    {r : RxFlagDmaRequest} (haccept : s.flagDmaRequest = some (r, s')) :
    ∃ qp n flag marks, h.flags[n]? = some (flag, marks) ∧ r.orderedSeq = BitVec.ofNat 64 n ∧
      r.qpn = flag.qpn ∧ r.barrierPsn = flag.barrierPsn ∧ (s.window.cfgs qp).valid = true ∧
      (s.window.cfgs qp).qpn = flag.qpn ∧
      (∀ j, (s.window.cfgs j).valid = true → (s.window.cfgs j).qpn = flag.qpn → j = qp) ∧
      ∀ z : ℤ, z ≤ marks qp + 2 ^ 22 →
        r.barrierPsn = (s.window.cfgs qp).initialPsn - 1 + BitVec.ofInt 24 z → ∀ p : ℕ, p < z →
        ∃ a ∈ h.rq.admissions, a.admitted.qp = qp ∧ a.position = p ∧
          a.admitted.psn = (s.window.cfgs qp).initialPsn + BitVec.ofNat 24 p ∧
          Finished s h a.admitted := by
  obtain ⟨g, hlifted⟩ := fire_watched observeRetire hrun .empty
  obtain ⟨hinv, hflags⟩ : ReceiverInv s h g ∧ FlagInv s h := by
    refine fire_rule (P := fun p : (RxReceiver × ReceiverHistory) × RetireHistory =>
      ReceiverInv p.1.1 p.1.2 p.2 ∧ FlagInv p.1.1 p.1.2) ?_
        ⟨.initial packets age, .initial packets age⟩ hlifted
    rintro ⟨⟨s, h⟩, g⟩ l ⟨⟨s', h'⟩, g'⟩ ⟨hi, hflags⟩ hstep
    obtain ⟨hreceive, rfl⟩ := watched_eq_some.1 hstep
    obtain ⟨hstep, rfl⟩ := watched_eq_some.1 hreceive
    exact ⟨hi.step hstep, hflags.step hi hstep⟩
  obtain ⟨-, hout⟩ := guard_bind_eq_some.1 haccept
  obtain ⟨⟨request, ordered⟩, hordered, hout⟩ := bind_eq_some.1 hout
  cases hout
  obtain ⟨rfl, hselected, -⟩ := RxOrderedQueueManager.flagRequestOut_eq_some hordered
  obtain ⟨n, flag, marks, hfrom, hbehind⟩ := hflags.selected hselected
  obtain ⟨hget, hseq, hqpn, hbarrier, hvalid, hown, honly⟩ := hfrom
  rw [hinv.confined.cfgs] at hvalid hown honly hbehind
  refine ⟨s.ordered.selectedQp, n, flag, marks, hget, hseq, hqpn, hbarrier, hvalid, hown, honly, ?_⟩
  intro z hz hbarrier' p hp
  have hz' := hbehind z hz (hbarrier.symm.trans hbarrier')
  exact hinv.covered hvalid (by omega)

/-- A flag of the queue pair, behind both messages. -/
def guardFlag : RxOrderedFlagIngress where
  qpn := 7
  barrierPsn := 0
  flagAddr := 0x1FFC
  rkey := 5
  value := 1

/-- The flag comes in before the packets, and is selected after they have been retired. -/
def guardedRun : List ReceiverLabel :=
  crossedRun.take 3 ++ [.orderedFlagIn guardFlag, .ordered (.admitOrderedFlag 0)] ++
    crossedRun.drop 3 ++ [.ordered (.selectEligibleFlag 0)]

theorem ordered_flag_after_data_guarded :
    ∃ s h r s', fire receiverStep (.initial (fun _ _ => default) (fun _ _ => 0), .empty)
      guardedRun =
        some (s, h) ∧
      s.flagDmaRequest = some (r, s') ∧ r.barrierPsn = 0 ∧
      ∃ qp, ∀ p : ℕ, p < 2 → ∃ a ∈ h.rq.admissions, a.admitted.qp = qp ∧ a.position = p ∧
        Finished s h a.admitted := by
  have hview :
    (fire receiverStep (.initial (fun _ _ => default) (fun _ _ => 0), .empty) guardedRun).bind
      (fun p =>
        p.1.flagDmaRequest.map (fun out => (out.1.barrierPsn, (p.1.window.cfgs 0).initialPsn,
        decide (∀ i, (p.1.window.cfgs i).valid = true → i = 0)))) =
      some (0, 0xFFFFFF, true) := by decide +kernel
  obtain ⟨⟨s, h⟩, hrun, hview⟩ := Option.bind_eq_some_iff.1 hview
  obtain ⟨⟨r, s'⟩, haccept, hview⟩ := Option.map_eq_some_iff.1 hview
  obtain ⟨hbarrier, hview⟩ := Prod.mk.inj hview
  obtain ⟨hinitial, honly⟩ := Prod.mk.inj hview
  obtain ⟨qp, n, flag, marks, -, -, -, -, hvalid, -, -, hall⟩ :=
    ordered_flag_after_data _ _ hrun haccept
  obtain rfl := of_decide_eq_true honly qp hvalid
  refine ⟨s, h, r, s', hrun, haccept, hbarrier, 0, ?_⟩
  intro p hp
  have hz : r.barrierPsn = (s.window.cfgs 0).initialPsn - 1 + BitVec.ofInt 24 2 := by
    rw [show r.barrierPsn = 0 from hbarrier, show (s.window.cfgs 0).initialPsn = 0xFFFFFF from
      hinitial]
    rfl
  obtain ⟨a, ha, hqp, hposition, -, hfinished⟩ := hall 2 (by omega) hz p (by omega)
  exact ⟨a, ha, hqp, hposition, hfinished⟩

end OpenRdma
