import OpenRdma.Rx.OrderedQueue
import OpenRdma.Rx.RqWindow

/-!
# Credit for ordered flags

The queue of a queue pair has room for four flags.  A producer may send as many flags for a queue
pair as the largest limit that it has been granted; the limit starts at four, and grows by one
whenever the write of a flag is accepted.  So there is always room for what comes in.

The limits are counters of 64 bits.  They may wrap, as a producer looks at the largest limit only.

* **`ordered_credit`** — no overflow, and every flag is issued once and in order.
-/

namespace OpenRdma

open Function (update update_self update_of_ne)

/-! ## Histories -/

/-- A write of a flag. -/
structure FlagWrite where
  qpn : TxQpn
  barrierPsn : TxPsn
  addr : BitVec 64
  value : BitVec 32
deriving DecidableEq, Repr

def RxOrderedEntry.write (e : RxOrderedEntry) : FlagWrite :=
  ⟨e.qpn, e.barrierPsn, e.dmaAddr, e.value⟩

def RxFlagDmaRequest.write (r : RxFlagDmaRequest) : FlagWrite :=
  ⟨r.qpn, r.barrierPsn, r.addr, r.value⟩

/-- What is to be written for a flag of a queue pair. -/
def RxOrderedFlagIngress.write (cfg : RxQpConfig) (flag : RxOrderedFlagIngress) : FlagWrite :=
  ⟨flag.qpn, flag.barrierPsn, rxOrderedFlagPhysical cfg flag, flag.value⟩

/-- A flag is one of a queue pair. -/
def RxQpConfig.owns (cfg : RxQpConfig) (flag : RxOrderedFlagIngress) : Bool :=
  cfg.valid && cfg.qpn == flag.qpn

/-- What a run has done with the credit. -/
structure CreditHistory where
  /-- The flags that the producer sent. -/
  sent : List RxOrderedFlagIngress
  /-- The credit that it received. -/
  credits : List RxOrderedCredit
  /-- The writes that were accepted, each with its queue pair. -/
  issued : List (RxQpIndex × RxFlagDmaRequest)
  /-- How many responses were consumed. -/
  answered : ℕ

namespace CreditHistory

def empty : CreditHistory := ⟨[], [], [], 0⟩

variable (h : CreditHistory)

/-- How many flags the producer sent for a queue pair number. -/
def sentTo (qpn : TxQpn) : ℕ := h.sent.countP (·.qpn = qpn)

/-- The largest limit that the producer knows of. -/
def granted (qpn : TxQpn) : ℕ :=
  ((h.credits.filter (·.qpn = qpn)).map (·.orderedGrantLimit.toNat)).foldl max 4

/-- The flags that the producer sent for a queue pair. -/
def sentOn (cfg : RxQpConfig) : List RxOrderedFlagIngress := h.sent.filter (cfg.owns ·)

/-- The writes of a queue pair. -/
def issuedOn (i : RxQpIndex) : List RxFlagDmaRequest := (h.issued.filter (·.1 = i)).map (·.2)

/-- A write is accepted. -/
def issue (i : RxQpIndex) (r : RxFlagDmaRequest) : CreditHistory :=
  { h with issued := h.issued ++ [(i, r)] }

variable {h} {i j : RxQpIndex} {r : RxFlagDmaRequest}

lemma issuedOn_issue_self : (h.issue i r).issuedOn i = h.issuedOn i ++ [r] := by
  simp [issuedOn, issue]

lemma issuedOn_issue_of_ne (hj : j ≠ i) : (h.issue i r).issuedOn j = h.issuedOn j := by
  simp [issuedOn, issue, hj.symm]

lemma issuedOn_issue_le : (h.issuedOn j).length ≤ ((h.issue i r).issuedOn j).length := by
  by_cases hj : j = i
  · rw [hj, issuedOn_issue_self, List.length_append]
    exact Nat.le_add_right _ _
  · rw [issuedOn_issue_of_ne hj]

end CreditHistory

lemma foldl_max_le {l : List ℕ} {a b : ℕ} (ha : a ≤ b) (hl : ∀ x ∈ l, x ≤ b) :
    l.foldl max a ≤ b := by
  induction l generalizing a with
  | nil => exact ha
  | cons x l ih =>
    exact ih (max_le ha (hl x List.mem_cons_self)) fun y hy => hl y (List.mem_cons_of_mem x hy)

namespace RxOrderedQueueManager

def observeCredit (s : RxOrderedQueueManager) : OrderedLabel → CreditHistory → CreditHistory
  | .orderedFlagIn flag, h => { h with sent := h.sent ++ [flag] }
  | .creditOut, h => { h with credits := h.credits ++ handedOut s.creditOut }
  | .flagRequestOut, h =>
    { h with issued := h.issued ++ (handedOut s.flagRequestOut).map (s.selectedQp, ·) }
  | .consumeFlagResponse, h => { h with answered := h.answered + 1 }
  | _, h => h

end RxOrderedQueueManager

/-- The manager with its history. -/
def creditStep : RxOrderedQueueManager × CreditHistory → OrderedLabel →
    Option (RxOrderedQueueManager × CreditHistory) :=
  watched RxOrderedQueueManager.step RxOrderedQueueManager.observeCredit

/-- A producer sends a flag only if it has been granted more than it sent. -/
def WithinCredit (p : RxOrderedQueueManager × CreditHistory) (l : OrderedLabel) : Prop :=
  ∀ flag ∈ l.flags, p.2.sentTo flag.qpn < p.2.granted flag.qpn

instance (p : RxOrderedQueueManager × CreditHistory) (l : OrderedLabel) :
    Decidable (WithinCredit p l) :=
  inferInstanceAs (Decidable (∀ _ ∈ _, _))

/-! ## The invariant -/

/-- Where the flags of every queue pair are, and how much credit there is. -/
structure CreditInv (s : RxOrderedQueueManager) (h : CreditHistory) : Prop where
  /-- The flags that were sent are those that were issued, those in the queue, and the rest, which
  has yet to come in unless the manager has stopped. -/
  order : ∀ i, ∃ rest, (h.issuedOn i).map RxFlagDmaRequest.write ++
      ((s.orderedQ i).elems.map RxOrderedEntry.write ++ rest) =
      (h.sentOn (s.cfgs i)).map (RxOrderedFlagIngress.write (s.cfgs i)) ∧
    (s.failed = false →
      rest = (s.ingressQ.elems.filter ((s.cfgs i).owns ·)).map
        (RxOrderedFlagIngress.write (s.cfgs i)))
  only : ∀ i, ∀ e ∈ (s.orderedQ i).elems, ∀ j, (s.cfgs j).valid = true →
  (s.cfgs j).qpn = e.qpn → j = i
  selected : s.selectedValid = true → (s.orderedQ s.selectedQp).first = some s.selectedEntry
  free : s.selectedValid = true → s.flagOutstanding = false
  outstanding : h.issued.length ≤ h.answered + if s.flagOutstanding then 1 else 0
  grant : ∀ i, s.grantLimit i = BitVec.ofNat 64 (4 + (h.issuedOn i).length)
  credits : ∀ c ∈ s.creditQ.elems ++ h.credits, ∀ j, (s.cfgs j).valid = true →
  (s.cfgs j).qpn = c.qpn →
    c.orderedGrantLimit.toNat ≤ 4 + (h.issuedOn j).length
  within : ∀ i, (h.sentOn (s.cfgs i)).length ≤ 4 + (h.issuedOn i).length
  idle : s.running = false → h.sent = [] ∧ h.issued = [] ∧ h.credits = [] ∧ s.creditQ.elems = [] ∧
    s.ingressQ.elems = [] ∧ ∀ i, (s.orderedQ i).elems = []

namespace CreditInv

variable {s s' : RxOrderedQueueManager} {h : CreditHistory} {flag : RxOrderedFlagIngress}

lemma initial : CreditInv .initial .empty where
  order := fun _ => ⟨[], rfl, fun _ => rfl⟩
  only := nofun
  selected := nofun
  free := nofun
  outstanding := Nat.le_refl 0
  grant := fun _ => rfl
  credits := nofun
  within := fun _ => Nat.zero_le _
  idle := fun _ => ⟨rfl, rfl, rfl, rfl, rfl, fun _ => rfl⟩

/-- The one queue pair that a flag may be admitted to. -/
lemma owns_iff {i : RxQpIndex}
    (hflag : s.flagAdmissible flag i = true) (j : RxQpIndex) : (s.cfgs j).owns flag = true ↔
    j = i := by
  simp only [RxOrderedQueueManager.flagAdmissible, Bool.and_eq_true, beq_iff_eq] at hflag
  have hone := countMatches_eq_one hflag.1.1.1
  rw [(hone i).1 hflag.1.1.2]
  exact hone j

variable (hi : CreditInv s h)

include hi

/-- The manager stops. -/
lemma stops (hrun : s.running = true) {q : Fifo RxFlagDmaResponse 4} {r : Fifo RxDmaRetire 8}
    {i : Fifo RxOrderedFlagIngress 8} {e : Fifo RxError 16} {n : ℕ} (hn : h.answered ≤ n) :
    CreditInv { s with
      flagResponseQ := q, retireQ := r, ingressQ := i, errorQ := e, failed := true }
      { h with answered := n } := by
  obtain ⟨horder, honly, hselected, hfree, houtstanding, hgrant, hcredits, hwithin, -⟩ := hi
  refine ⟨?_, honly, hselected, hfree, houtstanding.trans (Nat.add_le_add_right hn _), hgrant,
    hcredits, hwithin, ?_⟩
  · intro i
    obtain ⟨rest, hrest, -⟩ := horder i
    exact ⟨rest, hrest, nofun⟩
  · intro hidle
    rw [show s.running = false from hidle] at hrun
    cases hrun

/-- Nothing has come in before the start. -/
lemma configure (hidle : s.running = false) (index : RxQpIndex) (cfg : RxQpConfig) :
    CreditInv { s with
      cfgs := update s.cfgs index cfg
      dmaAck := update s.dmaAck index (cfg.initialPsn - 1)
      grantLimit := update s.grantLimit index 4
      lastBarrierValid := update s.lastBarrierValid index false
      lastBarrier := update s.lastBarrier index 0 } h := by
  obtain ⟨hsent, hissued, hcredits, hcreditQ, hingress, hqueues⟩ := hi.idle hidle
  have hissuedOn : ∀ i, h.issuedOn i = [] := by
    intro i
    rw [CreditHistory.issuedOn, hissued]
    rfl
  have hsentOn : ∀ c, h.sentOn c = [] := by
    intro c
    rw [CreditHistory.sentOn, hsent]
    rfl
  refine ⟨?_, ?_, hi.selected, hi.free, hi.outstanding, ?_, ?_, ?_, hi.idle⟩
  · intro i
    refine ⟨[], ?_, ?_⟩
    · rw [hissuedOn, hsentOn, hqueues]
      rfl
    · intro _
      rw [hingress]
      rfl
  · intro i e he
    rw [hqueues] at he
    cases he
  · intro i
    rw [hissuedOn]
    dsimp only
    by_cases hi' : i = index
    · subst hi'
      exact update_self _ _ _
    · rw [update_of_ne hi', hi.grant, hissuedOn]
  · intro c hc
    rw [hcreditQ, hcredits] at hc
    cases hc
  · intro i
    rw [hsentOn]
    exact Nat.zero_le _

/-- A flag that comes in is within the credit of its queue pair. -/
lemma orderedFlagIn {q : Fifo RxOrderedFlagIngress 8} (hrun : s.running = true)
    (hfailed : s.failed = false) (hq : s.ingressQ.enq flag = some q)
    (hcredit : h.sentTo flag.qpn < h.granted flag.qpn) :
    CreditInv { s with ingressQ := q } { h with sent := h.sent ++ [flag] } := by
  have hsentOn : ∀ c : RxQpConfig, CreditHistory.sentOn { h with sent := h.sent ++ [flag] } c =
      h.sentOn c ++ [flag].filter (c.owns ·) := fun c => List.filter_append ..
  refine ⟨?_, hi.only, hi.selected, hi.free, hi.outstanding, hi.grant, hi.credits, ?_, ?_⟩
  · intro i
    obtain ⟨rest, hrest, hingress⟩ := hi.order i
    refine ⟨rest ++ ([flag].filter ((s.cfgs i).owns ·)).map (RxOrderedFlagIngress.write (s.cfgs i)),
      ?_, ?_⟩
    · rw [hsentOn, List.map_append, ← hrest]
      simp only [List.append_assoc]
      rfl
    · intro _
      rw [hingress hfailed, Fifo.enq_eq_some hq, List.filter_append, List.map_append]
  · intro i
    rw [hsentOn, List.length_append]
    by_cases howns : (s.cfgs i).owns flag = true
    · obtain ⟨hvalid, hqpn⟩ : (s.cfgs i).valid = true ∧ (s.cfgs i).qpn = flag.qpn := by
        simpa [RxQpConfig.owns] using howns
      have hlen : (h.sentOn (s.cfgs i)).length = h.sentTo flag.qpn := by
        rw [CreditHistory.sentOn, CreditHistory.sentTo, ← List.countP_eq_length_filter]
        refine List.countP_congr fun f _ => ?_
        simp [RxQpConfig.owns, hvalid, hqpn, eq_comm (a := f.qpn)]
      have hgranted : h.granted flag.qpn ≤ 4 + (h.issuedOn i).length := by
        refine foldl_max_le (Nat.le_add_right _ _) ?_
        intro x hx
        obtain ⟨c, hc, rfl⟩ := List.mem_map.1 hx
        obtain ⟨hc, hcq⟩ := List.mem_filter.1 hc
        exact hi.credits c (List.mem_append_right _ hc) i hvalid
          (hqpn.trans (of_decide_eq_true hcq).symm)
      rw [List.filter_cons_of_pos howns, List.filter_nil, hlen]
      exact hcredit.trans_le hgranted
    · rw [List.filter_cons_of_neg howns, List.filter_nil]
      exact hi.within i
  · intro hidle
    rw [hrun] at hidle
    cases hidle

/-- A flag goes from the ingress to the queue of its queue pair. -/
lemma admitOrderedFlag {i : RxQpIndex} {q : Fifo RxOrderedFlagIngress 8} {o : Fifo RxOrderedEntry 4}
    (hrun : s.running = true) (hfailed : s.failed = false) (hq : s.ingressQ.deq = some (flag, q))
    (hflag : s.flagAdmissible flag i = true) (ho : (s.orderedQ i).enq (s.entry flag i) = some o) :
    CreditInv { s with
      ingressQ := q
      orderedQ := update s.orderedQ i o
      lastBarrier := update s.lastBarrier i flag.barrierPsn
      lastBarrierValid := update s.lastBarrierValid i true
      nextOrderedSeq := s.nextOrderedSeq + 1 } h := by
  have ho := Fifo.enq_eq_some ho
  have hq := Fifo.deq_eq_some hq
  refine ⟨?_, ?_, ?_, hi.free, hi.outstanding, hi.grant, hi.credits, hi.within, ?_⟩
  · intro j
    obtain ⟨rest, hrest, hingress⟩ := hi.order j
    replace hingress := hingress hfailed
    rw [hq] at hingress
    by_cases hj : j = i
    · subst hj
      rw [List.filter_cons_of_pos ((owns_iff hflag j).2 rfl), List.map_cons] at hingress
      refine ⟨(q.elems.filter ((s.cfgs j).owns ·)).map (RxOrderedFlagIngress.write (s.cfgs j)), ?_,
        fun _ => rfl⟩
      dsimp only
      rw [update_self, ho, ← hrest, hingress, List.map_append, List.append_assoc]
      rfl
    · have hother : ¬ (s.cfgs j).owns flag = true := fun howns => hj ((owns_iff hflag j).1 howns)
      rw [List.filter_cons_of_neg hother] at hingress
      refine ⟨rest, ?_, fun _ => hingress⟩
      dsimp only
      rw [update_of_ne hj]
      exact hrest
  · intro j e he k hvalid hqpn
    dsimp only at he
    by_cases hj : j = i
    · subst hj
      rw [update_self, ho, List.mem_append, List.mem_singleton] at he
      rcases he with he | rfl
      · exact hi.only j e he k hvalid hqpn
      · refine (owns_iff hflag k).1 ?_
        exact Bool.and_eq_true_iff.2 ⟨hvalid, beq_iff_eq.2 hqpn⟩
    · rw [update_of_ne hj] at he
      exact hi.only j e he k hvalid hqpn
  · intro hsel
    have hfirst := hi.selected hsel
    dsimp only
    by_cases hj : s.selectedQp = i
    · rw [hj] at hfirst ⊢
      rw [update_self]
      rw [Fifo.first, List.head?_eq_some_iff] at hfirst ⊢
      obtain ⟨tail, htail⟩ := hfirst
      exact ⟨tail ++ [s.entry flag i], by rw [ho, htail]; rfl⟩
    · rw [update_of_ne hj]
      exact hfirst
  · intro hidle
    rw [show s.running = false from hidle] at hrun
    cases hrun

/-- The write of the selected flag is accepted, and its credit is granted. -/
lemma flagRequestOut {c : Fifo RxOrderedCredit 8} (hrun : s.running = true)
    (hselected : s.selectedValid = true)
    (hc : s.creditQ.enq ⟨s.selectedEntry.qpn, s.grantLimit s.selectedQp + 1⟩ = some c) :
    CreditInv (s.accepted c) (h.issue s.selectedQp s.flagRequest) := by
  have hc := Fifo.enq_eq_some hc
  obtain ⟨tail, htail⟩ : ∃ tail, (s.orderedQ s.selectedQp).elems = s.selectedEntry :: tail :=
    List.head?_eq_some_iff.1 (hi.selected hselected)
  have hdrop : (RxOrderedQueueManager.dropFirst (s.orderedQ s.selectedQp)).elems = tail := by
    obtain ⟨a, q, hdeq, -⟩ :=
      Fifo.deq_of_pos (q := s.orderedQ s.selectedQp) (by rw [htail]; exact Nat.succ_pos _)
    have helems := Fifo.deq_eq_some hdeq
    rw [htail] at helems
    rw [RxOrderedQueueManager.dropFirst, hdeq]
    exact (List.cons.inj helems).2.symm
  have hnext : s.grantLimit s.selectedQp + 1 =
      BitVec.ofNat 64
        (4 + ((h.issue s.selectedQp s.flagRequest).issuedOn s.selectedQp).length) := by
    rw [hi.grant, CreditHistory.issuedOn_issue_self, List.length_append]
    exact (BitVec.ofNat_add _ 1).symm
  refine ⟨?_, ?_, nofun, nofun, ?_, ?_, ?_, ?_, ?_⟩
  · intro j
    obtain ⟨rest, hrest, hingress⟩ := hi.order j
    refine ⟨rest, ?_, hingress⟩
    refine Eq.trans ?_ hrest
    dsimp only [RxOrderedQueueManager.accepted]
    by_cases hj : j = s.selectedQp
    · subst hj
      rw [CreditHistory.issuedOn_issue_self, update_self, hdrop, htail, List.map_append,
        List.append_assoc]
      rfl
    · rw [CreditHistory.issuedOn_issue_of_ne hj, update_of_ne hj]
  · exact fun j e he => hi.only j e (RxOrderedQueueManager.mem_orderedQ_accepted he)
  · have hle := hi.outstanding
    rw [hi.free hselected] at hle
    rw [CreditHistory.issue, List.length_append]
    exact Nat.succ_le_succ hle
  · intro j
    dsimp only [RxOrderedQueueManager.accepted]
    by_cases hj : j = s.selectedQp
    · subst hj
      rw [update_self, hnext]
    · rw [update_of_ne hj, CreditHistory.issuedOn_issue_of_ne hj, hi.grant]
  · intro x hx j hvalid hqpn
    have hold : x ∈ s.creditQ.elems ++ h.credits → x.orderedGrantLimit.toNat ≤
        4 + ((h.issue s.selectedQp s.flagRequest).issuedOn j).length := by
      intro hx
      exact (hi.credits x hx j hvalid hqpn).trans
        (Nat.add_le_add_left CreditHistory.issuedOn_issue_le 4)
    dsimp only [RxOrderedQueueManager.accepted] at hx
    rw [hc, List.append_assoc, List.mem_append, List.mem_append, List.mem_singleton] at hx
    rcases hx with hx | rfl | hx
    · exact hold (List.mem_append_left _ hx)
    · -- the flag is one of this queue pair only
      have hj : j = s.selectedQp := by
        refine hi.only s.selectedQp s.selectedEntry ?_ j hvalid hqpn
        rw [htail]
        exact List.mem_cons_self
      rw [hj, hnext]
      exact Nat.mod_le _ _
    · exact hold (List.mem_append_right _ hx)
  · intro j
    exact (hi.within j).trans (Nat.add_le_add_left CreditHistory.issuedOn_issue_le 4)
  · intro hidle
    rw [show s.running = false from hidle] at hrun
    cases hrun

/-- **A firing within the credit keeps the account.** -/
theorem step {l : OrderedLabel} (hstep : s.step l = some s')
    (hcredit : WithinCredit (s, h) l) : CreditInv s' (s.observeCredit l h) := by
  cases RxOrderedQueueManager.step_fires hstep with
  | @configure index cfg hidle hs =>
    subst hs
    exact hi.configure hidle index cfg
  | start hs =>
    subst hs
    obtain ⟨horder, honly, hselected, hfree, houtstanding, hgrant, hcredits, hwithin, -⟩ := hi
    exact ⟨horder, honly, hselected, hfree, houtstanding, hgrant, hcredits, hwithin, nofun⟩
  | badRetire hrun hq hbad hs | rejectInvalidFlag hrun hq hs | rejectOrderedOverflow hrun hq hs
  | rejectStaleFlagResponse hrun hs =>
    subst hs
    exact hi.stops hrun le_rfl
  | @orderedFlagIn flag q hrun hfailed hq hs =>
    subst hs
    exact hi.orderedFlagIn hrun hfailed hq (hcredit flag List.mem_cons_self)
  | admitOrderedFlag hrun hfailed hq hflag ho hs =>
    subst hs
    exact hi.admitOrderedFlag hrun hfailed hq hflag ho
  | selectEligibleFlag hfree hfirst hready hs =>
    subst hs
    obtain ⟨horder, honly, -, -, houtstanding, hgrant, hcredits, hwithin, hidle⟩ := hi
    exact ⟨horder, honly, fun _ => hfirst, fun _ => hfree, houtstanding, hgrant, hcredits, hwithin,
      hidle⟩
  | flagRequestOut hrun hselected hc hs =>
    subst hs
    obtain ⟨⟨request, t⟩, hout, -⟩ := Option.map_eq_some_iff.1 hstep
    obtain ⟨rfl, -⟩ := RxOrderedQueueManager.flagRequestOut_eq_some hout
    rw [RxOrderedQueueManager.observeCredit, handedOut_of_eq_some hout]
    exact hi.flagRequestOut hrun hselected hc
  | consumeFlagResponse houtstanding hs =>
    subst hs
    obtain ⟨horder, honly, hselected, -, hle, hgrant, hcredits, hwithin, hidle⟩ := hi
    rw [houtstanding] at hle
    exact ⟨horder, honly, hselected, fun _ => rfl, hle, hgrant, hcredits, hwithin, hidle⟩
  | badFlagResponse hrun hs =>
    subst hs
    exact hi.stops hrun (Nat.le_succ _)
  | @creditOut value q hq hs =>
    subst hs
    obtain ⟨horder, honly, hselected, hfree, houtstanding, hgrant, hcredits, hwithin, hidle⟩ := hi
    have helems := Fifo.deq_eq_some hq
    have hout : s.creditOut = some (value, { s with creditQ := q }) := bind_eq_some.2 ⟨_, hq, rfl⟩
    refine ⟨horder, honly, hselected, hfree, houtstanding, hgrant, ?_, hwithin, ?_⟩
    · intro c hc
      refine hcredits c ?_
      dsimp only [RxOrderedQueueManager.observeCredit] at hc
      rw [handedOut_of_eq_some hout] at hc
      rw [helems]
      simp only [List.mem_append, List.mem_cons, List.not_mem_nil, or_false] at hc ⊢
      tauto
    · intro hrun
      rw [helems] at hidle
      cases (hidle hrun).2.2.2.1
  | _ =>
    -- nothing here concerns flags
    subst_vars
    obtain ⟨horder, honly, hselected, hfree, houtstanding, hgrant, hcredits, hwithin, hidle⟩ := hi
    exact ⟨horder, honly, hselected, hfree, houtstanding, hgrant, hcredits, hwithin, hidle⟩

/-- What is in the queue of a queue pair and what waits for it are no more than four. -/
lemma room (hfailed : s.failed = false) (i : RxQpIndex) :
    (s.orderedQ i).elems.length + (s.ingressQ.elems.filter ((s.cfgs i).owns ·)).length ≤ 4 := by
  obtain ⟨rest, hrest, hingress⟩ := hi.order i
  have hlen := congrArg List.length hrest
  rw [hingress hfailed] at hlen
  simp only [List.length_append, List.length_map] at hlen
  have hwithin := hi.within i
  omega

lemma no_overflow (i : RxQpIndex) : s.rejectOrderedOverflow i = none := by
  rw [Option.eq_none_iff_forall_ne_some]
  intro s' hover
  obtain ⟨hguard, hover⟩ := guard_bind_eq_some.1 hover
  obtain ⟨⟨flag, q⟩, hq, hover⟩ := bind_eq_some.1 hover
  obtain ⟨hflag, -⟩ := guard_bind_eq_some.1 hover
  simp only [Bool.and_eq_true, Bool.not_eq_true'] at hguard hflag
  have hroom := hi.room hguard.2 i
  rw [Fifo.deq_eq_some hq, List.filter_cons_of_pos ((owns_iff hflag.1 i).2 rfl),
    List.length_cons] at hroom
  have hfull := hflag.2
  rw [Fifo.notFull, decide_eq_false_iff_not] at hfull
  omega

end CreditInv

/-! ## Runs -/

/-- **Credit keeps the queues from overflowing.**  In every run in which the producer sends no more
flags for a queue pair than it has been granted, no flag finds its queue full: while the manager has
not stopped, what is in the queue of a queue pair and what waits for it are at most four.  The
writes of a queue pair, followed by what is in its queue and a rest, are the flags that were sent
for it: each is written at most once, and in order.  At most one write has not been answered. -/
theorem ordered_credit {s : RxOrderedQueueManager} {h : CreditHistory} {labels : List OrderedLabel}
    (hrun : fire creditStep (.initial, .empty) labels = some (s, h))
    (hcredit : Meets creditStep WithinCredit (.initial, .empty) labels) :
    (∀ i, s.rejectOrderedOverflow i = none ∧ (s.orderedQ i).elems.length ≤ 4 ∧
      (s.failed = false →
        (s.orderedQ i).elems.length + (s.ingressQ.elems.filter ((s.cfgs i).owns ·)).length ≤ 4) ∧
      ∃ rest, (h.issuedOn i).map RxFlagDmaRequest.write ++
        ((s.orderedQ i).elems.map RxOrderedEntry.write ++ rest) =
        (h.sentOn (s.cfgs i)).map (RxOrderedFlagIngress.write (s.cfgs i))) ∧
    h.issued.length ≤ h.answered + 1 := by
  have hinv : CreditInv s h := by
    refine fire_rule_meets (P := fun p : RxOrderedQueueManager × CreditHistory => CreditInv p.1 p.2)
      ?_ CreditInv.initial hcredit hrun
    rintro ⟨t, g⟩ l ⟨t', g'⟩ hi hok hstep
    obtain ⟨hstep, hg⟩ := watched_eq_some.1 hstep
    dsimp only at hstep hg
    rw [hg]
    exact hi.step hstep hok
  refine ⟨?_, ?_⟩
  · intro i
    obtain ⟨rest, hrest, -⟩ := hinv.order i
    exact ⟨hinv.no_overflow i, (s.orderedQ i).bounded, fun hfailed => hinv.room hfailed i, rest,
      hrest⟩
  · refine hinv.outstanding.trans (Nat.add_le_add_left ?_ _)
    split <;> decide

/-- Flags of a queue pair that wait for no packet, told apart by what is written. -/
def flagOf (value : BitVec 32) : RxOrderedFlagIngress where
  qpn := 7
  barrierPsn := 0xFFFFFE
  flagAddr := 0x1FFC
  rkey := 5
  value := value

/-- Four flags fill the queue, and the fifth one is sent after the first one was written. -/
def fiveFlags : List OrderedLabel :=
  [.configureEpoch 0, .configure 0 wrapConfig, .start, .orderedFlagIn (flagOf 1),
    .orderedFlagIn (flagOf 2), .orderedFlagIn (flagOf 3), .orderedFlagIn (flagOf 4),
    .admitOrderedFlag 0, .admitOrderedFlag 0,
    .admitOrderedFlag 0, .admitOrderedFlag 0, .selectEligibleFlag 0, .flagRequestOut, .creditOut,
    .orderedFlagIn (flagOf 5), .admitOrderedFlag 0, .flagResponseIn ⟨0, 0, true⟩,
    .consumeFlagResponse, .skipEmptyQp 1, .skipEmptyQp 2, .skipEmptyQp 3, .selectEligibleFlag 0,
    .flagRequestOut]

theorem ordered_credit_five_flags :
    ∃ s h, fire creditStep (.initial, .empty) fiveFlags = some (s, h) ∧
      h.issued.map (·.2.value) = [1, 2] ∧ (s.orderedQ 0).elems.map (·.value) = [3, 4, 5] ∧
      s.rejectOrderedOverflow 0 = none ∧ h.issued.length ≤ h.answered + 1 := by
  have hview : (fire creditStep (.initial, .empty) fiveFlags).map
      (fun p => (p.2.issued.map (·.2.value), (p.1.orderedQ 0).elems.map (·.value))) =
      some ([1, 2], [3, 4, 5]) := by decide +kernel
  obtain ⟨⟨s, h⟩, hrun, hview⟩ := Option.map_eq_some_iff.1 hview
  obtain ⟨hissued, hqueue⟩ := Prod.mk.inj hview
  obtain ⟨hqueues, houtstanding⟩ := ordered_credit hrun (by decide +kernel)
  exact ⟨s, h, hrun, hissued, hqueue, (hqueues 0).1, houtstanding⟩

end OpenRdma
