import OpenRdma.Core.Rules
import OpenRdma.RdmaUtils.Qp

/-!
# How much a send queue has outstanding

`SendQueueContext` knows its sequence numbers, which wrap; `SqHistory` counts the PSNs and messages
that have been handed out and acknowledged in all.  The admission test of `next_wr` adds the size of
a request to the number of outstanding PSNs in 24 bits.  A request that is so large that the sum
wraps is taken for a small one.

* **`window_kept_iff`** — the window is kept along a run exactly if no accepted request makes the
  sum wrap.
* **`window_ordered_iff`** — the PSNs of the window are ordered as they were handed out exactly if
  fewer than half the circle are outstanding.
-/

namespace OpenRdma

/-- What a send queue has handed out and what has been acknowledged, since it was created. -/
structure SqHistory where
  psns : ℕ
  psnsAcked : ℕ
  msgs : ℕ
  msgsAcked : ℕ
deriving DecidableEq, Repr

namespace SqHistory

def empty : SqHistory := ⟨0, 0, 0, 0⟩

def outstandingPsns (h : SqHistory) : ℕ := h.psns - h.psnsAcked

def outstandingMsgs (h : SqHistory) : ℕ := h.msgs - h.msgsAcked

/-- No more is outstanding than the window allows. -/
def Kept (h : SqHistory) : Prop := h.outstandingPsns ≤ maxPsnWindow ∧ h.outstandingMsgs ≤ maxSendWr

end SqHistory

/-- A request for some PSNs, or an acknowledgement of all PSNs or messages up to a count. -/
inductive SqLabel where
  | nextWr (numPsn : UInt32)
  | psnAcked (psns : ℕ)
  | msnAcked (msgs : ℕ)
deriving DecidableEq, Repr

/-- A request that is accepted, or an acknowledgement, which never passes what has been handed out.
The number that is acknowledged is known by its 24 (or 16) low bits only. -/
def sqStep (s : SendQueueContext × SqHistory) : SqLabel → Option (SendQueueContext × SqHistory)
  | .nextWr numPsn => do
      let (_, ctx) ← s.1.nextWr numPsn
      return (ctx, { s.2 with psns := s.2.psns + numPsn.toNat, msgs := s.2.msgs + 1 })
  | .psnAcked psns => do
      guard (psns ≤ s.2.psns ∧ s.2.psns < psns + 2 ^ 24)
      return (s.1.updatePsnAcked (Psn.ofPos psns), { s.2 with psnsAcked := psns })
  | .msnAcked msgs => do
      guard (msgs ≤ s.2.msgs ∧ s.2.msgs < msgs + 2 ^ 16)
      return (s.1.updateMsnAcked (UInt16.ofNat msgs), { s.2 with msgsAcked := msgs })

/-- The sequence numbers are those of the counts, and less than the whole circle is outstanding. -/
structure Counts (ctx : SendQueueContext) (h : SqHistory) : Prop where
  psn : ctx.psn = Psn.ofPos h.psns
  psnAcked : ctx.psnAcked = Psn.ofPos h.psnsAcked
  msn : ctx.msn = UInt16.ofNat h.msgs
  msnAcked : ctx.msnAcked = UInt16.ofNat h.msgsAcked
  psnsAcked_le : h.psnsAcked ≤ h.psns
  psns_lt : h.psns < h.psnsAcked + 2 ^ 24
  msgsAcked_le : h.msgsAcked ≤ h.msgs
  msgs_lt : h.msgs < h.msgsAcked + 2 ^ 16

namespace Counts

variable {ctx ctx' : SendQueueContext} {h h' : SqHistory}

lemma initial : Counts default .empty :=
  ⟨rfl, rfl, rfl, rfl, le_rfl, by decide, le_rfl, by decide⟩

lemma outstanding_psn (hc : Counts ctx h) :
    (ctx.psn - ctx.psnAcked).val.toNat = h.outstandingPsns := by
  have h1 := hc.psnsAcked_le
  have h2 := hc.psns_lt
  rw [hc.psn, hc.psnAcked, Psn.sub_val, Psn.ofPos_val, Psn.ofPos_val, SqHistory.outstandingPsns]
  omega

lemma outstanding_msn (hc : Counts ctx h) : (ctx.msn - ctx.msnAcked).toNat = h.outstandingMsgs := by
  have h1 := hc.msgsAcked_le
  have h2 := hc.msgs_lt
  rw [hc.msn, hc.msnAcked, UInt16.toNat_sub, UInt16.toNat_ofNat', UInt16.toNat_ofNat',
    SqHistory.outstandingMsgs]
  omega

/-- **What an accepted request has passed**: the sum in 24 bits, and the number of messages. -/
lemma nextWr (hc : Counts ctx h) {n : UInt32} (hs : sqStep (ctx, h) (.nextWr n) = some (ctx', h')) :
    (h.outstandingPsns + n.toNat) % 2 ^ 24 ≤ 2 ^ 23 ∧ h.outstandingMsgs < 2 ^ 15 ∧
    ctx' = { ctx with msn := ctx.msn + 1, psn := ctx.psn + n } ∧
    h' = { h with psns := h.psns + n.toNat, msgs := h.msgs + 1 } := by
  obtain ⟨⟨⟨msn, psn⟩, ctx₁⟩, hwr, hret⟩ := bind_eq_some.1 hs
  cases hret
  obtain ⟨-, -, rfl⟩ := SendQueueContext.nextWr_eq_some hwr
  simp only [SendQueueContext.nextWr] at hwr
  split at hwr
  · cases hwr
  · rename_i hroom
    rw [Psn.add_val, hc.outstanding_psn, hc.outstanding_msn, maxPsnWindow, maxPsnSizeBits,
      maxSendWr] at hroom
    refine ⟨by omega, by omega, rfl, rfl⟩

/-- A request within the window keeps the counts, and so does an acknowledgement. -/
lemma step (hc : Counts ctx h) {l : SqLabel} (hs : sqStep (ctx, h) l = some (ctx', h'))
    (hkept : ∀ n, l = .nextWr n → h'.Kept) : Counts ctx' h' := by
  cases l with
  | nextWr n =>
    obtain ⟨hpsns, hmsgs⟩ := hkept n rfl
    obtain ⟨-, -, rfl, rfl⟩ := hc.nextWr hs
    have h1 := hc.psnsAcked_le
    have h2 := hc.msgsAcked_le
    simp only [SqHistory.outstandingPsns, SqHistory.outstandingMsgs, maxPsnWindow, maxPsnSizeBits,
      maxSendWr] at hpsns hmsgs
    refine ⟨?_, hc.psnAcked, ?_, hc.msnAcked, ?_, ?_, ?_, ?_⟩
    · rw [hc.psn, Psn.ofPos_add]
    · rw [hc.msn, UInt16.ofNat_add]
      rfl
    all_goals dsimp only; omega
  | psnAcked psns =>
    obtain ⟨⟨h1, h2⟩, hret⟩ := guard_bind_eq_some.1 hs
    cases hret
    exact ⟨hc.psn, rfl, hc.msn, hc.msnAcked, h1, h2, hc.msgsAcked_le, hc.msgs_lt⟩
  | msnAcked msgs =>
    obtain ⟨⟨h1, h2⟩, hret⟩ := guard_bind_eq_some.1 hs
    cases hret
    exact ⟨hc.psn, hc.psnAcked, hc.msn, rfl, hc.psnsAcked_le, hc.psns_lt, h1, h2⟩

/-- **An accepted request keeps the window exactly if the sum does not wrap.** -/
lemma kept_iff (hc : Counts ctx h) {n : UInt32}
    (hs : sqStep (ctx, h) (.nextWr n) = some (ctx', h')) :
    h'.Kept ↔ h.outstandingPsns + n.toNat < 2 ^ 24 := by
  obtain ⟨hsum, hmsgs, -, rfl⟩ := hc.nextWr hs
  have h1 := hc.psnsAcked_le
  have h2 := hc.msgsAcked_le
  simp only [SqHistory.Kept, SqHistory.outstandingPsns, SqHistory.outstandingMsgs, maxPsnWindow,
    maxPsnSizeBits, maxSendWr] at hsum hmsgs ⊢
  omega

end Counts

/-- Along a run, a request for `n` PSNs is accepted with history `h` and leaves history `h'`. -/
def Accepts (ls : List SqLabel) (h : SqHistory) (n : UInt32) (h' : SqHistory) : Prop :=
  ∃ before later ctx ctx', ls = before ++ .nextWr n :: later ∧
    fire sqStep (default, .empty) before = some (ctx, h) ∧
    sqStep (ctx, h) (.nextWr n) = some (ctx', h')

/-- The counts are right in every state of a run that keeps the window. -/
lemma counts_of_kept {ls : List SqLabel} {ctx : SendQueueContext} {h : SqHistory}
    (hrun : fire sqStep (default, .empty) ls = some (ctx, h))
    (hkept : ∀ u n u', Accepts ls u n u' → u'.Kept) : Counts ctx h := by
  induction ls using List.reverseRecOn generalizing ctx h with
  | nil =>
    cases hrun
    exact Counts.initial
  | append_singleton ls l ih =>
    obtain ⟨⟨ctx₁, h₁⟩, hbefore, hs⟩ := fire_snoc.1 hrun
    have hc : Counts ctx₁ h₁ := by
      refine ih hbefore ?_
      rintro u n u' ⟨before, later, c, c', rfl, hc, hcs⟩
      exact hkept u n u' ⟨before, later ++ [l], c, c', by simp, hc, hcs⟩
    refine hc.step hs ?_
    rintro n rfl
    exact hkept _ n _ ⟨ls, [], ctx₁, ctx, rfl, hbefore, hs⟩

/-- **When the send window is kept.**  Along every run of requests and acknowledgements, all
accepted requests leave at most `maxPsnWindow` PSNs and at most `maxSendWr` messages outstanding
exactly if for none of them the number of outstanding PSNs and its own add up to `2 ^ 24` or
more. -/
theorem window_kept_iff {ls : List SqLabel} {s : SendQueueContext × SqHistory}
    (hrun : fire sqStep (default, .empty) ls = some s) :
    (∀ h n h', Accepts ls h n h' → h'.Kept) ↔
      ∀ h n h', Accepts ls h n h' → h.outstandingPsns + n.toNat < 2 ^ 24 := by
  constructor
  · rintro hkept h n h' ⟨before, later, ctx, ctx', rfl, hbefore, hs⟩
    have hc : Counts ctx h := by
      refine counts_of_kept hbefore ?_
      rintro u k u' ⟨front, rest, c, c', rfl, hc, hcs⟩
      exact hkept u k u' ⟨front, rest ++ .nextWr n :: later, c, c', by simp, hc, hcs⟩
    exact (hc.kept_iff hs).1 (hkept h n h' ⟨before, later, ctx, ctx', rfl, hbefore, hs⟩)
  · intro hfits
    -- by induction on what was requested before, every earlier request has kept the window
    suffices hall : ∀ front rest, ls = front ++ rest → ∀ h n h', Accepts front h n h' → h'.Kept from
      hall ls [] (by simp)
    intro front
    induction front using List.reverseRecOn with
    | nil =>
      rintro - - h n h' ⟨before, later, ctx, ctx', heq, -⟩
      simp at heq
    | append_singleton front l ih =>
      rintro rest rfl h n h' ⟨before, later, ctx, ctx', heq, hbefore, hs⟩
      have hfront : ∀ u k u', Accepts front u k u' → u'.Kept := ih (l :: rest) (by simp)
      rcases List.eq_nil_or_concat' later with rfl | ⟨later, b, rfl⟩
      · obtain ⟨rfl, hl⟩ := List.append_inj' heq rfl
        have hc : Counts ctx h := counts_of_kept hbefore hfront
        refine (hc.kept_iff hs).2 (hfits h n h' ⟨front, rest, ctx, ctx', ?_, hbefore, hs⟩)
        rw [List.append_assoc, hl]
        rfl
      · have hcut : front ++ [l] = (before ++ .nextWr n :: later) ++ [b] := by rw [heq]; simp
        obtain ⟨rfl, -⟩ := List.append_inj' hcut rfl
        exact hfront h n h' ⟨before, later, ctx, ctx', rfl, hbefore, hs⟩

/-- A request of half the circle is accepted; one PSN more is refused. -/
theorem window_kept_half :
    (fire sqStep (default, .empty) [.nextWr 0x800000]).isSome = true ∧
    sqStep (default, .empty) (.nextWr 0x800001) = none ∧
    ∀ h n h', Accepts [.nextWr 0x800000] h n h' → h'.Kept := by
  have hsome : (fire sqStep (default, .empty) [.nextWr 0x800000]).isSome = true := by decide +kernel
  refine ⟨hsome, by decide +kernel, ?_⟩
  obtain ⟨s, hs⟩ := Option.isSome_iff_exists.1 hsome
  refine (window_kept_iff hs).2 ?_
  rintro h n h' ⟨before, later, ctx, ctx', heq, hbefore, -⟩
  rcases before with _ | ⟨l, before⟩
  · cases heq
    cases hbefore
    decide
  · simp at heq

/-- A request of the largest length, in packets of 256 bytes: the sum wraps to zero, and the request
is accepted with twice the window outstanding. -/
theorem whole_circle_accepted :
    numPsn 1 0 0xFFFFFFFF = some 0x1000000 ∧
    (sqStep (default, .empty) (.nextWr 0x1000000)).map (fun s => s.2.outstandingPsns) =
      some (2 ^ 24) ∧
    maxPsnWindow = 2 ^ 23 := by
  decide +kernel

/-! ## The order on the window -/

/-- Two PSNs from the acknowledged one to the next one compare as they were handed out, and the
other way round if they are exchanged. -/
def SqHistory.Ordered (h : SqHistory) : Prop :=
  ∀ i j, h.psnsAcked ≤ i → i ≤ h.psns → h.psnsAcked ≤ j → j ≤ h.psns →
    Psn.cmp (Psn.ofPos i) (Psn.ofPos j) = compare i j ∧
    Psn.cmp (Psn.ofPos j) (Psn.ofPos i) = (Psn.cmp (Psn.ofPos i) (Psn.ofPos j)).swap

/-- The test of a search for `q` holds on a first part of the PSNs only. -/
def Partitioned (psns : List Psn) (q : Psn) : Prop :=
  ∀ p ∈ psns.dropWhile (· < q), ¬ p < q

/-- Half the circle apart, each of two PSNs is the greater one. -/
lemma cmp_half_circle (n : ℕ) : Psn.cmp (Psn.ofPos n) (Psn.ofPos (n + 2 ^ 23)) = .gt := by
  have hdist : (n % 2 ^ 24 + 2 * 2 ^ 23 - (n + 2 ^ 23) % 2 ^ 24) % (2 * 2 ^ 23) = 2 ^ 23 := by omega
  rw [Psn.cmp_eq, Psn.ofPos_val, Psn.ofPos_val, Nat.mod_mod, Nat.mod_mod, serialCmp, hdist]
  decide

lemma ordered_iff {h : SqHistory} (hle : h.psnsAcked ≤ h.psns) :
    h.Ordered ↔ h.outstandingPsns < 2 ^ 23 := by
  constructor
  · intro hord
    by_contra hge
    unfold SqHistory.outstandingPsns at hge
    have hcmp := (hord h.psnsAcked (h.psnsAcked + 2 ^ 23) le_rfl hle (by omega) (by omega)).1
    rw [cmp_half_circle, Nat.compare_eq_lt.2 (by omega)] at hcmp
    cases hcmp
  · intro hlt i j hi hi' hj hj'
    unfold SqHistory.outstandingPsns at hlt
    have hij : SerialNear (2 ^ 23) i j := by unfold SerialNear; omega
    have hji : SerialNear (2 ^ 23) j i := by unfold SerialNear; omega
    rw [Psn.cmp_ofPos hij, Psn.cmp_ofPos hji, Nat.compare_swap]
    exact ⟨rfl, rfl⟩

/-- A search among PSNs of an ordered window is well defined. -/
lemma SqHistory.Ordered.partitioned {h : SqHistory} (hord : h.Ordered) {positions : List ℕ} {q : ℕ}
    (hsorted : positions.Pairwise (· ≤ ·)) (hin : ∀ n ∈ positions, h.psnsAcked ≤ n ∧ n ≤ h.psns)
    (hq : h.psnsAcked ≤ q ∧ q ≤ h.psns) : Partitioned (positions.map Psn.ofPos) (Psn.ofPos q) := by
  have hlt : ∀ n ∈ positions, Psn.ofPos n < Psn.ofPos q ↔ n < q := by
    intro n hn
    obtain ⟨hn1, hn2⟩ := hin n hn
    show Psn.cmp _ _ = .lt ↔ n < q
    rw [(hord n q hn1 hn2 hq.1 hq.2).1, Nat.compare_eq_lt]
  induction positions with
  | nil => intro p hp; simp at hp
  | cons n rest ih =>
    obtain ⟨hfirst, hrest⟩ := List.pairwise_cons.1 hsorted
    by_cases hn : n < q
    · have hdrop : ((n :: rest).map Psn.ofPos).dropWhile (· < Psn.ofPos q) =
          (rest.map Psn.ofPos).dropWhile (· < Psn.ofPos q) := by
        rw [List.map_cons, List.dropWhile_cons_of_pos]
        simpa using (hlt n (by simp)).2 hn
      rw [Partitioned, hdrop]
      exact ih hrest (fun m hm => hin m (by simp [hm])) fun m hm => hlt m (by simp [hm])
    · -- every later position is at or past `q` as well
      intro p hp
      obtain ⟨m, hm, rfl⟩ := List.mem_map.1 (List.dropWhile_subset _ hp)
      rw [hlt m hm]
      rcases List.mem_cons.1 hm with rfl | hm
      · exact hn
      · have := hfirst m hm
        omega

/-- The sequence numbers of a send queue are those of the counts, in every run. -/
lemma psns_of_run {ls : List SqLabel} {s : SendQueueContext × SqHistory}
    (hrun : fire sqStep (default, .empty) ls = some s) :
    s.1.psn = Psn.ofPos s.2.psns ∧ s.1.psnAcked = Psn.ofPos s.2.psnsAcked ∧
    s.2.psnsAcked ≤ s.2.psns := by
  refine fire_rule (P := fun s => s.1.psn = Psn.ofPos s.2.psns ∧
    s.1.psnAcked = Psn.ofPos s.2.psnsAcked ∧ s.2.psnsAcked ≤ s.2.psns) ?_ ⟨rfl, rfl, le_rfl⟩ hrun
  rintro ⟨ctx, h⟩ l ⟨ctx', h'⟩ ⟨hpsn, hacked, hle⟩ hs
  cases l with
  | nextWr n =>
    obtain ⟨⟨⟨msn, psn⟩, ctx₁⟩, hwr, hret⟩ := bind_eq_some.1 hs
    cases hret
    obtain ⟨-, -, rfl⟩ := SendQueueContext.nextWr_eq_some hwr
    refine ⟨?_, hacked, Nat.le_add_right_of_le hle⟩
    show ctx.psn + n = _
    rw [hpsn, Psn.ofPos_add]
  | psnAcked psns =>
    obtain ⟨⟨hle', -⟩, hret⟩ := guard_bind_eq_some.1 hs
    cases hret
    exact ⟨hpsn, rfl, hle'⟩
  | msnAcked msgs =>
    obtain ⟨-, hret⟩ := guard_bind_eq_some.1 hs
    cases hret
    exact ⟨hpsn, hacked, hle⟩

/-- **When the PSNs of the send window are ordered.**  In every state that requests and
acknowledgements lead to, any two PSNs from the acknowledged one to the next one compare as they
were handed out exactly if fewer than `2 ^ 23` PSNs are outstanding; searches among them are then
well defined. -/
theorem window_ordered_iff {ls : List SqLabel} {ctx : SendQueueContext} {h : SqHistory}
    (hrun : fire sqStep (default, .empty) ls = some (ctx, h)) :
    ctx.psn = Psn.ofPos h.psns ∧ ctx.psnAcked = Psn.ofPos h.psnsAcked ∧
    (h.Ordered ↔ h.outstandingPsns < 2 ^ 23) ∧
    (h.Ordered → ∀ (positions : List ℕ) (q : ℕ), positions.Pairwise (· ≤ ·) →
      (∀ n ∈ positions, h.psnsAcked ≤ n ∧ n ≤ h.psns) → h.psnsAcked ≤ q ∧ q ≤ h.psns →
      Partitioned (positions.map Psn.ofPos) (Psn.ofPos q)) := by
  obtain ⟨hpsn, hacked, hle⟩ := psns_of_run hrun
  refine ⟨hpsn, hacked, ordered_iff hle, ?_⟩
  intro hord positions q hsorted hin hq
  exact hord.partitioned hsorted hin hq

/-- One PSN less than half the circle is outstanding: the window is ordered. -/
theorem window_ordered_below_half :
    ∃ ctx h, fire sqStep (default, .empty) [.nextWr 0x7FFFFF] = some (ctx, h) ∧ h.Ordered := by
  have hsome :
    (fire sqStep (default, .empty) [.nextWr 0x7FFFFF]).map (fun s => s.2.outstandingPsns) =
      some 0x7FFFFF := by decide +kernel
  obtain ⟨⟨ctx, h⟩, hrun, hout⟩ := Option.map_eq_some_iff.1 hsome
  refine ⟨ctx, h, hrun, (window_ordered_iff hrun).2.2.1.2 ?_⟩
  rw [hout]
  decide

/-- A request of exactly half the circle is accepted, and then the acknowledged and the next PSN are
each greater than the other. -/
theorem window_unordered_at_half :
    (fire sqStep (default, .empty) [.nextWr 0x800000]).map (fun s =>
        (s.1.psnAcked, s.1.psn, s.1.psnAcked.cmp s.1.psn, s.1.psn.cmp s.1.psnAcked)) =
      some (⟨0⟩, ⟨0x800000⟩, .gt, .gt) := by
  decide +kernel

end OpenRdma
