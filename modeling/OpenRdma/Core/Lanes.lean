import Mathlib.Tactic
import Mathlib.Data.BitVec

/-!
# Lanes that are merged by number

Elements are numbered as they come in, and each goes to a lane.  A lane works its elements off one
after the other, and the lanes do so independently.  What is done is taken in the order of the
numbers: the next one taken is at the head of some lane.  The numbers may wrap, as long as there are
fewer elements in the lanes than numbers.

* **`Merging.take`** — the element at the head of a lane that has the next number is the next one.
-/

namespace OpenRdma

open Function (update update_self update_of_ne)

variable {α ι : Type} [DecidableEq ι] {lane : α → ι} {all : List α} {n : ℕ}
    {done waiting : ι → List α}
  {i : ι} {a : α}

/-- Each lane holds its elements from the first one that has not been taken on. -/
def Merging (lane : α → ι) (all : List α) (n : ℕ) (done waiting : ι → List α) : Prop :=
  ∀ i, done i ++ waiting i = (all.drop n).filter (lane · = i)

/-- Every element is in one lane. -/
lemma sum_filter_length [Fintype ι] (lane : α → ι) (l : List α) :
    ∑ i, (l.filter (lane · = i)).length = l.length := by
  induction l with
  | nil => simp
  | cons a l ih =>
    have hcons : ∀ i, ((a :: l).filter (lane · = i)).length =
        (if lane a = i then 1 else 0) + (l.filter (lane · = i)).length := by
      intro i
      by_cases hi : lane a = i <;> simp [hi, Nat.add_comm]
    simp only [hcons, Finset.sum_add_distrib, Finset.sum_ite_eq, Finset.mem_univ, if_true, ih,
      List.length_cons, Nat.add_comm]

namespace Merging

lemma start (lane : α → ι) : Merging lane [] 0 (fun _ => []) fun _ => [] := fun _ => rfl

variable (h : Merging lane all n done waiting)

include h

/-- More elements come in. -/
lemma push (hn : n ≤ all.length) (new : List α) :
    Merging lane (all ++ new) n done fun i => waiting i ++ new.filter (lane · = i) := by
  intro i
  rw [List.drop_append_of_le_length hn, List.filter_append, ← h i, List.append_assoc]

/-- A lane is done with its next element. -/
lemma work {rest : List α} (hi : waiting i = a :: rest) :
    Merging lane all n (update done i (done i ++ [a]))
      (update waiting i rest) := by
  intro j
  rw [← h j]
  by_cases hj : j = i
  · subst hj
    rw [update_self, update_self, hi, List.append_assoc]
    rfl
  · rw [update_of_ne hj, update_of_ne hj]

lemma mem_done (ha : a ∈ done i) : a ∈ all ∧ lane a = i := by
  have hmem : a ∈ (all.drop n).filter (lane · = i) := by
    rw [← h i]
    exact List.mem_append_left _ ha
  obtain ⟨hmem, hlane⟩ := List.mem_filter.1 hmem
  exact ⟨List.mem_of_mem_drop hmem, of_decide_eq_true hlane⟩

lemma mem_waiting (ha : a ∈ waiting i) : a ∈ all ∧ lane a = i := by
  have hmem : a ∈ (all.drop n).filter (lane · = i) := by
    rw [← h i]
    exact List.mem_append_right _ ha
  obtain ⟨hmem, hlane⟩ := List.mem_filter.1 hmem
  exact ⟨List.mem_of_mem_drop hmem, of_decide_eq_true hlane⟩

/-- The lanes together hold all that have not been taken. -/
lemma length_le [Fintype ι] {c : ℕ} (hc : ∀ i, (done i).length + (waiting i).length ≤ c) :
    (all.drop n).length ≤ Fintype.card ι * c := by
  rw [← sum_filter_length lane]
  refine (Finset.sum_le_card_nsmul Finset.univ _ c fun i _ => ?_).trans ?_
  · rw [← h i, List.length_append]
    exact hc i
  · rw [Finset.card_univ, smul_eq_mul]

/-- **The head of a lane that has the next number is the next element.** -/
theorem take [Fintype ι] {w c : ℕ} {rest : List α}
    (seq : α → BitVec w) (hseq : ∀ k a, all[k]? = some a → seq a = BitVec.ofNat w k)
    (hc : ∀ i, (done i).length + (waiting i).length ≤ c) (hcw : Fintype.card ι * c ≤ 2 ^ w)
    (hi : done i = a :: rest) (hnext : seq a = BitVec.ofNat w n) :
    all[n]? = some a ∧ Merging lane all (n + 1) (update done i rest) waiting := by
  have hlane := h i
  rw [hi, List.cons_append] at hlane
  obtain ⟨before, after, hdrop, hbefore, ha, hafter⟩ := List.filter_eq_cons_iff.1 hlane.symm
  have hget : all[n + before.length]? = some a := by
    rw [← List.getElem?_drop, hdrop, List.getElem?_append_right le_rfl, Nat.sub_self]
    rfl
  -- all that came in before it have been taken: there are fewer of them than numbers
  have hnone : before = [] := by
    have hlt : before.length < 2 ^ w := by
      refine lt_of_lt_of_le ?_ ((h.length_le hc).trans hcw)
      rw [hdrop, List.length_append, List.length_cons]
      omega
    have hsame := (hseq _ _ hget).symm.trans hnext
    rw [BitVec.ofNat_add] at hsame
    have hzero : BitVec.ofNat w before.length = 0#w := add_eq_left.1 hsame
    have hmod := congrArg BitVec.toNat hzero
    rw [BitVec.toNat_ofNat, Nat.mod_eq_of_lt hlt, BitVec.toNat_zero] at hmod
    exact List.eq_nil_of_length_eq_zero hmod
  subst hnone
  rw [List.length_nil, Nat.add_zero] at hget
  refine ⟨hget, fun j => ?_⟩
  have hnext : all.drop (n + 1) = after := by
    rw [← List.drop_drop, hdrop]
    rfl
  rw [hnext]
  by_cases hj : j = i
  · subst hj
    rw [update_self, hafter]
  · have hother : (all.drop n).filter (lane · = j) = after.filter (lane · = j) := by
      rw [hdrop, List.nil_append, List.filter_cons_of_neg]
      intro heq
      exact hj ((of_decide_eq_true heq).symm.trans (of_decide_eq_true ha))
    rw [update_of_ne hj, h j, hother]

end Merging

end OpenRdma
