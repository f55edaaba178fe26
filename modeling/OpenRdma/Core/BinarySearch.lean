import Mathlib.Tactic

/-!
# Binary search

The search of the standard library for the end of the first part of a sequence, on which a test
holds: a window is halved until one element is left.  A deque is two slices, and the second one is
searched if the test holds on its first element.

The result is specified for sequences that the test cuts in two.  But the first element is looked at
last, and only if the second one fails the test; so it does not matter what the test says of the
first element when it holds on the second.

* **`ringSearch_eq`** — the result, for a sequence that is cut in two but for its first element.
-/

namespace OpenRdma

/-- Halve the window of `size` elements from `base` on. -/
def searchLoop (q : ℕ → Bool) (base size : ℕ) : ℕ :=
  if size ≤ 1 then base
  else searchLoop q (if q (base + size / 2) then base + size / 2 else base) (size - size / 2)
termination_by size
decreasing_by omega

variable {α : Type}

/-- The search in a slice. -/
def sliceSearch (p : α → Bool) (l : List α) : ℕ :=
  if l = [] then 0
  else
    let base := searchLoop (fun i => l[i]?.any p) 0 l.length
    if l[base]?.any p then base + 1 else base

/-- The search in a deque whose first slice has `k` elements. -/
def ringSearch (p : α → Bool) (k : ℕ) (l : List α) : ℕ :=
  if (l.drop k).head?.any p then (l.take k).length + sliceSearch p (l.drop k)
  else sliceSearch p (l.take k)

/-- The window stays within the sequence. -/
lemma searchLoop_lt (q : ℕ → Bool) {base size n : ℕ} (hsize : 0 < size) (hn : base + size ≤ n) :
    searchLoop q base size < n := by
  induction size using Nat.strong_induction_on generalizing base with
  | _ size ih =>
    rw [searchLoop]
    split
    · omega
    · refine ih (size - size / 2) (by omega) (by omega) ?_
      split <;> omega

/-- The test holds up to `t`, and fails from there on; of the first element this need not be so if
the second one passes. -/
structure CutAt (q : ℕ → Bool) (n t : ℕ) : Prop where
  le : t ≤ n
  later : ∀ i, 0 < i → i < n → q i = decide (i < t)
  first : q 0 = decide (0 < t) ∨ 2 ≤ t

/-- **The loop ends next to the cut.** -/
lemma CutAt.searchLoop {q : ℕ → Bool} {n t : ℕ} (h : CutAt q n t) {base size : ℕ} (hsize : 0 < size)
    (hn : base + size ≤ n) (hbase : base = 0 ∨ base < t) (ht : base ≤ t ∧ t ≤ base + size) :
    (if q (searchLoop q base size) then searchLoop q base size + 1 else searchLoop q base size) =
      t := by
  induction size using Nat.strong_induction_on generalizing base with
  | _ size ih =>
    rw [OpenRdma.searchLoop]
    split
    · -- one element is left; it is the first one only if the cut is next to it
      have hlast : q base = decide (base < t) := by
        rcases Nat.eq_zero_or_pos base with rfl | hpos
        · rcases h.first with hfirst | hfirst
          · exact hfirst
          · omega
        · exact h.later base hpos (by omega)
      rw [hlast]
      by_cases hlt : base < t
      · rw [if_pos (by simpa using hlt)]
        omega
      · rw [if_neg (by simpa using hlt)]
        omega
    · have hmid := h.later (base + size / 2) (by omega) (by omega)
      by_cases hlt : base + size / 2 < t
      · have hright : (if q (base + size / 2) then base + size / 2 else base) = base + size / 2 :=
          if_pos (by rw [hmid]; simpa using hlt)
        rw [hright]
        exact ih (size - size / 2) (by omega) (by omega) (by omega) (.inr hlt) (by omega)
      · have hleft : (if q (base + size / 2) then base + size / 2 else base) = base :=
          if_neg (by rw [hmid]; simpa using hlt)
        rw [hleft]
        exact ih (size - size / 2) (by omega) (by omega) (by omega) hbase (by omega)

/-- The first part `a` passes the test and the rest fails it; its first element need not pass if
there is a second one. -/
structure Halves (p : α → Bool) (a b : List α) : Prop where
  pass : ∀ x ∈ a.tail, p x = true
  fail : ∀ x ∈ b, p x = false
  first : (∀ x ∈ a, p x = true) ∨ 2 ≤ a.length

/-- A sequence in two halves is cut where the second one starts. -/
lemma Halves.cutAt {p : α → Bool} {a b : List α} (h : Halves p a b) :
    CutAt (fun i => (a ++ b)[i]?.any p) (a ++ b).length a.length := by
  have hb : ∀ i, a.length ≤ i → ((a ++ b)[i]?.any p) = false := by
    intro i hi
    rw [List.getElem?_append_right hi]
    cases hx : b[i - a.length]? with
    | none => rfl
    | some x => exact h.fail x (List.mem_of_getElem? hx)
  refine ⟨by simp, fun i hi hlt => ?_, ?_⟩
  · by_cases hia : i < a.length
    · obtain ⟨x, hx⟩ : ∃ x, a[i]? = some x := ⟨_, List.getElem?_eq_getElem hia⟩
      have hmem : x ∈ a.tail := by
        refine List.mem_of_getElem? (i := i - 1) ?_
        rw [List.getElem?_tail, Nat.sub_add_cancel hi, hx]
      show (a ++ b)[i]?.any p = _
      rw [List.getElem?_append_left hia, hx, Option.any_some, h.pass x hmem, decide_eq_true hia]
    · show (a ++ b)[i]?.any p = _
      rw [hb i (Nat.le_of_not_lt hia), decide_eq_false hia]
  · rcases h.first with hall | htwo
    · refine .inl ?_
      cases a with
      | nil => simpa using hb 0 (Nat.le_refl 0)
      | cons x a => simp [hall x List.mem_cons_self]
    · exact .inr htwo

lemma sliceSearch_le (p : α → Bool) (l : List α) : sliceSearch p l ≤ l.length := by
  unfold sliceSearch
  split
  · exact Nat.zero_le _
  · next hne =>
      have hlt := searchLoop_lt (fun i => l[i]?.any p) (List.length_pos_of_ne_nil hne)
        (Nat.le_of_eq (Nat.zero_add l.length))
      simp only
      split <;> omega

/-- The search finds where the second half starts. -/
lemma sliceSearch_eq {p : α → Bool} {a b : List α} (h : Halves p a b) :
    sliceSearch p (a ++ b) = a.length := by
  unfold sliceSearch
  split
  · next hnil => rw [(List.append_eq_nil_iff.mp hnil).1, List.length_nil]
  · next hne =>
      have hcut := h.cutAt
      exact hcut.searchLoop (List.length_pos_of_ne_nil hne) (by omega) (.inl rfl)
        ⟨Nat.zero_le _, by have := hcut.le; omega⟩

lemma ringSearch_le (p : α → Bool) (k : ℕ) (l : List α) : ringSearch p k l ≤ l.length := by
  have hsplit : (l.take k).length + (l.drop k).length = l.length := by
    rw [← List.length_append, List.take_append_drop]
  unfold ringSearch
  split
  · have := sliceSearch_le p (l.drop k)
    omega
  · have := sliceSearch_le p (l.take k)
    omega

/-- **What the search finds**, wherever the deque is split. -/
theorem ringSearch_eq {p : α → Bool} {a b : List α} (h : Halves p a b) {k : ℕ} (hk : 0 < k) :
    ringSearch p k (a ++ b) = a.length := by
  unfold ringSearch
  by_cases hka : k < a.length
  · -- the split is in the first part, and the second slice starts with an element that passes
    have hdrop : (a ++ b).drop k = a.drop k ++ b := List.drop_append_of_le_length (by omega)
    have hpass : ∀ x ∈ a.drop k, p x = true := fun x hx => by
      refine h.pass x (List.mem_of_mem_drop (i := k - 1) ?_)
      rw [List.drop_tail, Nat.sub_add_cancel hk]
      exact hx
    have hhead : ((a ++ b).drop k).head?.any p = true := by
      rw [hdrop]
      cases hd : a.drop k with
      | nil =>
        have := congrArg List.length hd
        rw [List.length_drop, List.length_nil] at this
        omega
      | cons x rest => simpa using hpass x (by rw [hd]; exact List.mem_cons_self)
    have hhalves : Halves p (a.drop k) b :=
      ⟨fun x hx => hpass x (List.mem_of_mem_tail hx), h.fail, .inl hpass⟩
    rw [if_pos hhead, hdrop, sliceSearch_eq hhalves, List.length_drop, List.length_take,
      List.length_append]
    omega
  · have hdrop : (a ++ b).drop k = b.drop (k - a.length) := by
      rw [List.drop_append, List.drop_of_length_le (by omega), List.nil_append]
    have htake : (a ++ b).take k = a ++ b.take (k - a.length) := by
      rw [List.take_append, List.take_of_length_le (by omega)]
    have hhead : ¬ ((a ++ b).drop k).head?.any p = true := by
      rw [hdrop]
      cases hd : b.drop (k - a.length) with
      | nil => simp
      | cons x rest =>
        have := h.fail x (List.mem_of_mem_drop (hd ▸ List.mem_cons_self))
        simp [this]
    have hhalves : Halves p a (b.take (k - a.length)) :=
      ⟨h.pass, fun x hx => h.fail x (List.mem_of_mem_take hx), h.first⟩
    rw [if_neg hhead, htake, sliceSearch_eq hhalves]

end OpenRdma
