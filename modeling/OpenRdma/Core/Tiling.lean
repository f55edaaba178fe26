import Mathlib.Tactic

/-!
# Cutting an interval at the lines of a grid

The interval from `a` to `e` is cut at the multiples of `S` after an origin `A` that lies at most
one step before `a`.  Piece number `k` is `block A S a e k`, given by its two ends; an empty
interval is one empty piece.

* `blockCount` — how many pieces there are, with `lt_blockCount`: there is another piece after piece
  `k` exactly if the interval goes on past the next grid line.
* `range'_blocks` — the pieces are the interval.
* **`range_refine`**, `block_refine` — cutting coarsely and then every piece finely is cutting
  finely: the fine pieces come in the same order, and each is the same.
-/

namespace OpenRdma

/-- How many pieces there are. -/
def blockCount (A S e : ℕ) : ℕ := max 1 ((e - A + S - 1) / S)

/-- The ends of piece `k`. -/
def block (A S a e k : ℕ) : ℕ × ℕ := (max a (A + k * S), min e (A + (k + 1) * S))

lemma blockCount_pos (A S e : ℕ) : 0 < blockCount A S e :=
  lt_of_lt_of_le Nat.one_pos (le_max_left _ _)

/-- Another piece follows exactly if the interval goes on. -/
lemma lt_blockCount {A S e k : ℕ} (hS : 0 < S) :
    k + 1 < blockCount A S e ↔ A + (k + 1) * S < e := by
  have hdiv : k + 1 < (e - A + S - 1) / S ↔ (k + 1 + 1) * S ≤ e - A + S - 1 :=
    Nat.le_div_iff_mul_le hS
  rw [blockCount, lt_max_iff, hdiv]
  have hmul : (k + 1 + 1) * S = (k + 1) * S + S := by ring
  have hpos : S ≤ (k + 1) * S := Nat.le_mul_of_pos_left S (Nat.succ_pos k)
  omega

section Block

variable {A S a e k : ℕ}

lemma block_zero (ha : A ≤ a) : (block A S a e 0).1 = a := by
  simp [block, ha]

lemma block_succ (ha : a ≤ A + S) : (block A S a e (k + 1)).1 = A + (k + 1) * S := by
  have : S ≤ (k + 1) * S := Nat.le_mul_of_pos_left S (Nat.succ_pos k)
  simp only [block]
  omega

/-- A piece with another one after it ends at the next grid line. -/
lemma block_stop (hS : 0 < S) (hk : k + 1 < blockCount A S e) :
    (block A S a e k).2 = A + (k + 1) * S :=
  min_eq_right ((lt_blockCount hS).mp hk).le

/-- The last piece ends where the interval does. -/
lemma block_last (hS : 0 < S) (hk : k + 1 = blockCount A S e) : (block A S a e k).2 = e := by
  have := (lt_blockCount (A := A) (S := S) (e := e) (k := k) hS).not.mp (by omega)
  simp only [block]
  omega

/-- A piece does not end before its start. -/
lemma block_le (hA : A ≤ a) (ha : a ≤ A + S) (hae : a ≤ e) (hS : 0 < S)
    (hk : k < blockCount A S e) : (block A S a e k).1 ≤ (block A S a e k).2 := by
  cases k with
  | zero =>
    simp only [block, Nat.zero_mul, Nat.zero_add, Nat.one_mul]
    omega
  | succ k =>
    have h1 := (lt_blockCount hS).mp hk
    have h2 : (k + 1 + 1) * S = (k + 1) * S + S := by ring
    have h3 : S ≤ (k + 1) * S := Nat.le_mul_of_pos_left S (Nat.succ_pos k)
    simp only [block]
    omega

/-- Piece by piece, the points of the interval come in order. -/
lemma range'_blocks (hA : A ≤ a) (ha : a ≤ A + S) (hae : a ≤ e) (hS : 0 < S) :
    ((List.range (blockCount A S e)).flatMap fun k =>
      List.range' (block A S a e k).1 ((block A S a e k).2 - (block A S a e k).1))
      = List.range' a (e - a) := by
  have hfirst : ∀ m, m < blockCount A S e → ((List.range (m + 1)).flatMap fun k =>
      List.range' (block A S a e k).1 ((block A S a e k).2 - (block A S a e k).1))
      = List.range' a ((block A S a e m).2 - a) := by
    intro m
    induction m with
    | zero =>
      intro _
      simp [block_zero hA]
    | succ m ih =>
      intro hm
      have hle := block_le hA ha hae hS hm
      have hstop := block_stop (a := a) hS hm
      have hprev := block_le hA ha hae hS (show m < blockCount A S e by omega)
      have hstart : (block A S a e (m + 1)).1 = (block A S a e m).2 := by rw [block_succ ha, hstop]
      have hlow : a ≤ (block A S a e m).1 := le_max_left _ _
      obtain ⟨d, hd⟩ : ∃ d, (block A S a e m).2 = a + d := ⟨_, (Nat.add_sub_of_le (by omega)).symm⟩
      rw [List.range_succ, List.flatMap_append, ih (by omega), List.flatMap_singleton, hstart, hd,
        Nat.add_sub_cancel_left, List.range'_append_1]
      congr 1
      omega
  obtain ⟨m, hm⟩ : ∃ m, blockCount A S e = m + 1 :=
    ⟨_, (Nat.succ_pred_eq_of_pos (blockCount_pos A S e)).symm⟩
  rw [hm, hfirst m (by omega), block_last hS hm.symm]

end Block

/-! ## Refining a cut -/

/-- Counting in rows of length `q`, the last one being shorter or longer. -/
lemma range_flatMap_rows {β : Type} (g : ℕ → β) (q m c : ℕ) :
    ((List.range m).flatMap fun k => (List.range q).map fun j => g (k * q + j))
      ++ (List.range c).map (fun j => g (m * q + j)) = (List.range (m * q + c)).map g := by
  have hrows : ((List.range m).flatMap fun k => (List.range q).map fun j => g (k * q + j))
      = (List.range (m * q)).map g := by
    induction m with
    | zero => simp
    | succ m ih =>
      rw [List.range_succ, List.flatMap_append, ih, List.flatMap_singleton, Nat.succ_mul,
        List.range_add, List.map_append, List.map_map]
      rfl
  rw [hrows, List.range_add, List.map_append, List.map_map]
  rfl

section Refine

variable {A P q a e k : ℕ}

/-- How many fine pieces coarse piece `k` has. -/
def fineCount (A P q e k : ℕ) : ℕ := blockCount (A + k * (q * P)) P (min e (A + (k + 1) * (q * P)))

/-- Fine piece `j` of coarse piece `k` is fine piece `k * q + j`. -/
lemma block_refine {j : ℕ} (hj : j < q) :
    block (A + k * (q * P)) P (block A (q * P) a e k).1 (block A (q * P) a e k).2 j
      = block A P a e (k * q + j) := by
  have h1 : k * (q * P) = k * q * P := by ring
  have h2 : (k * q + j) * P = k * q * P + j * P := by ring
  have h3 : (k * q + j + 1) * P = k * q * P + (j + 1) * P := by ring
  have h4 : (k + 1) * (q * P) = k * q * P + q * P := by ring
  have h5 : (j + 1) * P ≤ q * P := Nat.mul_le_mul_right P hj
  simp only [block, h1, h2, h3, h4, Prod.mk.injEq]
  constructor <;> omega

/-- All but the last coarse piece have `q` fine ones. -/
lemma fineCount_full (hP : 0 < P) (hq : 0 < q) (hk : k + 1 < blockCount A (q * P) e) :
    fineCount A P q e k = q := by
  have hgo := (lt_blockCount (Nat.mul_pos hq hP)).mp hk
  have h1 : A + (k + 1) * (q * P) - (A + k * (q * P)) = q * P := by
    have : (k + 1) * (q * P) = k * (q * P) + q * P := by ring
    omega
  rw [fineCount, min_eq_right hgo.le, blockCount, h1,
    show q * P + P - 1 = P - 1 + P * q by rw [Nat.mul_comm]; omega,
    Nat.add_mul_div_left _ _ hP, Nat.div_eq_of_lt (by omega)]
  omega

lemma fineCount_le (hP : 0 < P) (hq : 0 < q) : fineCount A P q e k ≤ q := by
  by_contra hgt
  obtain ⟨q', rfl⟩ : ∃ q', q = q' + 1 := ⟨q - 1, by omega⟩
  have h1 := (lt_blockCount hP).mp (show q' + 1 < blockCount (A + k * ((q' + 1) * P)) P
    (min e (A + (k + 1) * ((q' + 1) * P))) from Nat.lt_of_not_le hgt)
  have h2 : (k + 1) * ((q' + 1) * P) = k * ((q' + 1) * P) + (q' + 1) * P := by ring
  omega

/-- The last coarse piece has the fine pieces that are left. -/
lemma fineCount_last (hP : 0 < P) (hq : 0 < q) (hk : k + 1 = blockCount A (q * P) e) :
    blockCount A P e = k * q + fineCount A P q e k := by
  have hstop : min e (A + (k + 1) * (q * P)) = e :=
    block_last (a := 0) (Nat.mul_pos hq hP) hk
  rw [fineCount, hstop]
  cases k with
  | zero => simp
  | succ k =>
    have hmul : (k + 1) * (q * P) = P * ((k + 1) * q) := by ring
    have hgo := (lt_blockCount (A := A) (e := e) (k := k) (Nat.mul_pos hq hP)).mp (by omega)
    have h1 : e - A + P - 1 = e - (A + (k + 1) * (q * P)) + P - 1 + P * ((k + 1) * q) := by
      omega
    have h2 : 1 ≤ (e - (A + (k + 1) * (q * P)) + P - 1) / P :=
      (Nat.le_div_iff_mul_le hP).mpr (by omega)
    rw [blockCount, blockCount, h1, Nat.add_mul_div_left _ _ hP]
    omega

/-- **Cutting coarsely, then finely**, enumerates the fine pieces. -/
theorem range_refine {β : Type} (g : ℕ → β) (A e : ℕ) (hP : 0 < P) (hq : 0 < q) :
    (List.range (blockCount A P e)).map g = (List.range (blockCount A (q * P) e)).flatMap
      (fun k => (List.range (fineCount A P q e k)).map fun j => g (k * q + j)) := by
  obtain ⟨m, hm⟩ : ∃ m, blockCount A (q * P) e = m + 1 :=
    ⟨_, (Nat.succ_pred_eq_of_pos (blockCount_pos A (q * P) e)).symm⟩
  have hfull : ∀ k ∈ List.range m, (List.range (fineCount A P q e k)).map (fun j => g (k * q + j))
      = (List.range q).map fun j => g (k * q + j) := fun k hk => by
    rw [fineCount_full hP hq (by have := List.mem_range.mp hk; omega)]
  rw [hm, List.range_succ, List.flatMap_append, List.flatMap_singleton, List.flatMap_congr hfull,
    fineCount_last hP hq hm.symm, range_flatMap_rows]

end Refine

end OpenRdma
