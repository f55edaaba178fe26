import Mathlib.Tactic

/-!
# Cutting a message into a first piece and equal further ones

A message of `len` bytes is cut into pieces of which the first has at most `F` bytes and every other
one at most `C`.  Piece `k` starts at `segStart F C k`, which does not depend on the length.
-/

namespace OpenRdma

/-- How much fits into piece `k`. -/
def segLimit (F C k : ℕ) : ℕ := if k = 0 then F else C

/-- Where piece `k` starts. -/
def segStart (F C : ℕ) : ℕ → ℕ
  | 0 => 0
  | k + 1 => F + k * C

/-- How long piece `k` is. -/
def segBytes (F C len k : ℕ) : ℕ := min (len - segStart F C k) (segLimit F C k)

/-- How many pieces there are. -/
def segCount (F C len : ℕ) : ℕ := if len ≤ F then 1 else 1 + (len - F + C - 1) / C

variable {F C len j k : ℕ}

@[simp] lemma segStart_zero : segStart F C 0 = 0 := rfl

/-- The next piece starts where a full one ends. -/
lemma segStart_succ : segStart F C (k + 1) = segStart F C k + segLimit F C k := by
  cases k with
  | zero => simp [segStart, segLimit]
  | succ k => simp [segStart, segLimit, Nat.succ_mul, Nat.add_assoc]

lemma segStart_le (h : j ≤ k) : segStart F C j ≤ segStart F C k := by
  induction h with
  | refl => exact le_rfl
  | step _ ih => rw [segStart_succ]; omega

/-- There is a piece `k` exactly if it starts before the end. -/
lemma lt_segCount (hlen : 0 < len) (hC : 0 < C) : k < segCount F C len ↔ segStart F C k < len := by
  unfold segCount
  cases k with
  | zero =>
    split <;> simp <;> omega
  | succ k =>
    simp only [segStart]
    split
    · omega
    · have hdiv : k < (len - F + C - 1) / C ↔ (k + 1) * C ≤ len - F + C - 1 :=
        Nat.le_div_iff_mul_le hC
      have hmul : (k + 1) * C = k * C + C := by ring
      omega

lemma segLimit_pos (hF : 0 < F) (hC : 0 < C) : 0 < segLimit F C k := by
  unfold segLimit
  split <;> assumption

lemma segBytes_pos (hF : 0 < F) (hC : 0 < C) (h : segStart F C k < len) :
    0 < segBytes F C len k := by
  have := segLimit_pos hF hC (k := k)
  simp only [segBytes]
  omega

/-- A piece ends where the next one starts, or the message ends. -/
lemma segBytes_end (h : segStart F C k ≤ len) :
    segStart F C k + segBytes F C len k = min len (segStart F C (k + 1)) := by
  rw [segStart_succ]
  simp only [segBytes]
  omega

/-- **The last piece is the one that reaches the end.** -/
lemma segment_last (hC : 0 < C) (hk : segStart F C k < len) :
    segStart F C k + segBytes F C len k = len ↔ k + 1 = segCount F C len := by
  have hlen : 0 < len := by omega
  have h0 : k < segCount F C len := (lt_segCount hlen hC).2 hk
  have h1 : k + 1 < segCount F C len ↔ segStart F C (k + 1) < len := lt_segCount hlen hC
  rw [segBytes_end hk.le]
  omega

/-- The pieces are apart. -/
lemma segments_apart (h : j < k) (hj : segStart F C j ≤ len) :
    segStart F C j + segBytes F C len j ≤ segStart F C k := by
  rw [segBytes_end hj]
  exact (min_le_right _ _).trans (segStart_le h)

/-- Every byte of the message is in a piece. -/
lemma exists_segment (hC : 0 < C) {b : ℕ} (hb : b < len) :
    ∃ k < segCount F C len, segStart F C k ≤ b ∧ b < segStart F C k + segBytes F C len k := by
  have hpast : b < segStart F C (segCount F C len) := by
    have := (lt_segCount (F := F) (by omega : 0 < len) hC).not.1 (lt_irrefl (segCount F C len))
    omega
  have key : ∀ n, b < segStart F C n → ∃ k < n, segStart F C k ≤ b ∧ b < segStart F C (k + 1) := by
    intro n
    induction n with
    | zero => intro h; simp at h
    | succ n ih =>
      intro h
      rcases Nat.lt_or_ge b (segStart F C n) with hlt | hge
      · obtain ⟨k, hk, h⟩ := ih hlt
        exact ⟨k, by omega, h⟩
      · exact ⟨n, by omega, hge, h⟩
  obtain ⟨k, hk, hle, hlt⟩ := key _ hpast
  refine ⟨k, hk, hle, ?_⟩
  rw [segBytes_end (by omega)]
  omega

end OpenRdma
