import OpenRdma.Core.KeyedQueue

/-!
# Spans on a line of cells

Non-empty spans `[start, start + length)` that do not overlap, ordered by their start, on a line
that is cut into cells of `P` positions.  Two spans may share a cell.

**`fresh_iff`**: which cells a new span is the first to touch is decided by its two neighbours alone
— the last span before it, and the first one after it.
-/

namespace OpenRdma

namespace Spans

/-- The cells that a span touches. -/
def Touches (P : ℕ) (r : ℕ × ℕ) (c : ℕ) : Prop := r.1 / P ≤ c ∧ c ≤ (r.1 + r.2 - 1) / P

instance (P : ℕ) (r : ℕ × ℕ) (c : ℕ) : Decidable (Touches P r c) :=
  inferInstanceAs (Decidable (_ ∧ _))

/-- One span ends before the other starts. -/
def Apart (r q : ℕ × ℕ) : Prop := r.1 + r.2 ≤ q.1 ∨ q.1 + q.2 ≤ r.1

/-- The spans are not empty and do not overlap. -/
structure Valid (Q : KeyedQueue ℕ) : Prop where
  pos : ∀ r ∈ Q.entries, 0 < r.2
  apart : ∀ r ∈ Q.entries, ∀ q ∈ Q.entries, r ≠ q → Apart r q

variable {P : ℕ} {Q : KeyedQueue ℕ}

/-- **The bytes of a cell decide.** -/
lemma touches_iff (hP : 0 < P) {r : ℕ × ℕ} (hr : 0 < r.2) {c : ℕ} :
    Touches P r c ↔ ∃ a, r.1 ≤ a ∧ a < r.1 + r.2 ∧ a / P = c := by
  constructor
  · rintro ⟨hlo, hhi⟩
    refine ⟨max r.1 (c * P), le_max_left _ _, ?_, ?_⟩
    · have : c * P ≤ r.1 + r.2 - 1 := (Nat.le_div_iff_mul_le hP).mp hhi
      omega
    · rcases le_total r.1 (c * P) with hle | hle
      · rw [max_eq_right hle, Nat.mul_div_cancel c hP]
      · rw [max_eq_left hle]
        exact le_antisymm hlo ((Nat.le_div_iff_mul_le hP).mpr hle)
  · rintro ⟨a, hlo, hhi, rfl⟩
    exact ⟨Nat.div_le_div_right hlo, Nat.div_le_div_right (by omega)⟩

/-- The first new cell of a span from `s` on: not the one in which the span before it ends. -/
def firstCell (P : ℕ) (Q : KeyedQueue ℕ) (s : ℕ) : ℕ :=
  match Q.lastLe s with
  | some r => if (r.1 + r.2 - 1) / P = s / P then s / P + 1 else s / P
  | none => s / P

/-- Behind the last new cell of a span up to `e`: not the one in which the span after it starts. -/
def endCell (P : ℕ) (Q : KeyedQueue ℕ) (e : ℕ) : ℕ :=
  match Q.firstGe e with
  | some r => if r.1 / P = (e - 1) / P then (e - 1) / P else (e - 1) / P + 1
  | none => (e - 1) / P + 1

/-- A span before `s` touches no cell from `firstCell` on, and the one before it all it could. -/
lemma firstCell_le_iff (hQ : Valid Q) {s l : ℕ} (hapart : ∀ r ∈ Q.entries, Apart r (s, l))
    (hl : 0 < l) {c : ℕ} (hc : s / P ≤ c) :
    firstCell P Q s ≤ c ↔ ∀ r ∈ Q.entries, r.1 + r.2 ≤ s → ¬ Touches P r c := by
  have hbefore : ∀ r ∈ Q.entries, r.1 ≤ s → r.1 + r.2 ≤ s := by
    intro r hr hle
    have hpos := hQ.pos r hr
    rcases hapart r hr with h | h
    · exact h
    · dsimp only at h
      omega
  rw [firstCell]
  split
  · rename_i prev hprev
    obtain ⟨hmem, hle, hlast⟩ := KeyedQueue.lastLe_eq_some hprev
    have hend := hbefore prev hmem hle
    have hpos := hQ.pos prev hmem
    have hcell : (prev.1 + prev.2 - 1) / P ≤ s / P := Nat.div_le_div_right (by omega)
    constructor
    · -- every span before `s` ends no later than `prev`
      intro hfirst r hr hrs htouch
      have hrend : r.1 + r.2 ≤ prev.1 + prev.2 := by
        by_cases heq : r = prev
        · rw [heq]
        · have hrpos := hQ.pos r hr
          have hrle := hlast r hr (by omega)
          rcases hQ.apart r hr prev hmem heq with h | h <;> omega
      have hcr : c ≤ (prev.1 + prev.2 - 1) / P :=
        htouch.2.trans (Nat.div_le_div_right (by omega))
      have heq : (prev.1 + prev.2 - 1) / P = s / P := le_antisymm hcell (hc.trans hcr)
      rw [if_pos heq] at hfirst
      omega
    · intro hnone
      have hprevc := hnone prev hmem hend
      split
      · rename_i heq
        rcases Nat.lt_or_ge (s / P) c with hlt | hge
        · exact hlt
        · obtain rfl : c = s / P := le_antisymm hge hc
          exact absurd ⟨Nat.div_le_div_right hle, heq.ge⟩ hprevc
      · exact hc
  · rename_i hprev
    refine ⟨fun _ r hr hrs => ?_, fun _ => hc⟩
    have := KeyedQueue.lastLe_eq_none hprev r hr
    omega

/-- The cells before the end are those that no later span touches. -/
lemma lt_endCell_iff (hQ : Valid Q) {s l : ℕ} (hl : 0 < l) {c : ℕ} (hc : c ≤ (s + l - 1) / P) :
    c < endCell P Q (s + l) ↔ ∀ r ∈ Q.entries, s + l ≤ r.1 → ¬ Touches P r c := by
  rw [endCell]
  split
  · rename_i next hnext
    obtain ⟨hmem, hle, hfirst⟩ := KeyedQueue.firstGe_eq_some hnext
    have hpos := hQ.pos next hmem
    have hcell : (s + l - 1) / P ≤ next.1 / P := Nat.div_le_div_right (by omega)
    constructor
    · intro hlt r hr hrs htouch
      have hcr : next.1 / P ≤ c := (Nat.div_le_div_right (hfirst r hr hrs)).trans htouch.1
      have heq : next.1 / P = (s + l - 1) / P := le_antisymm (hcr.trans hc) hcell
      rw [if_pos heq] at hlt
      omega
    · intro hnone
      have hnextc := hnone next hmem hle
      split
      · rename_i heq
        refine lt_of_le_of_ne hc (fun hceq => hnextc ⟨?_, ?_⟩)
        · omega
        · rw [hceq, ← heq]
          exact Nat.div_le_div_right (by omega)
      · omega
  · rename_i hnext
    refine ⟨fun _ r hr hrs => ?_, fun _ => by omega⟩
    have := KeyedQueue.firstGe_eq_none hnext r hr
    omega

/-- **The neighbours decide**: the cells from `firstCell` up to `endCell` are the ones that the new
span touches and no other span does. -/
theorem fresh_iff (hQ : Valid Q) {s l : ℕ} (hapart : ∀ r ∈ Q.entries, Apart r (s, l))
    (hl : 0 < l) {c : ℕ} : (firstCell P Q s ≤ c ∧ c < endCell P Q (s + l)) ↔
      Touches P (s, l) c ∧ ∀ r ∈ Q.entries, ¬ Touches P r c := by
  have hfirst_ge : s / P ≤ firstCell P Q s := by
    rw [firstCell]
    split
    · split <;> omega
    · exact le_rfl
  have hend_le : endCell P Q (s + l) ≤ (s + l - 1) / P + 1 := by
    rw [endCell]
    split
    · split <;> omega
    · exact le_rfl
  constructor
  · rintro ⟨hlo, hhi⟩
    have hc : s / P ≤ c := hfirst_ge.trans hlo
    have hc' : c ≤ (s + l - 1) / P := by omega
    refine ⟨⟨hc, hc'⟩, fun r hr => ?_⟩
    rcases hapart r hr with h | h
    · exact (firstCell_le_iff hQ hapart hl hc).mp hlo r hr h
    · exact (lt_endCell_iff hQ hl hc').mp hhi r hr h
  · rintro ⟨⟨hc, hc'⟩, hnone⟩
    exact ⟨(firstCell_le_iff hQ hapart hl hc).mpr (fun r hr _ => hnone r hr),
      (lt_endCell_iff hQ hl hc').mpr (fun r hr _ => hnone r hr)⟩

end Spans

end OpenRdma
