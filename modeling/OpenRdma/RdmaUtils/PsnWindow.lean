import OpenRdma.RdmaUtils.PsnTracker

/-!
# How far an acknowledgement can move the base

Whatever a tracker is told, its base only moves forward, never past the last position it has been
told about, and every move is reported (`PsnTracker.Moves`).  Nothing is said about *which*
positions are recorded, so this also covers acknowledgements the tracker misreads at the wrap.

`NearBase` is a window in which the offset of a PSN from the base is not overestimated
(`PsnTracker.rstart_le`), not even by the last of the acknowledgements of one report.
-/

namespace OpenRdma

namespace PsnTracker

/-- The base is position `B`, and no bit at or past position `M` is set. -/
structure Window (t : PsnTracker) (B M : ℕ) : Prop where
  base_eq : t.basePsn = Psn.ofPos B
  base_le : B ≤ M
  bits : ∀ i, bitAt t.inner i = true → B + i < M

variable {t : PsnTracker}

lemma Window.mono {B M M' : ℕ} (h : t.Window B M) (hM : M ≤ M') : t.Window B M' :=
  ⟨h.base_eq, h.base_le.trans hM, fun i hi => (h.bits i hi).trans_le hM⟩

/-- The base has moved from `B` to `B'`, which is reported if it is a move at all. -/
structure Moves (B M : ℕ) (out : PsnTracker × Option Psn) (B' : ℕ) : Prop where
  le : B ≤ B'
  window : out.1.Window B' M
  report : (out.2 = none ∧ B' = B) ∨ out.2 = some (Psn.ofPos B')

/-- Two moves in a row, the later report taking precedence. -/
lemma Moves.trans {B M B₁ B₂ : ℕ} {t₁ t₂ : PsnTracker} {r₁ r₂ : Option Psn}
    (h₁ : Moves B M (t₁, r₁) B₁) (h₂ : Moves B₁ M (t₂, r₂) B₂) : Moves B M (t₂, r₂.or r₁) B₂ := by
  refine ⟨h₁.le.trans h₂.le, h₂.window, ?_⟩
  rcases h₂.report with ⟨hr₂, rfl⟩ | hr₂
  · rcases h₁.report with ⟨hr₁, rfl⟩ | hr₁
    · exact .inl ⟨by simp_all, rfl⟩
    · exact .inr (by simp_all)
  · exact .inr (by simp_all)

lemma tryAdvance_moves {B M : ℕ} (h : t.Window B M) : ∃ B', Moves B M t.tryAdvance B' := by
  have htr : t.Tracks B (fun n => bitAt t.inner (n - B)) :=
    ⟨h.base_eq, fun i => by simp⟩
  obtain ⟨B', hle, hset, -, htr', hret⟩ := tryAdvance_tracks htr
  refine ⟨B', hle, ⟨htr'.1, ?_, fun i hi => ?_⟩, ?_⟩
  · by_contra hlt
    have h1 := h.base_le
    have := h.bits (M - B) (hset M h1 (by omega))
    omega
  · rw [htr'.2] at hi
    have := h.bits _ hi
    omega
  · rw [hret]
    split
    · next heq => exact .inl ⟨rfl, heq⟩
    · exact .inr rfl

/-- The offset of a position not too far behind the base is never overestimated. -/
lemma rstart_le {B q : ℕ} (hb : t.basePsn = Psn.ofPos B) (hq : B < q + 2 ^ 23) :
    (B : ℤ) + t.rstart (Psn.ofPos q) ≤ q := by
  rw [rstart_eq (by rw [hb]; exact Psn.ofPos_inRange B) (Psn.ofPos_inRange q), hb, Psn.ofPos_val,
    Psn.ofPos_val]
  split <;> omega

lemma ackOne_moves {B M q : ℕ} (h : t.Window B M) (hle : (B : ℤ) + t.rstart (Psn.ofPos q) ≤ q)
    (hM : q < M) : ∃ B', Moves B M (t.ackOne (Psn.ofPos q)) B' := by
  cases hr : usizeTryFrom (t.rstart (Psn.ofPos q)) with
  | none =>
    rw [ackOne_of_none hr]
    exact ⟨B, le_rfl, h, .inl ⟨rfl, rfl⟩⟩
  | some r =>
    have hr' := usizeTryFrom_eq_some hr
    simp only [ackOne, hr]
    refine tryAdvance_moves ⟨h.base_eq, h.base_le, fun i hi => ?_⟩
    have hgrow : ∀ j, bitAt (if r ≥ t.inner.length then resize t.inner (r + 1) false
        else t.inner) j = bitAt t.inner j := by
      intro j
      split
      · exact bitAt_resize (by omega) j
      · rfl
    by_cases hir : i = r
    · omega
    · refine h.bits i ?_
      rw [← hgrow i]
      simpa [bitAt, List.getD_eq_getElem?_getD, List.getElem?_set, Ne.symm hir] using hi

lemma ackBitmap_moves {B M q : ℕ} (bitmap : BitVec 128) (h : t.Window B M)
    (hle : (B : ℤ) + t.rstart (Psn.ofPos q) ≤ q) (hM : q + 128 ≤ M) :
    ∃ B', Moves B M (t.ackBitmap (Psn.ofPos q) bitmap) B' := by
  obtain ⟨inner, heq, hbits⟩ := t.ackBitmap_eq (Psn.ofPos q) bitmap
  rw [heq]
  refine tryAdvance_moves ⟨h.base_eq, h.base_le, fun i hi => ?_⟩
  rw [hbits, Bool.or_eq_true, Bool.and_eq_true] at hi
  rcases hi with hi | ⟨-, hi⟩
  · exact h.bits i hi
  · have := BitVec.lt_of_getLsbD hi
    omega

lemma ackBefore_moves {B M q : ℕ} (h : t.Window B M) (hle : (B : ℤ) + t.rstart (Psn.ofPos q) ≤ q)
    (hM : q ≤ M) : ∃ B', Moves B M (t.ackBefore (Psn.ofPos q)) B' := by
  cases hr : usizeTryFrom (t.rstart (Psn.ofPos q)) with
  | none =>
    simp only [ackBefore, hr]
    exact ⟨B, le_rfl, h, .inl ⟨rfl, rfl⟩⟩
  | some r =>
    have hr' := usizeTryFrom_eq_some hr
    -- a PSN read as ahead lies numerically ahead, so it is `r` positions past the base
    have hpos : Psn.ofPos q = Psn.ofPos (B + r) := by
      have hbase : t.basePsn.InRange := by rw [h.base_eq]; exact Psn.ofPos_inRange B
      have hform := rstart_eq hbase (Psn.ofPos_inRange q)
      rw [h.base_eq, Psn.ofPos_val, Psn.ofPos_val] at hform
      rw [Psn.ofPos_eq_iff]
      split at hform <;> omega
    simp only [ackBefore, hr]
    refine ⟨B + r, Nat.le_add_right _ _, ⟨hpos, by omega, fun i hi => ?_⟩, .inr (by rw [hpos])⟩
    split at hi
    · simp at hi
    · rw [bitAt_shiftLeft] at hi
      have := h.bits _ hi
      omega

lemma ackRange_moves {B M q : ℕ} (psnLow : Psn) (h : t.Window B M)
    (hle : (B : ℤ) + t.rstart (Psn.ofPos q) ≤ q) (hM : q ≤ M) :
    ∃ B', Moves B M (t.ackRange psnLow (Psn.ofPos q)) B' := by
  by_cases hlow : psnLow ≤ t.basePsn
  · rw [ackRange, if_pos hlow]
    exact ackBefore_moves h hle hM
  · obtain ⟨inner, heq, hbits⟩ := ackRange_eq (Psn.ofPos q) hlow
    rw [heq]
    refine ⟨B, le_rfl, ⟨h.base_eq, h.base_le, fun i hi => ?_⟩, .inl ⟨rfl, rfl⟩⟩
    rw [hbits, Bool.or_eq_true, Bool.and_eq_true, Bool.and_eq_true, decide_eq_true_eq,
      decide_eq_true_eq, decide_eq_true_eq] at hi
    rcases hi with hi | ⟨-, -, hi⟩
    · exact h.bits i hi
    · omega

end PsnTracker

/-! ## The receive tracker -/

/-- Within `2 ^ 22` positions of the base, with the 128 packets a bitmap at `q` is about. -/
def NearBase (B q : ℕ) : Prop := q + 128 < B + 2 ^ 22 ∧ B ≤ q + 2 ^ 22

namespace LocalAckTracker

variable {t : LocalAckTracker} {B : ℕ}

lemma ackOne_moves {q : ℕ} (h : t.psnTracker.Window B (B + 2 ^ 22 - 1)) (hq : NearBase B q) :
    ∃ B', PsnTracker.Moves B (B + 2 ^ 22 - 1)
      ((t.ackOne (Psn.ofPos q)).1.psnTracker, (t.ackOne (Psn.ofPos q)).2) B' := by
  obtain ⟨h1, h2⟩ := hq
  exact PsnTracker.ackOne_moves h (PsnTracker.rstart_le h.base_eq (by omega)) (by omega)

lemma ackBitmap_moves {q : ℕ} (bitmap : BitVec 128)
    (h : t.psnTracker.Window B (B + 2 ^ 22 - 1)) (hq : NearBase B q) :
    ∃ B', PsnTracker.Moves B (B + 2 ^ 22 - 1) ((t.ackBitmap (Psn.ofPos q) bitmap).1.psnTracker,
      (t.ackBitmap (Psn.ofPos q) bitmap).2) B' := by
  obtain ⟨h1, h2⟩ := hq
  obtain ⟨B₁, m₁⟩ := PsnTracker.ackRange_moves t.psnPre h
    (PsnTracker.rstart_le h.base_eq (q := q) (by omega)) (by omega)
  have hB₁ := m₁.window.base_le
  obtain ⟨B₂, m₂⟩ := PsnTracker.ackBitmap_moves bitmap m₁.window
    (PsnTracker.rstart_le m₁.window.base_eq (q := q) (by omega)) (by omega)
  exact ⟨B₂, m₁.trans m₂⟩

lemma nakBitmap_moves {q q' : ℕ} (preBitmap nowBitmap : BitVec 128)
    (h : t.psnTracker.Window B (B + 2 ^ 22 - 1)) (hq : NearBase B q) (hq' : NearBase B q') :
    ∃ B', PsnTracker.Moves B (B + 2 ^ 22 - 1)
      ((t.nakBitmap (Psn.ofPos q) preBitmap (Psn.ofPos q') nowBitmap).1.psnTracker,
        (t.nakBitmap (Psn.ofPos q) preBitmap (Psn.ofPos q') nowBitmap).2) B' := by
  obtain ⟨h1, h2⟩ := hq
  obtain ⟨h3, h4⟩ := hq'
  obtain ⟨B₁, m₁⟩ := PsnTracker.ackRange_moves t.psnPre h
    (PsnTracker.rstart_le h.base_eq (q := q) (by omega)) (by omega)
  have hB₁ := m₁.window.base_le
  obtain ⟨B₂, m₂⟩ := PsnTracker.ackBitmap_moves preBitmap m₁.window
    (PsnTracker.rstart_le m₁.window.base_eq (q := q) (by omega)) (by omega)
  have hB₂ := m₂.window.base_le
  obtain ⟨B₃, m₃⟩ := PsnTracker.ackBitmap_moves nowBitmap m₂.window
    (PsnTracker.rstart_le m₂.window.base_eq (q := q') (by omega)) (by omega)
  exact ⟨B₃, m₁.trans (m₂.trans m₃)⟩

end LocalAckTracker

end OpenRdma
