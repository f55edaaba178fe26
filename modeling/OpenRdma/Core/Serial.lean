import Mathlib.Tactic

/-!
# Serial numbers: a counter read modulo a circle

A sequence number on the wire is an unbounded position reduced modulo a circle of `2 * h`
values.  Comparing two of them by their wrapped difference cannot recover the order of the
positions in general; it does so inside a window of half the circle, and this file says exactly
which window that is.

* `serialCmp` — the comparison: equal at difference `0`, smaller when the wrapped difference is
  *strictly* above `h`, greater otherwise.  The tie at exactly half the circle goes to greater,
  so the window is not symmetric.
* `SerialNear` — the window: `a` is at most `h` ahead of `b` and less than `h` behind it.
* **`serialCmp_mod`** — inside the window the comparison of the wrapped numbers is the
  comparison of the positions.
-/

namespace OpenRdma

/-- Compare two numbers on a circle of `2 * h` values by their wrapped difference. -/
def serialCmp (h a b : ℕ) : Ordering :=
  let x := (a + 2 * h - b) % (2 * h)
  if x = 0 then .eq else if h < x then .lt else .gt

/-- The window in which `serialCmp` is an order: `a` at most `h` ahead of `b`, and less than `h`
behind it. -/
def SerialNear (h a b : ℕ) : Prop := a ≤ b + h ∧ b < a + h

instance (h a b : ℕ) : Decidable (SerialNear h a b) := by unfold SerialNear; infer_instance

/-- The wrapped difference is the one number below the circle that leads from `b` back to `a`. -/
lemma wrappedDiff_unique {m a b d : ℕ} (hd : d < m) (h : d + b ≡ a [MOD m]) :
    (a % m + m - b % m) % m = d := by
  have hm : 0 < m := by omega
  have hb : b % m ≤ a % m + m := (Nat.mod_lt b hm).le.trans (Nat.le_add_left _ _)
  have hx : (a % m + m - b % m) % m + b ≡ d + b [MOD m] := by
    calc (a % m + m - b % m) % m + b
        ≡ (a % m + m - b % m) + b % m [MOD m] :=
          (Nat.mod_modEq _ _).add (Nat.mod_modEq _ _).symm
      _ = a % m + m := Nat.sub_add_cancel hb
      _ ≡ a [MOD m] := by simp [Nat.ModEq]
      _ ≡ d + b [MOD m] := h.symm
  exact Nat.ModEq.eq_of_lt_of_lt (Nat.ModEq.add_right_cancel' b hx) (Nat.mod_lt _ hm) hd

/-- A position at most half the circle ahead reads back as its distance. -/
lemma wrappedDiff_of_le {h a b : ℕ} (hh : 0 < h) (hba : b ≤ a) (hab : a ≤ b + h) :
    (a % (2 * h) + 2 * h - b % (2 * h)) % (2 * h) = a - b :=
  wrappedDiff_unique (by omega) (by rw [Nat.sub_add_cancel hba])

/-- A position less than half the circle behind reads back as the complement of its distance. -/
lemma wrappedDiff_of_lt {h a b : ℕ} (hab : a < b) (hba : b < a + h) :
    (a % (2 * h) + 2 * h - b % (2 * h)) % (2 * h) = 2 * h - (b - a) := by
  refine wrappedDiff_unique (by omega) ?_
  rw [show 2 * h - (b - a) + b = a + 2 * h by omega]
  simp [Nat.ModEq]

/-- **Inside the window the wrapped comparison is the comparison of the positions.** -/
theorem serialCmp_mod {h a b : ℕ} (hh : 0 < h) (hw : SerialNear h a b) :
    serialCmp h (a % (2 * h)) (b % (2 * h)) = compare a b := by
  obtain ⟨h1, h2⟩ := hw
  rcases Nat.lt_trichotomy a b with hlt | heq | hgt
  · simp only [serialCmp, wrappedDiff_of_lt hlt h2]
    rw [if_neg (by omega), if_pos (by omega), Nat.compare_eq_lt.mpr hlt]
  · subst heq
    simp [serialCmp]
  · simp only [serialCmp, wrappedDiff_of_le hh hgt.le h1]
    rw [if_neg (by omega), if_neg (by omega), Nat.compare_eq_gt.mpr hgt]

end OpenRdma
