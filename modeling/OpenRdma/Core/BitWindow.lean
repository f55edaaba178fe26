import Mathlib.Tactic

/-!
# Growable bit windows

A window of bits that starts at some base and grows on demand.  Bits past its end read as
`false`, so `bitAt` is total and the length of the list is only an allocation detail: the
lemmas below describe every operation by what it does to `bitAt`.
-/

namespace OpenRdma

/-- Bit `i` of a window; bits past its end are clear. -/
def bitAt (l : List Bool) (i : ℕ) : Bool := l.getD i false

/-- Grow or truncate to `n` bits, filling with `v`. -/
def resize (l : List Bool) (n : ℕ) (v : Bool) : List Bool :=
  l.take n ++ List.replicate (n - l.length) v

/-- Move every bit `k` places towards index zero and clear the vacated ones. -/
def shiftLeft (l : List Bool) (k : ℕ) : List Bool :=
  l.drop k ++ List.replicate (min k l.length) false

/-- Clear every bit. -/
def fillFalse (l : List Bool) : List Bool := List.replicate l.length false

/-- Index of the first clear bit. -/
def firstZero (l : List Bool) : Option ℕ := l.findIdx? (fun b => !b)

/-- The loop `for i in lo..lo + n { if p i { set i } }`. -/
def setWhere (p : ℕ → Bool) (l : List Bool) (lo n : ℕ) : List Bool :=
  (List.range' lo n).foldl (fun l i => if p i then l.set i true else l) l

/-- The number of leading set bits. -/
def lead (l : List Bool) : ℕ := (firstZero l).getD l.length

/-! ## Lengths -/

@[simp] lemma length_resize (l : List Bool) (n : ℕ) (v : Bool) : (resize l n v).length = n := by
  simp only [resize, List.length_append, List.length_take, List.length_replicate]
  omega

/-! ## What each operation does to the bits -/

variable {l : List Bool}

lemma bitAt_of_le {i : ℕ} (h : l.length ≤ i) : bitAt l i = false := by
  simp [bitAt, List.getD_eq_getElem?_getD, List.getElem?_eq_none h]

@[simp] lemma bitAt_nil (i : ℕ) : bitAt [] i = false := by simp [bitAt]

/-- Growing a window changes no bit. -/
lemma bitAt_resize {n : ℕ} (h : l.length ≤ n) (i : ℕ) : bitAt (resize l n false) i = bitAt l i := by
  simp only [bitAt, resize, List.getD_eq_getElem?_getD, List.take_of_length_le h]
  rcases Nat.lt_or_ge i l.length with hi | hi
  · rw [List.getElem?_append_left hi]
  · rw [List.getElem?_append_right hi, List.getElem?_eq_none hi, List.getElem?_replicate]
    split <;> rfl

lemma bitAt_set {i : ℕ} (h : i < l.length) (j : ℕ) :
    bitAt (l.set i true) j = (bitAt l j || decide (j = i)) := by
  simp only [bitAt, List.getD_eq_getElem?_getD, List.getElem?_set]
  by_cases hij : i = j
  · subst hij; simp [h]
  · simp [hij, Ne.symm hij]

/-- A shifted window is read from a later base. -/
lemma bitAt_shiftLeft (l : List Bool) (k i : ℕ) : bitAt (shiftLeft l k) i = bitAt l (i + k) := by
  simp only [bitAt, shiftLeft, List.getD_eq_getElem?_getD]
  rcases Nat.lt_or_ge i (l.length - k) with hi | hi
  · rw [List.getElem?_append_left (by simpa using hi), List.getElem?_drop, Nat.add_comm]
  · rw [List.getElem?_append_right (by simpa using hi), List.getElem?_replicate,
      List.getElem?_eq_none (show l.length ≤ i + k by omega)]
    split <;> rfl

@[simp] lemma bitAt_fillFalse (l : List Bool) (i : ℕ) : bitAt (fillFalse l) i = false := by
  simp only [bitAt, fillFalse, List.getD_eq_getElem?_getD, List.getElem?_replicate]
  split <;> rfl

/-- The loop sets exactly the bits of its range that pass the test. -/
lemma bitAt_setWhere (p : ℕ → Bool) {lo n : ℕ} (h : lo + n ≤ l.length) (j : ℕ) :
    bitAt (setWhere p l lo n) j =
      (bitAt l j || (decide (lo ≤ j) && decide (j < lo + n) && p j)) := by
  induction n generalizing lo l with
  | zero => simp [setWhere]
  | succ n ih =>
    have hstep : setWhere p l lo (n + 1)
        = setWhere p (if p lo then l.set lo true else l) (lo + 1) n := by
      simp [setWhere, List.range'_succ]
    have hlen : (lo + 1) + n ≤ (if p lo then l.set lo true else l).length := by
      have : (if p lo then l.set lo true else l).length = l.length := by split <;> simp
      omega
    rw [hstep, ih hlen]
    -- index `lo` is handled by the first turn, everything above it by the rest of the loop
    by_cases hj : j = lo
    · subst hj
      have hb : bitAt (if p j then l.set j true else l) j = (bitAt l j || p j) := by
        cases hp : p j
        · simp
        · simp [bitAt_set (show j < l.length by omega)]
      simp [hb]
    · have hb : bitAt (if p lo then l.set lo true else l) j = bitAt l j := by
        split
        · simp [bitAt_set (show lo < l.length by omega), hj]
        · rfl
      have h1 : decide (lo + 1 ≤ j) = decide (lo ≤ j) := decide_eq_decide.mpr (by omega)
      have h2 : decide (j < lo + 1 + n) = decide (j < lo + (n + 1)) :=
        decide_eq_decide.mpr (by omega)
      rw [hb, h1, h2]

/-! ## The leading run of set bits -/

lemma lead_le_length (l : List Bool) : lead l ≤ l.length := by
  unfold lead firstZero
  cases h : l.findIdx? (fun b => !b) with
  | none => simp
  | some i =>
    obtain ⟨hi, -⟩ := List.findIdx?_eq_some_iff_getElem.mp h
    simpa using hi.le

/-- Every bit before the leading run's end is set. -/
lemma bitAt_of_lt_lead {i : ℕ} (h : i < lead l) : bitAt l i = true := by
  have hlen : i < l.length := lt_of_lt_of_le h (lead_le_length l)
  rw [bitAt, List.getD_eq_getElem?_getD, List.getElem?_eq_getElem hlen]
  unfold lead firstZero at h
  cases hf : l.findIdx? (fun b => !b) with
  | none =>
    have := List.findIdx?_eq_none_iff.mp hf l[i] (List.getElem_mem hlen)
    simpa using this
  | some k =>
    obtain ⟨_, -, hlt⟩ := List.findIdx?_eq_some_iff_getElem.mp hf
    rw [hf, Option.getD_some] at h
    simpa using hlt i h

/-- The bit right after the leading run is clear. -/
lemma bitAt_lead (l : List Bool) : bitAt l (lead l) = false := by
  unfold lead firstZero
  cases hf : l.findIdx? (fun b => !b) with
  | none => exact bitAt_of_le (by simp)
  | some k =>
    obtain ⟨hk, hb, -⟩ := List.findIdx?_eq_some_iff_getElem.mp hf
    rw [Option.getD_some, bitAt, List.getD_eq_getElem?_getD, List.getElem?_eq_getElem hk]
    simpa using hb

end OpenRdma
