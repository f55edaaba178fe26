import OpenRdma.RdmaUtils.PsnWindow

/-!
# The set of PSNs a tracker has been told about

A `PsnTracker` is a base and a window of bits; what it stands for is a set of PSNs.  As long as the
PSNs stay in the lower half of the number space, every operation adds the PSNs it acknowledges to
that set and nothing else: all PSNs below the base are in it, and from the base on the bits say
which are.

* **`tracker_sound`** — after every sequence of operations it represents what they acknowledge.
-/

namespace OpenRdma

/-! ## Operations and their sets -/

/-- An operation of `PsnTracker`. -/
inductive AckOp where
  | ackOne (psn : Psn)
  | ackBitmap (nowPsn : Psn) (bitmap : BitVec 128)
  | ackRange (psnLow psnHigh : Psn)
  | ackBefore (psn : Psn)
deriving DecidableEq, Repr

namespace AckOp

/-- The PSNs that an operation acknowledges. -/
def acks : AckOp → ℕ → Bool
  | ackOne psn, n => decide (n = psn.val.toNat)
  | ackBitmap nowPsn bitmap, n =>
    decide (nowPsn.val.toNat ≤ n) && bitmap.getLsbD (n - nowPsn.val.toNat)
  | ackRange psnLow psnHigh, n => decide (psnLow.val.toNat ≤ n) && decide (n < psnHigh.val.toNat)
  | ackBefore psn, n => decide (n < psn.val.toNat)

/-- All PSNs of the operation are below `2 ^ 23`, those marked in a bitmap included. -/
def InHalf : AckOp → Prop
  | ackOne psn => psn.val.toNat < 2 ^ 23
  | ackBitmap nowPsn bitmap => nowPsn.val.toNat < 2 ^ 23 ∧
      ∀ i, bitmap.getLsbD i = true → nowPsn.val.toNat + i < 2 ^ 23
  | ackRange psnLow psnHigh => psnLow.val.toNat < 2 ^ 23 ∧ psnHigh.val.toNat < 2 ^ 23
  | ackBefore psn => psn.val.toNat < 2 ^ 23

end AckOp

/-- The PSNs that some operations acknowledge. -/
def ackedBy (ops : List AckOp) (n : ℕ) : Bool := ops.any (·.acks n)

lemma ackedBy_concat (ops : List AckOp) (op : AckOp) (n : ℕ) :
    ackedBy (ops ++ [op]) n = (ackedBy ops n || op.acks n) := by
  simp [ackedBy]

namespace PsnTracker

variable {t : PsnTracker} {B : ℕ} {f : ℕ → Bool}

def apply (t : PsnTracker) : AckOp → PsnTracker × Option Psn
  | .ackOne psn => t.ackOne psn
  | .ackBitmap nowPsn bitmap => t.ackBitmap nowPsn bitmap
  | .ackRange psnLow psnHigh => t.ackRange psnLow psnHigh
  | .ackBefore psn => t.ackBefore psn

/-- A tracker after some operations. -/
def after (ops : List AckOp) : PsnTracker := ops.foldl (fun t op => (t.apply op).1) default

/-! ## The abstraction -/

/-- The tracker represents the set `f`: its base is `B`, everything below `B` is in the set, and
from `B` on the bits say what is. -/
structure Sound (t : PsnTracker) (B : ℕ) (f : ℕ → Bool) : Prop where
  tracks : t.Tracks B f
  below : ∀ n < B, f n = true
  bound : ∀ n, f n = true → n < 2 ^ 23

namespace Sound

variable (h : t.Sound B f)

include h

lemma base_le : B ≤ 2 ^ 23 := by
  by_contra hlt
  exact lt_irrefl _ (h.bound _ (h.below (2 ^ 23) (by omega)))

lemma base_val : t.basePsn.val.toNat = B := by
  have hB := h.base_le
  rw [h.tracks.1, Psn.ofPos_val, Nat.mod_eq_of_lt (by omega)]

/-- In the lower half the offset of a PSN is its distance from the base. -/
lemma rstart {psn : Psn} (hp : psn.val.toNat < 2 ^ 23) :
    t.rstart psn = (psn.val.toNat : ℤ) - B := by
  have hB := h.base_le
  have hval := h.base_val
  rw [rstart_eq (by rw [Psn.InRange, hval]; omega) (by rw [Psn.InRange]; omega), hval,
    if_neg (by omega)]

/-- The index of a PSN in the window, which has none if it is behind the base. -/
lemma index {psn : Psn} (hp : psn.val.toNat < 2 ^ 23) :
    usizeTryFrom (t.rstart psn)
      = if psn.val.toNat < B then none else some (psn.val.toNat - B) := by
  rw [h.rstart hp, usizeTryFrom]
  split_ifs with hnonneg hlt
  · omega
  · congr 1
    omega
  · rfl
  · omega

lemma congr {g : ℕ → Bool} (hfg : ∀ n, f n = g n) : t.Sound B g := by
  obtain rfl : f = g := funext hfg
  exact h

/-- Advancing the base over bits that are set changes nothing about the set. -/
lemma tryAdvance : ∃ B', t.tryAdvance.1.Sound B' f := by
  obtain ⟨B', -, hset, -, htr, -⟩ := tryAdvance_tracks h.tracks
  refine ⟨B', htr, fun n hn => ?_, h.bound⟩
  rcases Nat.lt_or_ge n B with hlt | hge
  · exact h.below n hlt
  · exact hset n hge hn

lemma bound_or {g : ℕ → Bool} (hg : ∀ n, g n = true → n < 2 ^ 23) (n : ℕ)
    (hn : (f n || g n) = true) : n < 2 ^ 23 := by
  rcases Bool.or_eq_true_iff.1 hn with hf | hg'
  · exact h.bound n hf
  · exact hg n hg'

/-- The window takes on the bits of a larger set. -/
lemma widen {inner : List Bool} {g : ℕ → Bool}
    (hbits : ∀ i, bitAt inner i = (f (B + i) || g (B + i))) (hg : ∀ n, g n = true → n < 2 ^ 23) :
    Sound { t with inner := inner } B (fun n => f n || g n) where
  tracks := ⟨h.tracks.1, hbits⟩
  below := by
    intro n hn
    simp [h.below n hn]
  bound := h.bound_or hg

/-- PSNs that are all behind the base add nothing. -/
lemma behind {g : ℕ → Bool} (hg : ∀ n, g n = true → n < B) : t.Sound B (fun n => f n || g n) := by
  refine h.congr fun n => ?_
  cases hn : g n with
  | false => simp
  | true => simp [h.below n (hg n hn)]

/-! ## One operation -/

lemma ackOne {psn : Psn} (hp : psn.val.toNat < 2 ^ 23) :
    ∃ B', (t.ackOne psn).1.Sound B' fun n => f n || (AckOp.ackOne psn).acks n := by
  have hindex := h.index hp
  have hacks : ∀ n, (AckOp.ackOne psn).acks n = true → n = psn.val.toNat := fun n hn =>
    of_decide_eq_true hn
  split_ifs at hindex with hlt
  · rw [ackOne_of_none hindex]
    exact ⟨B, h.behind fun n hn => (hacks n hn).trans_lt hlt⟩
  · obtain ⟨B', hle, hset, -, htr, -⟩ := ackOne_tracks h.tracks hindex
    rw [Nat.add_sub_cancel' (not_lt.1 hlt)] at hset htr
    refine ⟨B', htr, fun n hn => ?_, h.bound_or fun n hn => (hacks n hn).trans_lt hp⟩
    rcases Nat.lt_or_ge n B with hlt | hge'
    · simp [h.below n hlt]
    · exact hset n hge' hn

lemma ackBitmap {psn : Psn} {bitmap : BitVec 128} (hp : (AckOp.ackBitmap psn bitmap).InHalf) :
    ∃ B', (t.ackBitmap psn bitmap).1.Sound B' fun n =>
      f n || (AckOp.ackBitmap psn bitmap).acks n := by
  obtain ⟨hpsn, hmarked⟩ := hp
  have hr := h.rstart hpsn
  obtain ⟨inner, heq, hbits⟩ := t.ackBitmap_eq psn bitmap
  rw [heq]
  refine (h.widen (g := (AckOp.ackBitmap psn bitmap).acks) (fun i => ?_) fun n hn => ?_).tryAdvance
  · rw [hbits, h.tracks.2, AckOp.acks, hr,
      decide_eq_decide.2 (show (psn.val.toNat : ℤ) - B ≤ i ↔ psn.val.toNat ≤ B + i by omega),
      show ((i : ℤ) - (psn.val.toNat - B)).toNat = B + i - psn.val.toNat by omega]
  · rw [AckOp.acks, Bool.and_eq_true, decide_eq_true_eq] at hn
    have := hmarked _ hn.2
    omega

lemma ackBefore {psn : Psn} (hp : psn.val.toNat < 2 ^ 23) :
    ∃ B', (t.ackBefore psn).1.Sound B' fun n => f n || (AckOp.ackBefore psn).acks n := by
  have hindex := h.index hp
  have hacks : ∀ n, (AckOp.ackBefore psn).acks n = true → n < psn.val.toNat := fun n hn =>
    of_decide_eq_true hn
  split_ifs at hindex with hlt
  · simp only [PsnTracker.ackBefore, hindex]
    exact ⟨B, h.behind fun n hn => (hacks n hn).trans hlt⟩
  · simp only [PsnTracker.ackBefore, hindex]
    have hpos : Psn.ofPos psn.val.toNat = psn := Psn.ofPos_toNat (by rw [Psn.InRange]; omega)
    refine ⟨psn.val.toNat, ⟨hpos.symm, fun i => ?_⟩, fun n hn => by simp [AckOp.acks, hn],
      h.bound_or fun n hn => (hacks n hn).trans hp⟩
    have hbit := h.tracks.2 (psn.val.toNat - B + i)
    rw [← Nat.add_assoc, Nat.add_sub_cancel' (not_lt.1 hlt)] at hbit
    have hnot : (AckOp.ackBefore psn).acks (psn.val.toNat + i) = false :=
      decide_eq_false (by omega)
    simp only [hnot, Bool.or_false, ← hbit]
    split
    · rw [bitAt_fillFalse, bitAt_of_le (by omega)]
    · rw [bitAt_shiftLeft, Nat.add_comm]

lemma ackRange {psnLow psnHigh : Psn} (hlow : psnLow.val.toNat < 2 ^ 23)
    (hhigh : psnHigh.val.toNat < 2 ^ 23) :
    ∃ B', (t.ackRange psnLow psnHigh).1.Sound B' fun n =>
      f n || (AckOp.ackRange psnLow psnHigh).acks n := by
  have hB := h.base_le
  have hrlow := h.rstart hlow
  have hrhigh := h.rstart hhigh
  by_cases hbase : psnLow ≤ t.basePsn
  · have hle : psnLow.val.toNat ≤ B := by
      rw [← Psn.ofPos_toNat (p := psnLow) (by rw [Psn.InRange]; omega), h.tracks.1] at hbase
      by_contra hlt
      exact hlt ((Psn.le_ofPos ⟨by omega, by omega⟩).1 hbase)
    rw [PsnTracker.ackRange, if_pos hbase]
    obtain ⟨B', hs⟩ := h.ackBefore hhigh
    refine ⟨B', hs.congr fun n => ?_⟩
    -- what is below the range is below the base, so in the set already
    simp only [AckOp.acks]
    rcases Nat.lt_or_ge n B with hlt | hge
    · simp [h.below n hlt]
    · rw [decide_eq_true (hle.trans hge), Bool.true_and]
  · obtain ⟨inner, heq, hbits⟩ := ackRange_eq psnHigh hbase
    rw [heq]
    refine ⟨B, h.widen (fun i => ?_) fun n hn => ?_⟩
    · rw [hbits, h.tracks.2, AckOp.acks, hrlow, hrhigh,
        decide_eq_decide.2 (show (psnLow.val.toNat : ℤ) - B ≤ i ↔
          psnLow.val.toNat ≤ B + i by omega),
        decide_eq_decide.2 (show (i : ℤ) < psnHigh.val.toNat - B ↔
          B + i < psnHigh.val.toNat by omega)]
      rcases Nat.lt_or_ge psnLow.val.toNat B with hlt | hge
      · -- only a base of `2 ^ 23` is taken to be behind a PSN that it is ahead of
        have hend : ¬ B + i < psnHigh.val.toNat := by
          have : B = 2 ^ 23 := by
            by_contra hne
            refine hbase ?_
            rw [← Psn.ofPos_toNat (p := psnLow) (by rw [Psn.InRange]; omega), h.tracks.1]
            exact (Psn.le_ofPos ⟨by omega, by omega⟩).2 hlt.le
          omega
        rw [decide_eq_false hend, Bool.and_false, Bool.and_false]
      · rw [decide_eq_true (show (0 : ℤ) ≤ psnLow.val.toNat - B by omega), Bool.true_and]
    · rw [AckOp.acks, Bool.and_eq_true, decide_eq_true_eq, decide_eq_true_eq] at hn
      omega

/-- **An operation adds the PSNs it acknowledges.** -/
theorem apply {op : AckOp} (hop : op.InHalf) :
    ∃ B', (t.apply op).1.Sound B' fun n => f n || op.acks n := by
  cases op with
  | ackOne psn => exact h.ackOne hop
  | ackBitmap nowPsn bitmap => exact h.ackBitmap hop
  | ackRange psnLow psnHigh => exact h.ackRange hop.1 hop.2
  | ackBefore psn => exact h.ackBefore hop

end Sound

lemma sound_default : Sound default 0 fun _ => false :=
  ⟨⟨rfl, fun _ => bitAt_nil _⟩, fun _ h => absurd h (Nat.not_lt_zero _), nofun⟩

/-- Every sequence of operations adds all that they acknowledge. -/
lemma sound_after {ops : List AckOp} (hops : ∀ op ∈ ops, op.InHalf) :
    ∃ B, (after ops).Sound B (ackedBy ops) := by
  induction ops using List.reverseRecOn with
  | nil => exact ⟨0, sound_default⟩
  | append_singleton ops op ih =>
    obtain ⟨B, h⟩ := ih fun o ho => hops o (by simp [ho])
    obtain ⟨B', h'⟩ := h.apply (hops op (by simp))
    refine ⟨B', ?_⟩
    rw [after, List.foldl_append]
    exact h'.congr fun n => (ackedBy_concat ops op n).symm

end PsnTracker

/-- **The tracker represents the set of the PSNs it has been told about.**  After any operations
with PSNs below `2 ^ 23`, every PSN below the base has been acknowledged, and a bit of the window is
set exactly if its PSN has been. -/
theorem tracker_sound {ops : List AckOp} (hops : ∀ op ∈ ops, op.InHalf) :
    (∀ n < (PsnTracker.after ops).basePsn.val.toNat, ackedBy ops n = true) ∧
    ∀ i, bitAt (PsnTracker.after ops).inner i = true ↔
      ackedBy ops ((PsnTracker.after ops).basePsn.val.toNat + i) = true := by
  obtain ⟨B, h⟩ := PsnTracker.sound_after hops
  rw [h.base_val]
  refine ⟨h.below, fun i => ?_⟩
  rw [h.tracks.2 i]

/-- A range that starts ahead of the base, then one that straddles it, then a bitmap that starts
behind it. -/
theorem tracker_sound_straddling :
    let ops := [.ackRange ⟨4⟩ ⟨6⟩, .ackRange ⟨0⟩ ⟨2⟩, .ackBitmap ⟨1⟩ 0b110]
    (∀ op ∈ ops, AckOp.InHalf op) ∧ (PsnTracker.after ops).basePsn = ⟨6⟩ ∧
    ∀ n < 6, ackedBy ops n = true := by
  have hops : ∀ op ∈ [AckOp.ackRange ⟨4⟩ ⟨6⟩, .ackRange ⟨0⟩ ⟨2⟩, .ackBitmap ⟨1⟩ 0b110],
      op.InHalf := by
    intro op hop
    simp only [List.mem_cons, List.not_mem_nil, or_false] at hop
    rcases hop with rfl | rfl | rfl
    · exact ⟨by decide, by decide⟩
    · exact ⟨by decide, by decide⟩
    · refine ⟨by decide, fun i hi => ?_⟩
      have hlt : i < 128 := BitVec.lt_of_getLsbD hi
      show 1 + i < 2 ^ 23
      omega
  have hbase :
    (PsnTracker.after [.ackRange ⟨4⟩ ⟨6⟩, .ackRange ⟨0⟩ ⟨2⟩, .ackBitmap ⟨1⟩ 0b110]).basePsn
      = ⟨6⟩ := by decide +kernel
  have h := (tracker_sound hops).1
  rw [hbase] at h
  exact ⟨hops, hbase, h⟩

end OpenRdma
