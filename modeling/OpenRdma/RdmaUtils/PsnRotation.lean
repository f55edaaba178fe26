import OpenRdma.RdmaUtils.PsnTracker

/-!
# Rotating the PSN circle

Nothing in the protocol distinguishes one PSN from another: shifting the base of a tracker and
every argument of its calls by the same amount modulo `2 ^ 24` should shift what it returns and
change nothing else.  `Psn::cmp` has that symmetry (`Psn.cmp_rotate`).  `PsnTracker::rstart` has
it only on one side of the wrap point, because it subtracts without masking.

* **`runCalls_rotate`** — hence so is every run that never meets one, in either copy.
* **`tracker_rotation`** — the three parts together, with the sign of the offset.
-/

namespace OpenRdma

/-! ## Rotation -/

/-- Shift a PSN by `k` around the circle. -/
def Psn.rotate (k : UInt32) (p : Psn) : Psn := p + k

/-- The arguments the offset misreads: ahead of the base, on the far side of the wrap point. -/
def Psn.CrossesWrap (base psn : Psn) : Prop := psn.val.toNat < base.val.toNat ∧ base < psn

/-- Serial distance at most `2 ^ 22`, in either direction. -/
def Psn.Within22 (base psn : Psn) : Prop :=
  (psn - base).val.toNat ≤ 2 ^ 22 ∨ (base - psn).val.toNat ≤ 2 ^ 22

instance (base psn : Psn) : Decidable (Psn.CrossesWrap base psn) :=
  inferInstanceAs (Decidable (_ ∧ _))

instance (base psn : Psn) : Decidable (Psn.Within22 base psn) :=
  inferInstanceAs (Decidable (_ ∨ _))

/-- A call of one of the four acknowledging operations. -/
inductive TrackerCall where
  | ackOne (psn : Psn)
  | ackBitmap (nowPsn : Psn) (bitmap : BitVec 128)
  | ackRange (psnLow psnHigh : Psn)
  | ackBefore (psn : Psn)
deriving DecidableEq, Repr

namespace TrackerCall

/-- The PSN arguments of a call. -/
def args : TrackerCall → List Psn
  | ackOne psn => [psn]
  | ackBitmap nowPsn _ => [nowPsn]
  | ackRange psnLow psnHigh => [psnLow, psnHigh]
  | ackBefore psn => [psn]

def rotate (k : UInt32) : TrackerCall → TrackerCall
  | ackOne psn => ackOne (psn.rotate k)
  | ackBitmap nowPsn bitmap => ackBitmap (nowPsn.rotate k) bitmap
  | ackRange psnLow psnHigh => ackRange (psnLow.rotate k) (psnHigh.rotate k)
  | ackBefore psn => ackBefore (psn.rotate k)

def run (t : PsnTracker) : TrackerCall → PsnTracker × Option Psn
  | ackOne psn => t.ackOne psn
  | ackBitmap nowPsn bitmap => t.ackBitmap nowPsn bitmap
  | ackRange psnLow psnHigh => t.ackRange psnLow psnHigh
  | ackBefore psn => t.ackBefore psn

end TrackerCall

def PsnTracker.rotate (k : UInt32) (t : PsnTracker) : PsnTracker :=
  { t with basePsn := t.basePsn.rotate k }

/-- Run a sequence of calls, collecting what they return. -/
def runCalls : PsnTracker → List TrackerCall → PsnTracker × List (Option Psn)
  | t, [] => (t, [])
  | t, c :: cs =>
    let (t', r) := c.run t
    let (t'', rs) := runCalls t' cs
    (t'', r :: rs)

/-- Every argument of the run, read against the base at the time of its call, satisfies `P`. -/
def AlongRun (P : Psn → Psn → Prop) : PsnTracker → List TrackerCall → Prop
  | _, [] => True
  | t, c :: cs => (∀ p ∈ c.args, P t.basePsn p) ∧ AlongRun P (c.run t).1 cs

/-! ## Rotating PSNs -/

lemma Psn.rotate_val (k : UInt32) (p : Psn) :
    (p.rotate k).val.toNat = (p.val.toNat + k.toNat) % 2 ^ 24 := Psn.add_val p k

lemma Psn.rotate_inRange (k : UInt32) (p : Psn) : (p.rotate k).InRange := by
  rw [Psn.InRange, Psn.rotate_val]; omega

lemma Psn.rotate_add (k n : UInt32) (p : Psn) : p.rotate k + n = (p + n).rotate k := by
  refine Psn.ext_toNat ?_
  rw [Psn.add_val, Psn.rotate_val, Psn.rotate_val, Psn.add_val]
  omega

/-- The masked comparison is invariant under rotation. -/
lemma Psn.cmp_rotate (k : UInt32) (p q : Psn) : (p.rotate k).cmp (q.rotate k) = p.cmp q := by
  have hq := q.val.toNat_lt
  have hk := k.toNat_lt
  have hq' := (q.rotate k).val.toNat_lt
  have hx : (((p.rotate k).val - (q.rotate k).val) &&& psnMask) = (p.val - q.val) &&& psnMask := by
    rw [← UInt32.toNat_inj, Psn.mask_toNat, Psn.mask_toNat, UInt32.toNat_sub, UInt32.toNat_sub,
      Psn.rotate_val, Psn.rotate_val]
    omega
  simp only [Psn.cmp, hx]

lemma Psn.le_rotate (k : UInt32) (p q : Psn) : p.rotate k ≤ q.rotate k ↔ p ≤ q := by
  show cmp _ _ ≠ .gt ↔ cmp _ _ ≠ .gt
  rw [Psn.cmp_rotate]

/-- Crossing the wrap, in numbers: at least half the circle below the base. -/
lemma Psn.crossesWrap_iff {base psn : Psn} (hb : base.InRange) (hp : psn.InRange) :
    Psn.CrossesWrap base psn ↔ psn.val.toNat + 2 ^ 23 < base.val.toNat := by
  unfold Psn.InRange at hb hp
  have hlt : base < psn ↔ serialCmp (2 ^ 23) base.val.toNat psn.val.toNat = .lt := by
    show Psn.cmp base psn = .lt ↔ _
    rw [Psn.cmp_eq, Nat.mod_eq_of_lt hb, Nat.mod_eq_of_lt hp]
  rw [Psn.CrossesWrap, hlt]
  simp only [serialCmp]
  constructor
  · rintro ⟨h1, h2⟩
    split at h2
    · exact absurd h2 (by simp)
    · split at h2
      · omega
      · exact absurd h2 (by simp)
  · intro h
    refine ⟨by omega, ?_⟩
    rw [if_neg (by omega), if_pos (by omega)]

namespace PsnTracker

variable {t : PsnTracker} {psn : Psn}

/-- **The offset is invariant under rotation** wherever neither copy crosses the wrap. -/
theorem rstart_rotate (k : UInt32) (hb : t.basePsn.InRange)
    (hp : psn.InRange) (h : ¬ Psn.CrossesWrap t.basePsn psn)
    (hk : ¬ Psn.CrossesWrap (t.basePsn.rotate k) (psn.rotate k)) :
    (t.rotate k).rstart (psn.rotate k) = t.rstart psn := by
  have hb' := Psn.rotate_inRange k t.basePsn
  have hp' := Psn.rotate_inRange k psn
  rw [Psn.crossesWrap_iff hb hp] at h
  rw [Psn.crossesWrap_iff hb' hp', Psn.rotate_val, Psn.rotate_val] at hk
  rw [rstart_eq hb hp, rstart_eq (t := t.rotate k) hb' hp']
  simp only [rotate, Psn.rotate_val]
  unfold Psn.InRange at hb hp
  split <;> split <;> omega

/-- The sign of the offset agrees with `Psn::cmp` exactly when the wrap is not crossed. -/
theorem rstart_sign_iff (hb : t.basePsn.InRange) (hp : psn.InRange)
    (hnear : Psn.Within22 t.basePsn psn) :
    compare (t.rstart psn) 0 = psn.cmp t.basePsn ↔ ¬ Psn.CrossesWrap t.basePsn psn := by
  rw [Psn.crossesWrap_iff hb hp, rstart_eq hb hp, Psn.cmp_eq]
  simp only [Psn.Within22, Psn.sub_val] at hnear
  unfold Psn.InRange at hb hp
  rw [Nat.mod_eq_of_lt hb, Nat.mod_eq_of_lt hp]
  generalize t.basePsn.val.toNat = b at *
  generalize psn.val.toNat = p at *
  simp only [serialCmp]
  rcases Nat.lt_trichotomy p b with hlt | heq | hgt
  · -- below the base in number: the offset is negative, and right only if the PSN is behind
    rw [if_neg (by omega), if_neg (by omega), compare_lt_iff_lt.mpr (by omega)]
    split <;> simp <;> omega
  · subst heq
    simp
  · rw [if_neg (show ¬ (p + 2 * 2 ^ 23 - b) % (2 * 2 ^ 23) = 0 by omega)]
    by_cases hfar : b + 2 ^ 23 ≤ p
    · rw [if_pos hfar, if_pos (by omega), compare_lt_iff_lt.mpr (by omega)]
      simp; omega
    · rw [if_neg hfar, if_neg (by omega), compare_gt_iff_gt.mpr (by omega)]
      simp; omega

/-! ## One call -/

lemma tryAdvance_rotate (k : UInt32) (t : PsnTracker) :
    (t.rotate k).tryAdvance
      = (t.tryAdvance.1.rotate k, t.tryAdvance.2.map (Psn.rotate k)) := by
  by_cases h : (firstZero t.inner).getD t.inner.length = 0
  · simp [tryAdvance, rotate, h]
  · simp [tryAdvance, rotate, h, Psn.rotate_add]

lemma ackBefore_rotate (k : UInt32) (h : (t.rotate k).rstart (psn.rotate k) = t.rstart psn) :
    (t.rotate k).ackBefore (psn.rotate k)
      = ((t.ackBefore psn).1.rotate k, (t.ackBefore psn).2.map (Psn.rotate k)) := by
  simp only [ackBefore, h]
  cases usizeTryFrom (t.rstart psn) with
  | none => rfl
  | some r => rfl

lemma ackOne_rotate (k : UInt32) (h : (t.rotate k).rstart (psn.rotate k) = t.rstart psn) :
    (t.rotate k).ackOne (psn.rotate k)
      = ((t.ackOne psn).1.rotate k, (t.ackOne psn).2.map (Psn.rotate k)) := by
  simp only [ackOne, h]
  cases usizeTryFrom (t.rstart psn) with
  | none => rfl
  | some r => exact tryAdvance_rotate k { t with inner := _ }

lemma ackBitmap_rotate (k : UInt32) (bitmap : BitVec 128)
    (h : (t.rotate k).rstart (psn.rotate k) = t.rstart psn) :
    (t.rotate k).ackBitmap (psn.rotate k) bitmap
      = ((t.ackBitmap psn bitmap).1.rotate k, (t.ackBitmap psn bitmap).2.map (Psn.rotate k)) := by
  simp only [ackBitmap, h]
  exact tryAdvance_rotate k { t with inner := _ }

lemma ackRange_rotate (k : UInt32) {psnLow psnHigh : Psn}
    (hl : (t.rotate k).rstart (psnLow.rotate k) = t.rstart psnLow)
    (hh : (t.rotate k).rstart (psnHigh.rotate k) = t.rstart psnHigh) :
    (t.rotate k).ackRange (psnLow.rotate k) (psnHigh.rotate k)
      = ((t.ackRange psnLow psnHigh).1.rotate k,
          (t.ackRange psnLow psnHigh).2.map (Psn.rotate k)) := by
  have hle : psnLow.rotate k ≤ (t.rotate k).basePsn ↔ psnLow ≤ t.basePsn :=
    Psn.le_rotate k psnLow t.basePsn
  by_cases hc : psnLow ≤ t.basePsn
  · rw [ackRange, ackRange, if_pos hc, if_pos (hle.mpr hc)]
    exact ackBefore_rotate k hh
  · rw [ackRange, ackRange, if_neg hc, if_neg (fun h => hc (hle.mp h)), hl, hh]
    cases usizeTryFrom (t.rstart psnLow) with
    | none => rfl
    | some lo =>
      cases usizeTryFrom (t.rstart psnHigh) with
      | none => rfl
      | some hi => rfl

end PsnTracker

variable {t : PsnTracker}

lemma TrackerCall.run_rotate (k : UInt32) {c : TrackerCall}
    (h : ∀ p ∈ c.args, (t.rotate k).rstart (p.rotate k) = t.rstart p) :
    (c.rotate k).run (t.rotate k) = ((c.run t).1.rotate k, (c.run t).2.map (Psn.rotate k)) := by
  cases c with
  | ackOne psn => exact PsnTracker.ackOne_rotate k (h psn (by simp [args]))
  | ackBitmap psn bitmap => exact PsnTracker.ackBitmap_rotate k bitmap (h psn (by simp [args]))
  | ackRange lo hi =>
    exact PsnTracker.ackRange_rotate k (h lo (by simp [args])) (h hi (by simp [args]))
  | ackBefore psn => exact PsnTracker.ackBefore_rotate k (h psn (by simp [args]))

lemma TrackerCall.args_rotate (k : UInt32) (c : TrackerCall) :
    (c.rotate k).args = c.args.map (Psn.rotate k) := by
  cases c <;> rfl

/-! ## Whole runs -/

/-- The base stays a 24-bit number. -/
lemma TrackerCall.run_inRange {c : TrackerCall} (hb : t.basePsn.InRange)
    (hc : ∀ p ∈ c.args, p.InRange) : (c.run t).1.basePsn.InRange := by
  have hadv : ∀ u : PsnTracker, u.basePsn.InRange → u.tryAdvance.1.basePsn.InRange := by
    intro u hu
    simp only [PsnTracker.tryAdvance]
    split
    · exact hu
    · exact Psn.rotate_inRange _ u.basePsn
  have hbefore : ∀ p : Psn, p.InRange → (t.ackBefore p).1.basePsn.InRange := by
    intro p hp
    simp only [PsnTracker.ackBefore]
    cases usizeTryFrom (t.rstart p) with
    | none => exact hb
    | some r => exact hp
  cases c with
  | ackOne psn =>
    simp only [run, PsnTracker.ackOne]
    cases usizeTryFrom (t.rstart psn) with
    | none => exact hb
    | some r => exact hadv _ hb
  | ackBitmap psn bitmap => exact hadv _ hb
  | ackRange lo hi =>
    simp only [run, PsnTracker.ackRange]
    split
    · exact hbefore hi (hc hi (by simp [args]))
    · split
      · exact hb
      · exact hb
  | ackBefore psn => exact hbefore psn (hc psn (by simp [args]))

/-- **A run that never crosses the wrap commutes with rotation**: the same returned values and
final base, shifted, and the same bitmap. -/
theorem runCalls_rotate (k : UInt32) :
    ∀ (t : PsnTracker) (calls : List TrackerCall), t.basePsn.InRange →
      (∀ c ∈ calls, ∀ p ∈ c.args, p.InRange) →
      AlongRun (fun base p => ¬ Psn.CrossesWrap base p) t calls →
      AlongRun (fun base p => ¬ Psn.CrossesWrap base p) (t.rotate k)
        (calls.map (TrackerCall.rotate k)) →
      runCalls (t.rotate k) (calls.map (TrackerCall.rotate k))
        = ((runCalls t calls).1.rotate k, (runCalls t calls).2.map (Option.map (Psn.rotate k)))
  | _, [], _, _, _, _ => rfl
  | t, c :: cs, hb, hr, h, hk => by
    have hargs : ∀ p ∈ c.args, (t.rotate k).rstart (p.rotate k) = t.rstart p := by
      intro p hp
      refine PsnTracker.rstart_rotate k hb (hr c (by simp) p hp) (h.1 p hp) (hk.1 _ ?_)
      rw [TrackerCall.args_rotate]
      exact List.mem_map_of_mem hp
    have hstep := TrackerCall.run_rotate k hargs
    have hk' := hk.2
    rw [hstep] at hk'
    have ih := runCalls_rotate k (c.run t).1 cs (TrackerCall.run_inRange hb (hr c (by simp)))
      (fun c' hc' => hr c' (by simp [hc'])) h.2 hk'
    simp only [List.map_cons, runCalls, hstep, ih]

/-- Acknowledging a PSN equal to the base of a clear window moves the base on by one. -/
lemma PsnTracker.ackOne_base {b : ℕ} (h : t.Tracks b (fun _ => false)) :
    (t.ackOne (Psn.ofPos b)).1.Tracks (b + 1) (fun _ => false) ∧
      (t.ackOne (Psn.ofPos b)).2 = some (Psn.ofPos (b + 1)) := by
  have hr : usizeTryFrom (t.rstart (Psn.ofPos b)) = some 0 := by
    rw [PsnTracker.rstart_eq (by rw [h.1]; exact Psn.ofPos_inRange b) (Psn.ofPos_inRange b), h.1,
      if_neg (by omega), sub_self]
    rfl
  obtain ⟨B', h1, h2, h3, h4, h5⟩ := PsnTracker.ackOne_tracks h hr
  have hne : B' ≠ b := by
    rintro rfl
    simp at h3
  have hB : B' = b + 1 := by
    by_contra hB
    have := h2 (b + 1) (by omega) (by omega)
    simp at this
  subst hB
  refine ⟨h4.congr fun n hn => ?_, by rw [h5, if_neg hne]⟩
  simp only [Bool.false_or, decide_eq_false_iff_not]
  omega

/-- **One PSN after another.**  The base follows, through the wrap point and around the circle
any number of times. -/
theorem runCalls_sequential :
    ∀ (n : ℕ) {t : PsnTracker} {b : ℕ}, t.Tracks b (fun _ => false) →
      (runCalls t ((List.range' b n).map fun i => .ackOne (Psn.ofPos i))).1.Tracks (b + n)
          (fun _ => false) ∧
        (runCalls t ((List.range' b n).map fun i => .ackOne (Psn.ofPos i))).2
          = (List.range' (b + 1) n).map fun i => some (Psn.ofPos i)
  | 0, t, b, h => ⟨h, rfl⟩
  | n + 1, t, b, h => by
    obtain ⟨h1, h2⟩ := PsnTracker.ackOne_base h
    obtain ⟨h3, h4⟩ := runCalls_sequential n h1
    simp only [List.range'_succ, List.map_cons, runCalls, TrackerCall.run, h2, h4]
    refine ⟨?_, trivial⟩
    rw [show b + (n + 1) = b + 1 + n by omega]
    exact h3

/-- **Where PSN tracking is invariant under rotation of the circle.**

* Within `2 ^ 22` of the base the sign of the offset agrees with `Psn::cmp` if and only if the
  argument does not lie ahead of the base across the wrap point.
* A run whose arguments never do, in either copy, commutes with rotation.
* Acknowledging one PSN after another never meets such an argument, from any base. -/
theorem tracker_rotation (t : PsnTracker) :
    (∀ psn : Psn, t.basePsn.InRange → psn.InRange →
      Psn.Within22 t.basePsn psn →
      (compare (t.rstart psn) 0 = psn.cmp t.basePsn ↔ ¬ Psn.CrossesWrap t.basePsn psn)) ∧
    (∀ (k : UInt32) (calls : List TrackerCall), t.basePsn.InRange →
      (∀ c ∈ calls, ∀ p ∈ c.args, p.InRange) →
      AlongRun (fun base p => ¬ Psn.CrossesWrap base p) t calls →
      AlongRun (fun base p => ¬ Psn.CrossesWrap base p) (t.rotate k)
        (calls.map (TrackerCall.rotate k)) →
      runCalls (t.rotate k) (calls.map (TrackerCall.rotate k))
        = ((runCalls t calls).1.rotate k, (runCalls t calls).2.map (Option.map (Psn.rotate k)))) ∧
    (∀ b n : ℕ, t.Tracks b (fun _ => false) →
      (runCalls t ((List.range' b n).map fun i => .ackOne (Psn.ofPos i))).1.basePsn
          = Psn.ofPos (b + n) ∧
        (runCalls t ((List.range' b n).map fun i => .ackOne (Psn.ofPos i))).2
          = (List.range' (b + 1) n).map fun i => some (Psn.ofPos i)) :=
  ⟨fun _ hb hp hn => PsnTracker.rstart_sign_iff hb hp hn, fun k calls => runCalls_rotate k t calls,
    fun _ n h => ⟨(runCalls_sequential n h).1.1, (runCalls_sequential n h).2⟩⟩

/-- Two acknowledgements out of order, away from the wrap: three steps further round the circle the
base ends three steps further. -/
theorem tracker_rotation_away :
    let t : PsnTracker := ⟨⟨5⟩, []⟩
    let calls : List TrackerCall := [.ackOne ⟨6⟩, .ackOne ⟨5⟩]
    runCalls (t.rotate 3) (calls.map (TrackerCall.rotate 3))
      = ((runCalls t calls).1.rotate 3, (runCalls t calls).2.map (Option.map (Psn.rotate 3))) ∧
    (runCalls t calls).2 = [none, some ⟨7⟩] := by
  refine ⟨(tracker_rotation ⟨⟨5⟩, []⟩).2.1 3 [.ackOne ⟨6⟩, .ackOne ⟨5⟩] (by decide) ?_ ?_ ?_,
    by decide⟩
  · intro c hc p hp
    simp only [List.mem_cons, List.not_mem_nil, or_false] at hc
    rcases hc with rfl | rfl <;> rw [List.mem_singleton.mp hp] <;> decide
  · refine ⟨fun p hp => ?_, fun p hp => ?_, trivial⟩ <;> rw [List.mem_singleton.mp hp] <;> decide
  · refine ⟨fun p hp => ?_, fun p hp => ?_, trivial⟩ <;> rw [List.mem_singleton.mp hp] <;> decide

/-- The base at `0xFFFFFF` drops an acknowledgement of PSN `0`; one step further round the
circle the same call is recorded. -/
theorem tracker_rotation_fails :
    let t : PsnTracker := ⟨⟨0xFFFFFF⟩, []⟩
    let calls : List TrackerCall := [.ackOne ⟨0⟩]
    AlongRun Psn.Within22 t calls ∧
      (runCalls (t.rotate 1) (calls.map (TrackerCall.rotate 1))).1.inner ≠
      (runCalls t calls).1.inner ∧ compare (t.rstart ⟨0⟩) 0 = .lt ∧
      Psn.cmp ⟨0⟩ t.basePsn = .gt := by
  refine ⟨⟨fun p hp => ?_, trivial⟩, by decide, by decide, by decide⟩
  rw [List.mem_singleton.mp hp]
  decide

end OpenRdma
