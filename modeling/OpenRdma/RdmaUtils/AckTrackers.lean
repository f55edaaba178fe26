import OpenRdma.RdmaUtils.AckedSet

/-!
# The trackers of the two sides

The trackers of the receive and of the send side are driven by reports, each of which is up to three
operations of a `PsnTracker`.  Some of these look for the first clear bit when they are done, others
leave the base where they have put it; the last operation of a report decides.

* **`base_unacknowledged`** — on the receive side the base has never been acknowledged.  On the send
  side `ackBefore` jumps to the PSN it is given without a look at its bit, and that is the only way
  to a base that has been.
* **`base_reported`** — a report that moves the base returns the new one.
-/

namespace OpenRdma

/-- An operation of the receive tracker. -/
inductive LocalAckOp where
  | ackOne (psn : Psn)
  | ackBitmap (basePsn : Psn) (bitmap : BitVec 128)
  | nakBitmap (psnPre : Psn) (preBitmap : BitVec 128) (psnNow : Psn) (nowBitmap : BitVec 128)
deriving DecidableEq, Repr

/-- An operation of the send tracker. -/
inductive RemoteAckOp where
  | ackBefore (psn : Psn)
  | nakBitmap (msn : UInt16) (psnPre : Psn) (preBitmap : BitVec 128) (psnNow : Psn)
      (nowBitmap : BitVec 128)
deriving DecidableEq, Repr

/-- The PSNs that the report names are below `2 ^ 23`. -/
def LocalAckOp.Low : LocalAckOp → Prop
  | ackOne psn => psn.val.toNat < 2 ^ 23
  | ackBitmap basePsn _ => basePsn.val.toNat < 2 ^ 23
  | nakBitmap psnPre _ psnNow _ => psnPre.val.toNat < 2 ^ 23 ∧ psnNow.val.toNat < 2 ^ 23

namespace RemoteAckOp

/-- The PSNs that the report names are below `2 ^ 23`. -/
def Low : RemoteAckOp → Prop
  | ackBefore psn => psn.val.toNat < 2 ^ 23
  | nakBitmap _ psnPre _ psnNow _ => psnPre.val.toNat < 2 ^ 23 ∧ psnNow.val.toNat < 2 ^ 23

/-- All PSNs of the report are below `2 ^ 23`, those marked in a bitmap included. -/
def InHalf : RemoteAckOp → Prop
  | ackBefore psn => (AckOp.ackBefore psn).InHalf
  | nakBitmap _ psnPre preBitmap psnNow nowBitmap =>
    (AckOp.ackBitmap psnPre preBitmap).InHalf ∧ (AckOp.ackBitmap psnNow nowBitmap).InHalf

end RemoteAckOp

namespace LocalAckTracker

def apply (t : LocalAckTracker) : LocalAckOp → LocalAckTracker × Option Psn
  | .ackOne psn => t.ackOne psn
  | .ackBitmap basePsn bitmap => t.ackBitmap basePsn bitmap
  | .nakBitmap psnPre preBitmap psnNow nowBitmap => t.nakBitmap psnPre preBitmap psnNow nowBitmap

def after (ops : List LocalAckOp) : LocalAckTracker :=
  ops.foldl (fun t op => (t.apply op).1) default

end LocalAckTracker

namespace RemoteAckTracker

def apply (t : RemoteAckTracker) : RemoteAckOp → RemoteAckTracker × Option Psn
  | .ackBefore psn => t.ackBefore psn
  | .nakBitmap msn psnPre preBitmap psnNow nowBitmap =>
    t.nakBitmap msn psnPre preBitmap psnNow nowBitmap

def after (ops : List RemoteAckOp) : RemoteAckTracker :=
  ops.foldl (fun t op => (t.apply op).1) default

end RemoteAckTracker

/-! ## The bit of the base -/

namespace PsnTracker

/-- Whatever the window holds, advancing leaves the base at a clear bit. -/
lemma tryAdvance_clear (t : PsnTracker) : bitAt t.tryAdvance.1.inner 0 = false := by
  unfold tryAdvance
  dsimp only
  split
  · rename_i hzero
    rw [← hzero]
    exact bitAt_lead t.inner
  · rw [bitAt_shiftLeft, Nat.zero_add]
    exact bitAt_lead t.inner

lemma ackBitmap_clear (t : PsnTracker) (psn : Psn) (bitmap : BitVec 128) :
    bitAt (t.ackBitmap psn bitmap).1.inner 0 = false := by
  obtain ⟨inner, heq, -⟩ := t.ackBitmap_eq psn bitmap
  rw [heq]
  exact tryAdvance_clear _

lemma ackOne_clear {t : PsnTracker} (psn : Psn) (h : bitAt t.inner 0 = false) :
    bitAt (t.ackOne psn).1.inner 0 = false := by
  unfold ackOne
  split
  · exact h
  · exact tryAdvance_clear _

/-- A PSN that is not behind the base is not marked in the window. -/
def Unmarked (t : PsnTracker) (psn : Psn) : Prop :=
  t.basePsn.val.toNat ≤ psn.val.toNat →
    bitAt t.inner (psn.val.toNat - t.basePsn.val.toNat) = false

/-- The base jumps to a clear bit exactly if the PSN it jumps to is not marked. -/
lemma ackBefore_clear_iff {t : PsnTracker} {psn : Psn} (h : bitAt t.inner 0 = false)
    (hr : t.rstart psn = (psn.val.toNat : ℤ) - t.basePsn.val.toNat) :
    bitAt (t.ackBefore psn).1.inner 0 = false ↔ t.Unmarked psn := by
  unfold Unmarked
  rcases Nat.lt_or_ge psn.val.toNat t.basePsn.val.toNat with hlt | hge
  · have hnone : usizeTryFrom (t.rstart psn) = none := by
      rw [hr, usizeTryFrom, if_neg (by omega)]
    simp only [ackBefore, hnone, h, true_iff]
    intro hle
    omega
  · have hsome : usizeTryFrom (t.rstart psn) = some (psn.val.toNat - t.basePsn.val.toNat) := by
      rw [hr, usizeTryFrom, if_pos (by omega)]
      congr 1
      omega
    simp only [ackBefore, hsome, hge, true_imp_iff]
    split
    · rename_i hlen
      rw [bitAt_fillFalse, bitAt_of_le hlen]
    · rw [bitAt_shiftLeft, Nat.zero_add]

end PsnTracker

/-- A report on the receive side leaves the base at a clear bit. -/
lemma LocalAckTracker.apply_clear {t : LocalAckTracker} (op : LocalAckOp)
    (h : bitAt t.psnTracker.inner 0 = false) : bitAt (t.apply op).1.psnTracker.inner 0 = false := by
  cases op with
  | ackOne psn => exact PsnTracker.ackOne_clear psn h
  | ackBitmap basePsn bitmap => exact PsnTracker.ackBitmap_clear _ _ _
  | nakBitmap psnPre preBitmap psnNow nowBitmap => exact PsnTracker.ackBitmap_clear _ _ _

namespace RemoteAckTracker

variable {t : RemoteAckTracker}

/-- The window of the send side represents some set of PSNs in the lower half. -/
structure InHalf (t : RemoteAckTracker) : Prop where
  sound : ∃ B f, t.psnTracker.Sound B f
  psnPre : t.psnPre.val.toNat < 2 ^ 23

lemma inHalf_default : InHalf default := ⟨⟨0, _, PsnTracker.sound_default⟩, by decide⟩

/-- The first of the three operations of `nakBitmap`. -/
def nakRange (t : RemoteAckTracker) (msn : UInt16) (psnPre : Psn) : PsnTracker × Option Psn :=
  if msn = t.msnPre + 1 then t.psnTracker.ackRange t.psnPre psnPre else (t.psnTracker, none)

lemma nakBitmap_psnTracker (t : RemoteAckTracker) (msn : UInt16) (psnPre : Psn)
    (preBitmap : BitVec 128) (psnNow : Psn) (nowBitmap : BitVec 128) :
    (t.nakBitmap msn psnPre preBitmap psnNow nowBitmap).1.psnTracker =
      (((t.nakRange msn psnPre).1.ackBitmap psnPre preBitmap).1.ackBitmap psnNow nowBitmap).1 := by
  unfold nakBitmap
  dsimp only
  split <;> rfl

lemma nakBitmap_result (t : RemoteAckTracker) (msn : UInt16) (psnPre : Psn) (preBitmap : BitVec 128)
    (psnNow : Psn) (nowBitmap : BitVec 128) :
    (t.nakBitmap msn psnPre preBitmap psnNow nowBitmap).2 =
      ((((t.nakRange msn psnPre).1.ackBitmap psnPre preBitmap).1.ackBitmap psnNow nowBitmap).2.or
        ((t.nakRange msn psnPre).1.ackBitmap psnPre preBitmap).2).or
          (t.nakRange msn psnPre).2 := rfl

lemma nakBitmap_psnPre (t : RemoteAckTracker) (msn : UInt16) (psnPre : Psn) (preBitmap : BitVec 128)
    (psnNow : Psn) (nowBitmap : BitVec 128) :
    (t.nakBitmap msn psnPre preBitmap psnNow nowBitmap).1.psnPre =
      if t.psnPre < psnNow then psnNow else t.psnPre := by
  unfold nakBitmap
  dsimp only
  split <;> rfl

lemma InHalf.apply (h : t.InHalf) {op : RemoteAckOp} (hop : op.InHalf) : (t.apply op).1.InHalf := by
  obtain ⟨⟨B, f, hs⟩, hpre⟩ := h
  cases op with
  | ackBefore psn =>
    obtain ⟨B', hs'⟩ := hs.ackBefore hop
    exact ⟨⟨B', _, hs'⟩, hpre⟩
  | nakBitmap msn psnPre preBitmap psnNow nowBitmap =>
    obtain ⟨hfirst, hsecond⟩ := hop
    obtain ⟨B₁, f₁, h₁⟩ : ∃ B f, (t.nakRange msn psnPre).1.Sound B f := by
      unfold nakRange
      split
      · obtain ⟨B₁, h₁⟩ := hs.ackRange hpre hfirst.1
        exact ⟨B₁, _, h₁⟩
      · exact ⟨B, f, hs⟩
    obtain ⟨B₂, h₂⟩ := h₁.ackBitmap hfirst
    obtain ⟨B₃, h₃⟩ := h₂.ackBitmap hsecond
    constructor
    · rw [RemoteAckTracker.apply, nakBitmap_psnTracker]
      exact ⟨B₃, _, h₃⟩
    · rw [RemoteAckTracker.apply, nakBitmap_psnPre]
      split
      · exact hsecond.1
      · exact hpre

/-- A report on the send side leaves the base at a clear bit, unless it jumps to a marked PSN. -/
lemma apply_clear_iff (h : t.InHalf) (hclear : bitAt t.psnTracker.inner 0 = false)
    {op : RemoteAckOp} (hop : op.InHalf) : bitAt (t.apply op).1.psnTracker.inner 0 = false ↔
      ∀ psn, op = .ackBefore psn → t.psnTracker.Unmarked psn := by
  cases op with
  | ackBefore psn =>
    obtain ⟨B, f, hs⟩ := h.sound
    have hr := hs.rstart (show psn.val.toNat < 2 ^ 23 from hop)
    rw [← hs.base_val] at hr
    refine (PsnTracker.ackBefore_clear_iff hclear hr).trans ?_
    constructor
    · rintro hu p ⟨⟩
      exact hu
    · intro hu
      exact hu psn rfl
  | nakBitmap msn psnPre preBitmap psnNow nowBitmap =>
    rw [RemoteAckTracker.apply, nakBitmap_psnTracker]
    exact iff_of_true (PsnTracker.ackBitmap_clear _ _ _) nofun

lemma after_concat (ops : List RemoteAckOp) (op : RemoteAckOp) :
    after (ops ++ [op]) = ((after ops).apply op).1 := by
  rw [after, List.foldl_append]
  rfl

lemma inHalf_after {ops : List RemoteAckOp} (hops : ∀ op ∈ ops, op.InHalf) :
    (after ops).InHalf := by
  induction ops using List.reverseRecOn with
  | nil => exact inHalf_default
  | append_singleton ops op ih =>
    rw [after_concat]
    exact (ih fun o ho => hops o (by simp [ho])).apply (hops op (by simp))

end RemoteAckTracker

/-- **When the base is the first PSN that is missing.**  On the receive side bit zero is clear after
every sequence of reports.  On the send side it stays clear along a sequence of reports in the lower
half exactly if no `ackBefore` of the sequence names a PSN that is marked in the window at that
time. -/
theorem base_unacknowledged (received : List LocalAckOp) (ops : List RemoteAckOp)
    (hops : ∀ op ∈ ops, op.InHalf) :
    bitAt (LocalAckTracker.after received).psnTracker.inner 0 = false ∧
    ((∀ before later, ops = before ++ later →
        bitAt (RemoteAckTracker.after before).psnTracker.inner 0 = false) ↔
      ∀ before psn later, ops = before ++ .ackBefore psn :: later →
        (RemoteAckTracker.after before).psnTracker.Unmarked psn) := by
  constructor
  · induction received using List.reverseRecOn with
    | nil => rfl
    | append_singleton received op ih =>
      rw [LocalAckTracker.after, List.foldl_append]
      exact LocalAckTracker.apply_clear op ih
  · constructor
    · rintro hclear before psn later rfl
      have hstep := hclear (before ++ [.ackBefore psn]) later (by simp)
      rw [RemoteAckTracker.after_concat, RemoteAckTracker.apply_clear_iff
        (RemoteAckTracker.inHalf_after fun o ho => hops o (by simp [ho])) (hclear before _ rfl)
        (hops _ (by simp))] at hstep
      exact hstep psn rfl
    · intro hunmarked before
      induction before using List.reverseRecOn with
      | nil => intro _ _; rfl
      | append_singleton before op ih =>
        rintro later rfl
        rw [RemoteAckTracker.after_concat, RemoteAckTracker.apply_clear_iff
          (RemoteAckTracker.inHalf_after fun o ho => hops o (by simp [ho]))
          (ih (op :: later) (by simp)) (hops _ (by simp))]
        rintro psn rfl
        exact hunmarked before psn later (by simp)

/-- PSN 5 is reported as received, out of order. -/
def receivedFive : RemoteAckOp := .nakBitmap 0 ⟨0⟩ 0 ⟨5⟩ 1

theorem base_unacknowledged_behind :
    receivedFive.InHalf ∧ (RemoteAckOp.ackBefore ⟨4⟩).InHalf ∧
    bitAt (RemoteAckTracker.after [receivedFive, .ackBefore ⟨4⟩]).psnTracker.inner 0 = false := by
  have hhalf : ∀ psn bitmap, psn < 6 → (AckOp.ackBitmap ⟨psn⟩ bitmap).InHalf := by
    intro psn bitmap hlt
    have hlt' : psn.toNat < 6 := hlt
    refine ⟨hlt'.trans (by decide), fun i hi => ?_⟩
    have := BitVec.lt_of_getLsbD hi
    dsimp only
    omega
  have hfive : receivedFive.InHalf := ⟨hhalf 0 0 (by decide), hhalf 5 1 (by decide)⟩
  have hfour : (RemoteAckOp.ackBefore ⟨4⟩).InHalf := by
    show (4 : UInt32).toNat < 2 ^ 23
    decide
  refine ⟨hfive, hfour, ?_⟩
  refine (base_unacknowledged [] [receivedFive, .ackBefore ⟨4⟩] ?_).2.2 ?_ _ [] (by simp)
  · intro op hop
    simp only [List.mem_cons, List.not_mem_nil, or_false] at hop
    rcases hop with rfl | rfl
    · exact hfive
    · exact hfour
  · intro before psn later heq
    rcases before with _ | ⟨o, _ | ⟨o', _ | ⟨o'', before⟩⟩⟩
    · cases heq
    · cases heq
      intro _
      decide +kernel
    · simp at heq
    · simp at heq

/-- All PSNs before 5 are acknowledged: the base is PSN 5, which was reported as received. -/
theorem base_acknowledged :
    (RemoteAckTracker.after [receivedFive, .ackBefore ⟨5⟩]).psnTracker.basePsn = ⟨5⟩ ∧
    bitAt (RemoteAckTracker.after [receivedFive, .ackBefore ⟨5⟩]).psnTracker.inner 0 = true := by
  decide +kernel

/-! ## Reports of moves -/

namespace PsnTracker

/-- What was returned is the base, or nothing was returned and the base is where it was. -/
def Reports (t : PsnTracker) (out : PsnTracker × Option Psn) : Prop :=
  (out.2 = none ∧ out.1.basePsn = t.basePsn) ∨ out.2 = some out.1.basePsn

lemma Reports.refl (t : PsnTracker) : t.Reports (t, none) := .inl ⟨rfl, rfl⟩

/-- Two operations in a row, the later report taking precedence. -/
lemma Reports.trans {t t₁ t₂ : PsnTracker} {r₁ r₂ : Option Psn} (h₁ : t.Reports (t₁, r₁))
    (h₂ : t₁.Reports (t₂, r₂)) : t.Reports (t₂, r₂.or r₁) := by
  rcases h₂ with ⟨hr₂, hbase₂⟩ | hr₂
  · rcases h₁ with ⟨hr₁, hbase₁⟩ | hr₁
    · exact .inl ⟨by simp_all, hbase₂.trans hbase₁⟩
    · exact .inr (by simp_all)
  · exact .inr (by simp_all)

lemma tryAdvance_reports (t : PsnTracker) : t.Reports t.tryAdvance := by
  unfold tryAdvance
  dsimp only
  split
  · exact .refl t
  · exact .inr rfl

lemma ackOne_reports (t : PsnTracker) (psn : Psn) : t.Reports (t.ackOne psn) := by
  unfold ackOne
  split
  · exact .refl t
  · exact tryAdvance_reports _

lemma ackBitmap_reports (t : PsnTracker) (psn : Psn) (bitmap : BitVec 128) :
    t.Reports (t.ackBitmap psn bitmap) := by
  obtain ⟨inner, heq, -⟩ := t.ackBitmap_eq psn bitmap
  rw [heq]
  exact tryAdvance_reports { t with inner := inner }

lemma ackBefore_reports (t : PsnTracker) (psn : Psn) : t.Reports (t.ackBefore psn) := by
  unfold ackBefore
  split
  · exact .refl t
  · exact .inr rfl

lemma ackRange_reports (t : PsnTracker) (psnLow psnHigh : Psn) :
    t.Reports (t.ackRange psnLow psnHigh) := by
  by_cases hlow : psnLow ≤ t.basePsn
  · rw [ackRange, if_pos hlow]
    exact ackBefore_reports t psnHigh
  · obtain ⟨inner, heq, -⟩ := ackRange_eq psnHigh hlow
    rw [heq]
    exact .inl ⟨rfl, rfl⟩

/-- The offset of a PSN in the lower half is never overestimated. -/
lemma rstart_le_of_low {t : PsnTracker} {B M : ℕ} (h : t.Window B M) (hM : M < 2 ^ 24) {psn : Psn}
    (hp : psn.val.toNat < 2 ^ 23) :
    (B : ℤ) + t.rstart (Psn.ofPos psn.val.toNat) ≤ psn.val.toNat := by
  have hB := h.base_le
  rw [rstart_eq (by rw [h.base_eq]; exact Psn.ofPos_inRange B) (Psn.ofPos_inRange _), h.base_eq,
    Psn.ofPos_val, Psn.ofPos_val]
  split <;> omega

lemma ofPos_of_low {psn : Psn} (hp : psn.val.toNat < 2 ^ 23) : Psn.ofPos psn.val.toNat = psn :=
  Psn.ofPos_toNat (by rw [Psn.InRange]; omega)

/-- A window that ends before the number space does, before and after a move. -/
lemma Moves.base_val_le {t : PsnTracker} {B B' M : ℕ} {out : PsnTracker × Option Psn}
    (h : t.Window B M) (hM : M < 2 ^ 24) (hm : Moves B M out B') :
    t.basePsn.val.toNat ≤ out.1.basePsn.val.toNat := by
  have h1 := h.base_le
  have h2 := hm.le
  have h3 := hm.window.base_le
  rw [h.base_eq, hm.window.base_eq, Psn.ofPos_val, Psn.ofPos_val]
  omega

section Low

variable {t : PsnTracker} {B M : ℕ} {psn : Psn} (h : t.Window B M) (hM : M < 2 ^ 24)
  (hp : psn.val.toNat < 2 ^ 23)
include h hM hp

lemma ackOne_low (hlt : 2 ^ 23 ≤ M) : ∃ B', Moves B M (t.ackOne psn) B' := by
  have := ackOne_moves h (rstart_le_of_low h hM hp) (by omega)
  rwa [ofPos_of_low hp] at this

lemma ackBitmap_low (bitmap : BitVec 128) (hlt : 2 ^ 23 + 127 ≤ M) :
    ∃ B', Moves B M (t.ackBitmap psn bitmap) B' := by
  have := ackBitmap_moves bitmap h (rstart_le_of_low h hM hp) (by omega)
  rwa [ofPos_of_low hp] at this

lemma ackBefore_low (hlt : 2 ^ 23 ≤ M) : ∃ B', Moves B M (t.ackBefore psn) B' := by
  have := ackBefore_moves h (rstart_le_of_low h hM hp) (by omega)
  rwa [ofPos_of_low hp] at this

lemma ackRange_low (psnLow : Psn) (hlt : 2 ^ 23 ≤ M) :
    ∃ B', Moves B M (t.ackRange psnLow psn) B' := by
  have := ackRange_moves psnLow h (rstart_le_of_low h hM hp) (by omega)
  rwa [ofPos_of_low hp] at this

end Low

end PsnTracker

namespace LocalAckTracker

lemma apply_reports (t : LocalAckTracker) (op : LocalAckOp) :
    t.psnTracker.Reports ((t.apply op).1.psnTracker, (t.apply op).2) := by
  cases op with
  | ackOne psn => exact t.psnTracker.ackOne_reports psn
  | ackBitmap basePsn bitmap =>
    exact (PsnTracker.ackRange_reports _ _ _).trans (PsnTracker.ackBitmap_reports _ _ _)
  | nakBitmap psnPre preBitmap psnNow nowBitmap =>
    have hrest := (PsnTracker.ackBitmap_reports (t.psnTracker.ackRange t.psnPre psnPre).1 psnPre
      preBitmap).trans (PsnTracker.ackBitmap_reports _ psnNow nowBitmap)
    exact (PsnTracker.ackRange_reports _ _ _).trans hrest

lemma apply_moves {t : LocalAckTracker} {B : ℕ} (h : t.psnTracker.Window B (2 ^ 24 - 1))
    {op : LocalAckOp} (hop : op.Low) : ∃ B', PsnTracker.Moves B (2 ^ 24 - 1)
      ((t.apply op).1.psnTracker, (t.apply op).2) B' := by
  cases op with
  | ackOne psn => exact PsnTracker.ackOne_low h (by omega) hop (by omega)
  | ackBitmap basePsn bitmap =>
    obtain ⟨B₁, m₁⟩ := PsnTracker.ackRange_low h (by omega) hop t.psnPre (by omega)
    obtain ⟨B₂, m₂⟩ := PsnTracker.ackBitmap_low m₁.window (by omega) hop bitmap (by omega)
    exact ⟨B₂, m₁.trans m₂⟩
  | nakBitmap psnPre preBitmap psnNow nowBitmap =>
    obtain ⟨B₁, m₁⟩ := PsnTracker.ackRange_low h (by omega) hop.1 t.psnPre (by omega)
    obtain ⟨B₂, m₂⟩ := PsnTracker.ackBitmap_low m₁.window (by omega) hop.1 preBitmap (by omega)
    obtain ⟨B₃, m₃⟩ := PsnTracker.ackBitmap_low m₂.window (by omega) hop.2 nowBitmap (by omega)
    exact ⟨B₃, m₁.trans (m₂.trans m₃)⟩

end LocalAckTracker

namespace RemoteAckTracker

lemma apply_reports (t : RemoteAckTracker) (op : RemoteAckOp) :
    t.psnTracker.Reports ((t.apply op).1.psnTracker, (t.apply op).2) := by
  cases op with
  | ackBefore psn => exact t.psnTracker.ackBefore_reports psn
  | nakBitmap msn psnPre preBitmap psnNow nowBitmap =>
    rw [apply, nakBitmap_psnTracker, nakBitmap_result]
    have hrange : t.psnTracker.Reports (t.nakRange msn psnPre) := by
      unfold nakRange
      split
      · exact PsnTracker.ackRange_reports _ _ _
      · exact .refl _
    have hrest := (PsnTracker.ackBitmap_reports (t.nakRange msn psnPre).1 psnPre preBitmap).trans
      (PsnTracker.ackBitmap_reports _ psnNow nowBitmap)
    exact hrange.trans hrest

lemma apply_moves {t : RemoteAckTracker} {B : ℕ} (h : t.psnTracker.Window B (2 ^ 24 - 1))
    {op : RemoteAckOp} (hop : op.Low) : ∃ B', PsnTracker.Moves B (2 ^ 24 - 1)
      ((t.apply op).1.psnTracker, (t.apply op).2) B' := by
  cases op with
  | ackBefore psn => exact PsnTracker.ackBefore_low h (by omega) hop (by omega)
  | nakBitmap msn psnPre preBitmap psnNow nowBitmap =>
    rw [apply, nakBitmap_psnTracker, nakBitmap_result]
    obtain ⟨B₁, m₁⟩ : ∃ B₁, PsnTracker.Moves B (2 ^ 24 - 1) (t.nakRange msn psnPre) B₁ := by
      unfold nakRange
      split
      · exact PsnTracker.ackRange_low h (by omega) hop.1 t.psnPre (by omega)
      · exact ⟨B, le_rfl, h, .inl ⟨rfl, rfl⟩⟩
    obtain ⟨B₂, m₂⟩ := PsnTracker.ackBitmap_low m₁.window (by omega) hop.1 preBitmap (by omega)
    obtain ⟨B₃, m₃⟩ := PsnTracker.ackBitmap_low m₂.window (by omega) hop.2 nowBitmap (by omega)
    exact ⟨B₃, m₁.trans (m₂.trans m₃)⟩

end RemoteAckTracker

/-- What is returned, when it is the base or the base did not move. -/
lemma PsnTracker.Reports.returned {t : PsnTracker} {out : PsnTracker × Option Psn}
    (h : t.Reports out) :
    (∀ p, out.2 = some p → out.1.basePsn = p) ∧
    (out.1.basePsn ≠ t.basePsn → out.2.isSome = true) := by
  rcases h with ⟨hnone, hbase⟩ | hsome
  · exact ⟨by simp [hnone], fun hne => absurd hbase hne⟩
  · exact ⟨by simp [hsome], by simp [hsome]⟩

/-- **No move of the base goes unreported.**  In every state of either tracker, whatever a report
returns is the base after it, and a report that moves the base returns something.  The base never
moves backwards if the PSNs of the report are below `2 ^ 23` and the window does not reach the end
of the number space — as it does not when its PSNs are below `2 ^ 23`, too. -/
theorem base_reported :
    (∀ (t : LocalAckTracker) (op : LocalAckOp),
      (∀ p, (t.apply op).2 = some p → (t.apply op).1.psnTracker.basePsn = p) ∧
      ((t.apply op).1.psnTracker.basePsn ≠ t.psnTracker.basePsn → (t.apply op).2.isSome = true) ∧
      ∀ B, t.psnTracker.Window B (2 ^ 24 - 1) → op.Low →
        t.psnTracker.basePsn.val.toNat ≤ (t.apply op).1.psnTracker.basePsn.val.toNat) ∧
    ∀ (t : RemoteAckTracker) (op : RemoteAckOp),
      (∀ p, (t.apply op).2 = some p → (t.apply op).1.psnTracker.basePsn = p) ∧
      ((t.apply op).1.psnTracker.basePsn ≠ t.psnTracker.basePsn → (t.apply op).2.isSome = true) ∧
      ∀ B, t.psnTracker.Window B (2 ^ 24 - 1) → op.Low →
        t.psnTracker.basePsn.val.toNat ≤ (t.apply op).1.psnTracker.basePsn.val.toNat := by
  constructor
  · intro t op
    obtain ⟨hbase, hmoved⟩ := (t.apply_reports op).returned
    refine ⟨hbase, hmoved, fun B hw hop => ?_⟩
    obtain ⟨B', hm⟩ := LocalAckTracker.apply_moves hw hop
    exact hm.base_val_le hw (by omega)
  · intro t op
    obtain ⟨hbase, hmoved⟩ := (t.apply_reports op).returned
    refine ⟨hbase, hmoved, fun B hw hop => ?_⟩
    obtain ⟨B', hm⟩ := RemoteAckTracker.apply_moves hw hop
    exact hm.base_val_le hw (by omega)

/-- The range moves the base to 3, and the bitmap from there to 5. -/
theorem base_reported_twice :
    (default : LocalAckTracker).psnTracker.Window 0 (2 ^ 24 - 1) ∧
    (LocalAckTracker.apply default (.ackBitmap ⟨3⟩ 0b11)).2 = some ⟨5⟩ ∧
    (LocalAckTracker.apply default (.ackBitmap ⟨3⟩ 0b11)).1.psnTracker.basePsn = ⟨5⟩ ∧
    (default : LocalAckTracker).psnTracker.basePsn.val.toNat ≤
      (LocalAckTracker.apply default (.ackBitmap ⟨3⟩ 0b11)).1.psnTracker.basePsn.val.toNat := by
  have hwindow : (default : LocalAckTracker).psnTracker.Window 0 (2 ^ 24 - 1) :=
    ⟨rfl, by omega, fun i hi => by cases (bitAt_nil i).symm.trans hi⟩
  have hresult : (LocalAckTracker.apply default (.ackBitmap ⟨3⟩ 0b11)).2 = some ⟨5⟩ := by
    decide +kernel
  obtain ⟨hbase, -, hle⟩ := base_reported.1 default (.ackBitmap ⟨3⟩ 0b11)
  exact ⟨hwindow, hresult, hbase _ hresult,
    hle 0 hwindow (by show (3 : UInt32).toNat < 2 ^ 23; decide)⟩

end OpenRdma
