import OpenRdma.RdmaUtils.Mtt

/-!
# Live allocations

Keys and page table entries are allocated together and freed together, from two allocators that know
nothing of each other: a stack of free key indices and a bitmap of used entries.  An allocation that
finds no entries keeps the key that it has already taken.

* **`allocations_sound`** — this holds after all calls, and the bitmap search is first fit.
-/

namespace OpenRdma

/-! ## Calls -/

/-- A call on the allocators. -/
inductive AllocCall where
  /-- `rand` is the random part of the key. -/
  | alloc (numPages : ℕ) (rand : UInt8)
  | dealloc (mrKey : UInt32) (entry : PgtEntry)
deriving DecidableEq, Repr

/-- The allocator, and the allocations that have been made and not been freed. -/
structure AllocSession where
  alloc : Alloc
  live : List (UInt32 × PgtEntry)

/-- The key index of an allocation. -/
def mrKeyIdx (x : UInt32 × PgtEntry) : UInt32 := x.1 >>> lrKeyKeyPartWidth

namespace PgtEntry

/-- The entry `i` of the page table is in the range. -/
def Covers (e : PgtEntry) (i : ℕ) : Prop := e.index.toNat ≤ i ∧ i < e.index.toNat + e.count.toNat

/-- No entry of the page table is in both ranges. -/
def Apart (e e' : PgtEntry) : Prop := ∀ i, ¬ (e.Covers i ∧ e'.Covers i)

instance : Std.Symm Apart := ⟨fun _ _ h i hi => h i ⟨hi.2, hi.1⟩⟩

end PgtEntry

namespace AllocSession

def new : AllocSession := ⟨.new, []⟩

def step (s : AllocSession) : AllocCall → AllocSession
  | .alloc numPages rand =>
    ⟨(s.alloc.alloc numPages rand).2, s.live ++ (s.alloc.alloc numPages rand).1.toList⟩
  | .dealloc mrKey entry =>
    ⟨(s.alloc.dealloc mrKey entry.index.toNat entry.count.toNat).2, s.live.erase (mrKey, entry)⟩

def run (s : AllocSession) (calls : List AllocCall) : AllocSession := calls.foldl step s

/-- Only a live allocation is freed. -/
def FreesLive (s : AllocSession) : AllocCall → Prop
  | .alloc _ _ => True
  | .dealloc mrKey entry => (mrKey, entry) ∈ s.live

instance (s : AllocSession) (c : AllocCall) : Decidable (s.FreesLive c) := by
  unfold FreesLive
  cases c <;> infer_instance

/-- Every call of the sequence frees only a live allocation. -/
def AlwaysFreesLive : AllocSession → List AllocCall → Prop
  | _, [] => True
  | s, c :: rest => s.FreesLive c ∧ AlwaysFreesLive (s.step c) rest

instance decidableAlwaysFreesLive : ∀ s calls, Decidable (AlwaysFreesLive s calls)
  | _, [] => .isTrue trivial
  | s, c :: rest =>
    have := decidableAlwaysFreesLive (s.step c) rest
    inferInstanceAs (Decidable (_ ∧ _))

end AllocSession

/-! ## The invariant -/

/-- Keys and page table entries are given out once. -/
structure AllocInv (s : AllocSession) : Prop where
  keys : (s.alloc.mr.freeList ++ s.live.map mrKeyIdx).Nodup
  keys_lt : ∀ idx ∈ s.alloc.mr.freeList ++ s.live.map mrKeyIdx, idx.toNat < maxMrCnt
  inside : ∀ x ∈ s.live, x.2.index.toNat + x.2.count.toNat ≤ pgtLen
  apart : s.live.Pairwise fun x y => x.2.Apart y.2
  used : ∀ i : Fin pgtLen, s.alloc.pgt.used i = true ↔ ∃ x ∈ s.live, x.2.Covers i

namespace AllocInv

variable {s : AllocSession}

lemma new : AllocInv .new where
  keys := by
    rw [AllocSession.new, List.map_nil, List.append_nil]
    exact new_freeList_nodup
  keys_lt := by
    rw [AllocSession.new, List.map_nil, List.append_nil]
    exact new_freeList_lt
  inside := nofun
  apart := .nil
  used _ := iff_of_false Bool.false_ne_true (by simp [AllocSession.new])

/-- The range that the bitmap search finds is none of the live ones. -/
lemma apart_of_freeRange (h : AllocInv s) {e : PgtEntry}
    (hfree : s.alloc.pgt.FreeRange e.index.toNat e.count.toNat) {x : UInt32 × PgtEntry}
    (hx : x ∈ s.live) : x.2.Apart e := by
  rintro i ⟨hxi, hei⟩
  have hi : i < pgtLen := lt_of_lt_of_le hei.2 hfree.1
  have hused := (h.used ⟨i, hi⟩).mpr ⟨x, hx, hxi⟩
  rw [hfree.2 ⟨i, hi⟩ hei.1 hei.2] at hused
  cases hused

/-- An allocation succeeds. -/
lemma succeed (h : AllocInv s) {idx : UInt32} {mr : MrTableAlloc} {rand : UInt8}
    {numPages index : ℕ} {pgt : PgtAlloc} (hmr : s.alloc.mr.freeList = mr.freeList ++ [idx])
    (hpgt : s.alloc.pgt.alloc numPages = some (index, pgt)) :
    AllocInv ⟨⟨mr, pgt⟩, s.live ++ [((idx <<< lrKeyKeyPartWidth) ||| rand.toUInt32,
      { index := UInt32.ofNat index, count := UInt32.ofNat numPages })]⟩ := by
  obtain ⟨-, hfree, -, rfl⟩ := PgtAlloc.alloc_eq_some hpgt
  have hlen : pgtLen = 128 := rfl
  have hbound := hfree.1
  have hindex : (UInt32.ofNat index).toNat = index := by
    rw [UInt32.toNat_ofNat', Nat.mod_eq_of_lt (by omega)]
  have hcount : (UInt32.ofNat numPages).toNat = numPages := by
    rw [UInt32.toNat_ofNat', Nat.mod_eq_of_lt (by omega)]
  have hidx : mrKeyIdx ((idx <<< lrKeyKeyPartWidth) ||| rand.toUInt32,
      { index := UInt32.ofNat index, count := UInt32.ofNat numPages : PgtEntry }) = idx :=
    mrKey_index (h.keys_lt idx (by simp [hmr])) rand
  -- the key moves from the free ones to the live ones
  have hperm : (mr.freeList ++ (s.live ++ [((idx <<< lrKeyKeyPartWidth) ||| rand.toUInt32,
      { index := UInt32.ofNat index, count := UInt32.ofNat numPages : PgtEntry })]).map
        mrKeyIdx).Perm
      (s.alloc.mr.freeList ++ s.live.map mrKeyIdx) := by
    rw [hmr, List.map_append, List.map_singleton, hidx, List.append_assoc]
    exact List.perm_append_comm.append_left _
  refine ⟨hperm.nodup_iff.mpr h.keys, fun i hi => h.keys_lt i (hperm.mem_iff.mp hi), ?_, ?_, ?_⟩
  · intro x hx
    rcases List.mem_append.mp hx with hx | hx
    · exact h.inside x hx
    · rw [List.mem_singleton.mp hx, hindex, hcount]
      exact hfree.1
  · refine List.pairwise_append.mpr ⟨h.apart, List.pairwise_singleton _ _, fun x hx y hy => ?_⟩
    rw [List.mem_singleton.mp hy]
    refine h.apart_of_freeRange ?_ hx
    rw [hindex, hcount]
    exact hfree
  · intro i
    have hused := h.used i
    simp only [PgtAlloc.fill, List.mem_append, List.mem_singleton, or_and_right, exists_or,
      exists_eq_left, PgtEntry.Covers, hindex, hcount]
    by_cases hi : index ≤ i.val ∧ i.val < index + numPages
    · simp [hi]
    · simp only [hi, if_false, or_false]
      exact hused

/-- A live allocation is freed. -/
lemma free (h : AllocInv s) {mrKey : UInt32} {entry : PgtEntry} (hlive : (mrKey, entry) ∈ s.live) :
    AllocInv (s.step (.dealloc mrKey entry)) := by
  have hlen : pgtLen = 128 := rfl
  have hinside : entry.index.toNat + entry.count.toNat ≤ pgtLen := h.inside _ hlive
  have herase := List.perm_cons_erase hlive
  have hpgt : (s.step (.dealloc mrKey entry)).alloc.pgt
      = s.alloc.pgt.fill entry.index.toNat entry.count.toNat false := by
    simp only [AllocSession.step, Alloc.dealloc, PgtAlloc.dealloc]
    rw [if_pos ⟨by omega, hinside⟩]
  have hperm : ((s.step (.dealloc mrKey entry)).alloc.mr.freeList
      ++ (s.live.erase (mrKey, entry)).map mrKeyIdx).Perm
      (s.alloc.mr.freeList ++ s.live.map mrKeyIdx) := by
    show (s.alloc.mr.freeList ++ [mrKeyIdx (mrKey, entry)] ++ _).Perm _
    rw [List.append_assoc]
    refine List.Perm.append_left _ ?_
    exact (herase.map mrKeyIdx).symm
  have hpairs := (herase.pairwise_iff fun {x y} hxy => Std.Symm.symm _ _ hxy).mp h.apart
  obtain ⟨hhead, htail⟩ := List.pairwise_cons.mp hpairs
  refine ⟨hperm.nodup_iff.mpr h.keys, fun i hi => h.keys_lt i (hperm.mem_iff.mp hi),
    fun x hx => h.inside x (List.mem_of_mem_erase hx), htail, fun i => ?_⟩
  rw [hpgt]
  show (if entry.index.toNat ≤ i.val ∧ i.val < entry.index.toNat + entry.count.toNat then false
    else s.alloc.pgt.used i) = true ↔ ∃ x ∈ s.live.erase (mrKey, entry), x.2.Covers i
  split
  · next hi =>
      refine iff_of_false Bool.false_ne_true ?_
      rintro ⟨x, hx, hxi⟩
      exact hhead x hx i ⟨hi, hxi⟩
  · next hi =>
      rw [h.used i]
      constructor
      · rintro ⟨x, hx, hxi⟩
        have hne : x ≠ (mrKey, entry) := by
          rintro rfl
          exact hi hxi
        exact ⟨x, (List.mem_erase_of_ne hne).mpr hx, hxi⟩
      · rintro ⟨x, hx, hxi⟩
        exact ⟨x, List.mem_of_mem_erase hx, hxi⟩

/-- **Every call keeps the allocations sound.** -/
theorem step (h : AllocInv s) {c : AllocCall} (hlive : s.FreesLive c) : AllocInv (s.step c) := by
  cases c with
  | dealloc mrKey entry => exact h.free hlive
  | alloc numPages rand =>
    simp only [AllocSession.step]
    rcases s.alloc.alloc_cases numPages rand with
      ⟨-, heq⟩ | ⟨idx, mr, hmr, ⟨-, heq⟩ | ⟨index, pgt, hpgt, heq⟩⟩
    · simpa [heq] using h
    · -- the key is lost
      rw [heq]
      have hsub : (mr.freeList ++ s.live.map mrKeyIdx).Sublist
          (s.alloc.mr.freeList ++ s.live.map mrKeyIdx) := by
        rw [hmr]
        exact (List.sublist_append_left _ _).append_right _
      refine ⟨?_, ?_, ?_, ?_, ?_⟩ <;> simp only [Option.toList_none, List.append_nil]
      · exact h.keys.sublist hsub
      · exact fun i hi => h.keys_lt i (hsub.subset hi)
      · exact h.inside
      · exact h.apart
      · exact h.used
    · rw [heq]
      exact h.succeed hmr hpgt

lemma run (h : AllocInv s) {calls : List AllocCall} (hlive : s.AlwaysFreesLive calls) :
    AllocInv (s.run calls) := by
  induction calls generalizing s with
  | nil => exact h
  | cons c rest ih => exact ih (h.step hlive.1) hlive.2

end AllocInv

/-- **Keys and page table entries are allocated soundly.**  After any calls that free only live
allocations: the live ones have different key indices below `maxMrCnt` and disjoint ranges inside
the page table, and the used entries are exactly theirs.  On any bitmap, the search for a positive
length finds the least start of a free range of that length, and fails exactly if there is none. -/
theorem allocations_sound (calls : List AllocCall)
    (hlive : AllocSession.new.AlwaysFreesLive calls) :
    let s := AllocSession.new.run calls
    ((s.live.map mrKeyIdx).Nodup ∧ ∀ x ∈ s.live, (mrKeyIdx x).toNat < maxMrCnt) ∧
    ((s.live.Pairwise fun x y => x.2.Apart y.2) ∧
      ∀ x ∈ s.live, x.2.index.toNat + x.2.count.toNat ≤ pgtLen) ∧
    (∀ i : Fin pgtLen, s.alloc.pgt.used i = true ↔ ∃ x ∈ s.live, x.2.Covers i) ∧
    ∀ (a : PgtAlloc) (len : ℕ), 1 ≤ len →
      (∀ start a', a.alloc len = some (start, a') → a.FreeRange start len ∧
        (∀ start', a.FreeRange start' len → start ≤ start') ∧ a' = a.fill start len true) ∧
      (a.alloc len = none ↔ ∀ start, ¬ a.FreeRange start len) := by
  have h := AllocInv.new.run hlive
  refine ⟨⟨(List.nodup_append.mp h.keys).2.1, fun x hx => ?_⟩, ⟨h.apart, h.inside⟩, h.used, ?_⟩
  · exact h.keys_lt _ (List.mem_append_right _ (List.mem_map_of_mem hx))
  · intro a len hlen
    refine ⟨fun start a' halloc => ?_, PgtAlloc.alloc_eq_none_iff hlen⟩
    exact (PgtAlloc.alloc_eq_some halloc).2

/-- Two regions, of which the first is freed and its entries are used again. -/
theorem allocations_sound_reused :
    let s := AllocSession.new.run [.alloc 3 7, .alloc 2 9, .dealloc 0x3F07 ⟨0, 3⟩, .alloc 2 5]
    s.live = [(0x3E09, ⟨3, 2⟩), (0x3F05, ⟨0, 2⟩)] ∧ (s.live.map mrKeyIdx).Nodup ∧
      s.live.Pairwise fun x y => x.2.Apart y.2 := by
  have h := allocations_sound [.alloc 3 7, .alloc 2 9, .dealloc 0x3F07 ⟨0, 3⟩, .alloc 2 5]
    (by decide +kernel)
  exact ⟨by decide +kernel, h.1.1, h.2.1.1⟩

end OpenRdma
