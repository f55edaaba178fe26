import OpenRdma.RdmaUtils.MrRegionManager
import OpenRdma.RdmaUtils.Types

/-!
# The memory translation table

`Mtt` allocates a key and a range of page table entries for a memory region and has its pages
pinned.

* `MrTableAlloc`, `PgtAlloc`, `Alloc` — the free keys and the free page table entries;
  `PgtAlloc.alloc` is the first-fit scan of the source, and **`PgtAlloc.scan_spec`** says what it
  finds.
-/

namespace OpenRdma

open Checked

def maxMrCnt : ℕ := 64
def lrKeyKeyPartWidth : UInt32 := 8
def pgtLen : ℕ := 2 ^ 7

/-- A run of page table entries. -/
structure PgtEntry where
  index : UInt32
  count : UInt32
deriving DecidableEq, Repr

/-! ## Free keys -/

/-- The free key indices; the last one is the next to be taken. -/
structure MrTableAlloc where
  freeList : List UInt32
deriving DecidableEq, Repr

namespace MrTableAlloc

def new : MrTableAlloc := ⟨(List.range maxMrCnt).map UInt32.ofNat⟩

def allocMrKeyIdx (a : MrTableAlloc) : Option (UInt32 × MrTableAlloc) :=
  a.freeList.getLast?.map fun idx => (idx, ⟨a.freeList.dropLast⟩)

def deallocMrKey (a : MrTableAlloc) (idx : UInt32) : MrTableAlloc := ⟨a.freeList ++ [idx]⟩

end MrTableAlloc

/-- The index part of a key. -/
lemma mrKey_index {idx : UInt32} (h : idx.toNat < maxMrCnt) (rand : UInt8) :
    ((idx <<< lrKeyKeyPartWidth) ||| rand.toUInt32) >>> lrKeyKeyPartWidth = idx := by
  have hmod : (8 : ℕ) % 32 = 8 := rfl
  have hrand := rand.toNat_lt
  have hidx : idx.toNat < 64 := h
  rw [← UInt32.toNat_inj, UInt32.toNat_shiftRight, UInt32.toNat_or, UInt32.toNat_shiftLeft,
    show lrKeyKeyPartWidth.toNat = 8 from rfl, hmod, UInt8.toNat_toUInt32,
      Nat.shiftRight_or_distrib,
    Nat.shiftLeft_eq, Nat.mod_eq_of_lt (by omega), Nat.shiftRight_eq_div_pow,
    Nat.mul_div_cancel _ (by decide), Nat.shiftRight_eq_div_pow, Nat.div_eq_of_lt hrand,
    Nat.or_zero]

lemma toNat_ofNat_of_lt {i : ℕ} (h : i < maxMrCnt) : (UInt32.ofNat i).toNat = i := by
  have hmax : maxMrCnt = 64 := rfl
  rw [UInt32.toNat_ofNat', Nat.mod_eq_of_lt (by omega)]

lemma new_freeList_lt : ∀ idx ∈ MrTableAlloc.new.freeList, idx.toNat < maxMrCnt := by
  intro idx hidx
  obtain ⟨i, hi, rfl⟩ := List.mem_map.mp hidx
  rw [toNat_ofNat_of_lt (List.mem_range.mp hi)]
  exact List.mem_range.mp hi

lemma new_freeList_nodup : MrTableAlloc.new.freeList.Nodup := by
  refine List.Nodup.map_on (fun i hi j hj heq => ?_) List.nodup_range
  have hnat := congrArg UInt32.toNat heq
  rwa [toNat_ofNat_of_lt (List.mem_range.mp hi), toNat_ofNat_of_lt (List.mem_range.mp hj)] at hnat

/-! ## Free page table entries -/

/-- Which entries are used. -/
structure PgtAlloc where
  used : Fin pgtLen → Bool

namespace PgtAlloc

def new : PgtAlloc := ⟨fun _ => false⟩

def fill (a : PgtAlloc) (index len : ℕ) (b : Bool) : PgtAlloc :=
  ⟨fun i => if index ≤ i.val ∧ i.val < index + len then b else a.used i⟩

/-- The loop over the entries: `count` free ones in a row have been seen, from `start` on. -/
def scan (a : PgtAlloc) (len : ℕ) : List (Fin pgtLen) → ℕ → ℕ → Option ℕ
  | [], _, _ => none
  | i :: is, count, start =>
    if a.used i then a.scan len is 0 start
    else
      let start := if count = 0 then i.val else start
      let count := count + 1
      if count = len then some start else a.scan len is count start

def alloc (a : PgtAlloc) (len : ℕ) : Option (ℕ × PgtAlloc) :=
  (a.scan len (List.finRange pgtLen) 0 0).map fun start => (start, a.fill start len true)

def dealloc (a : PgtAlloc) (index len : ℕ) : Bool × PgtAlloc :=
  if index + len < 2 ^ 64 ∧ index + len ≤ pgtLen then (true, a.fill index len false) else (false, a)

/-- The entries from `index` on, `len` of them, are in the table and free. -/
def FreeRange (a : PgtAlloc) (index len : ℕ) : Prop :=
  index + len ≤ pgtLen ∧ ∀ i : Fin pgtLen, index ≤ i.val → i.val < index + len → a.used i = false

/-- The first entry of what the loop has left. -/
lemma of_cons_eq_drop {i : Fin pgtLen} {is : List (Fin pgtLen)} {k : ℕ}
    (h : i :: is = (List.finRange pgtLen).drop k) :
    i.val = k ∧ k < pgtLen ∧ is = (List.finRange pgtLen).drop (k + 1) := by
  have hlen := congrArg List.length h
  rw [List.length_cons, List.length_drop, List.length_finRange] at hlen
  have hget : (List.finRange pgtLen)[k]? = some i := by
    rw [← Nat.add_zero k, ← List.getElem?_drop, ← h, List.getElem?_cons_zero]
  refine ⟨?_, by omega, by rw [← List.drop_drop, ← h, List.drop_one, List.tail_cons]⟩
  rw [List.getElem?_eq_getElem (by rw [List.length_finRange]; omega), List.getElem_finRange] at hget
  rw [← Option.some_inj.mp hget]
  rfl

/-- The state of the loop before entry `k`: the last `count` entries are free, the row starts at
`start`, and no free range of the length starts before it. -/
structure Scanned (a : PgtAlloc) (len k count start : ℕ) : Prop where
  count_le : count ≤ k
  count_lt : count < len
  start_eq : 0 < count → start + count = k
  free : ∀ i : Fin pgtLen, k - count ≤ i.val → i.val < k → a.used i = false
  least : ∀ s, a.FreeRange s len → k - count ≤ s

namespace Scanned

variable {a : PgtAlloc} {len k count start : ℕ}

/-- A used entry: the row starts again behind it. -/
lemma used (h : Scanned a len k count start) (hk : k < pgtLen) (hused : a.used ⟨k, hk⟩ = true) :
    Scanned a len (k + 1) 0 start := by
  have hlt := h.count_lt
  refine ⟨Nat.zero_le _, by omega, fun h => absurd h (lt_irrefl 0), fun i _ _ => by omega, ?_⟩
  intro s hs
  have hle := h.least s hs
  -- a range that starts in the row would reach over the used entry
  by_contra hlt
  have := hs.2 ⟨k, hk⟩ (by simp only; omega) (by simp only; omega)
  rw [hused] at this
  cases this

/-- A free one makes the row longer. -/
lemma longer (h : Scanned a len k count start) (hk : k < pgtLen) (hfree : a.used ⟨k, hk⟩ = false) :
    (if count = 0 then k else start) + (count + 1) = k + 1 ∧
    ∀ i : Fin pgtLen, k + 1 - (count + 1) ≤ i.val → i.val < k + 1 → a.used i = false := by
  refine ⟨?_, fun j hj hjk => ?_⟩
  · split
    · omega
    · have := h.start_eq (by omega)
      omega
  · rcases Nat.lt_succ_iff_lt_or_eq.mp hjk with hlt | heq
    · exact h.free j (by omega) hlt
    · rw [show j = ⟨k, hk⟩ from Fin.ext heq]
      exact hfree

end Scanned

/-- **What the loop finds**: the first free range of the length, if there is one. -/
theorem scan_spec (a : PgtAlloc) {len : ℕ} (is : List (Fin pgtLen)) {k count start : ℕ}
    (his : is = (List.finRange pgtLen).drop k) (hk : k ≤ pgtLen) (h : Scanned a len k count start) :
    match a.scan len is count start with
    | some s => a.FreeRange s len ∧ ∀ s', a.FreeRange s' len → s ≤ s'
    | none => ∀ s, ¬ a.FreeRange s len := by
  induction is generalizing k count start with
  | nil =>
    have hlen := congrArg List.length his
    rw [List.length_nil, List.length_drop, List.length_finRange] at hlen
    intro s hs
    have := h.least s hs
    have := h.count_lt
    have := hs.1
    omega
  | cons i is ih =>
    obtain ⟨hi, hlt, hrest⟩ := of_cons_eq_drop his
    obtain rfl : i = ⟨k, hlt⟩ := Fin.ext hi
    rw [scan]
    cases hused : a.used ⟨k, hlt⟩ with
    | true => exact ih hrest hlt (h.used hlt hused)
    | false =>
      obtain ⟨hstart, hfree⟩ := h.longer hlt hused
      have hcount := h.count_le
      have hleast := h.least
      simp only [Bool.false_eq_true, if_false]
      by_cases hlen : count + 1 = len
      · rw [if_pos hlen]
        refine ⟨⟨by omega, fun j hj hjk => hfree j (by omega) (by omega)⟩, fun s' hs' => ?_⟩
        have := hleast s' hs'
        omega
      · rw [if_neg hlen]
        have := h.count_lt
        exact ih hrest hlt ⟨by omega, by omega, fun _ => hstart, hfree, fun s hs => by
          have := hleast s hs
          omega⟩

/-- Nothing is found for a length of zero. -/
lemma scan_zero (a : PgtAlloc) (is : List (Fin pgtLen)) (count start : ℕ) :
    a.scan 0 is count start = none := by
  induction is generalizing count start with
  | nil => rfl
  | cons i is ih =>
    rw [scan]
    split
    · exact ih _ _
    · simp [ih]

lemma scanned_zero {a : PgtAlloc} {len : ℕ} (hlen : 0 < len) : Scanned a len 0 0 0 :=
  ⟨le_rfl, hlen, fun h => absurd h (lt_irrefl 0), fun _ _ h => absurd h (Nat.not_lt_zero _),
    fun _ _ => Nat.zero_le _⟩

/-- **Nothing is allocated exactly if there is no free range.** -/
theorem alloc_eq_none_iff {a : PgtAlloc} {len : ℕ} (hlen : 0 < len) :
    a.alloc len = none ↔ ∀ s, ¬ a.FreeRange s len := by
  have hspec := a.scan_spec (List.finRange pgtLen) rfl (Nat.zero_le _) (scanned_zero hlen)
  rw [alloc, Option.map_eq_none_iff]
  cases hs : a.scan len (List.finRange pgtLen) 0 0 with
  | none =>
    rw [hs] at hspec
    exact iff_of_true rfl hspec
  | some s =>
    rw [hs] at hspec
    exact iff_of_false (by simp) fun h => h s hspec.1

/-- **What is allocated is the first free range.** -/
lemma alloc_eq_some {a a' : PgtAlloc} {len s : ℕ} (h : a.alloc len = some (s, a')) :
    0 < len ∧ a.FreeRange s len ∧ (∀ s', a.FreeRange s' len → s ≤ s') ∧ a' = a.fill s len true := by
  obtain ⟨s', hs, heq⟩ := Option.map_eq_some_iff.mp h
  obtain ⟨rfl, rfl⟩ := Prod.mk.inj heq
  have hlen : 0 < len := by
    by_contra h0
    obtain rfl : len = 0 := by omega
    rw [a.scan_zero] at hs
    cases hs
  have hspec := a.scan_spec (List.finRange pgtLen) rfl (Nat.zero_le _) (scanned_zero hlen)
  rw [hs] at hspec
  exact ⟨hlen, hspec.1, hspec.2, rfl⟩

end PgtAlloc

/-! ## Both -/

/-- The two allocators. -/
structure Alloc where
  mr : MrTableAlloc
  pgt : PgtAlloc

namespace Alloc

def new : Alloc := ⟨.new, .new⟩

/-- `rand` is the random part of the key.  If the second allocation fails, the first one stands. -/
def alloc (a : Alloc) (numPages : ℕ) (rand : UInt8) : Option (UInt32 × PgtEntry) × Alloc :=
  match a.mr.allocMrKeyIdx with
  | none => (none, a)
  | some (idx, mr) =>
    let mrKey := (idx <<< lrKeyKeyPartWidth) ||| rand.toUInt32
    match a.pgt.alloc numPages with
    | none => (none, { a with mr })
    | some (index, pgt) =>
      (some (mrKey, { index := UInt32.ofNat index, count := UInt32.ofNat numPages }), { mr, pgt })

/-- **What an allocation can do**: find no key; take the last free key and find no entries; or take
both. -/
lemma alloc_cases (a : Alloc) (numPages : ℕ) (rand : UInt8) :
    (a.mr.freeList = [] ∧ a.alloc numPages rand = (none, a)) ∨
    ∃ idx mr, a.mr.freeList = mr.freeList ++ [idx] ∧
      (a.pgt.alloc numPages = none ∧ a.alloc numPages rand = (none, { a with mr }) ∨
      ∃ index pgt, a.pgt.alloc numPages = some (index, pgt) ∧
        a.alloc numPages rand = (some ((idx <<< lrKeyKeyPartWidth) ||| rand.toUInt32,
          { index := UInt32.ofNat index, count := UInt32.ofNat numPages }), { mr, pgt })) := by
  rw [alloc, MrTableAlloc.allocMrKeyIdx]
  cases hlast : a.mr.freeList.getLast? with
  | none => exact .inl ⟨List.getLast?_eq_none_iff.mp hlast, rfl⟩
  | some idx =>
    obtain ⟨front, hfront⟩ := List.getLast?_eq_some_iff.mp hlast
    refine .inr ⟨idx, ⟨front⟩, hfront, ?_⟩
    rw [hfront, List.dropLast_concat]
    cases hpgt : a.pgt.alloc numPages with
    | none =>
      simp only [Option.map_some]
      exact .inl ⟨trivial, trivial⟩
    | some r =>
      simp only [Option.map_some]
      exact .inr ⟨r.1, r.2, rfl, rfl⟩

/-- **An allocation takes the last free key**, whether it succeeds or not; without one it does
nothing. -/
lemma alloc_spec {a a' : Alloc} {numPages : ℕ} {rand : UInt8} {res : Option (UInt32 × PgtEntry)}
    (h : a.alloc numPages rand = (res, a')) :
    (a.mr.freeList = [] ∧ res = none ∧ a' = a) ∨
    ∃ idx, a.mr.freeList = a'.mr.freeList ++ [idx] ∧
      ∀ mrKey entry, res = some (mrKey, entry) →
        mrKey = (idx <<< lrKeyKeyPartWidth) ||| rand.toUInt32 ∧
        ∃ index pgt, a.pgt.alloc numPages = some (index, pgt) ∧
          entry = { index := UInt32.ofNat index, count := UInt32.ofNat numPages } := by
  rcases a.alloc_cases numPages rand with
    ⟨hfree, heq⟩ | ⟨idx, mr, hfree, ⟨-, heq⟩ | ⟨index, pgt, hpgt, heq⟩⟩
  all_goals
    rw [heq] at h
    obtain ⟨rfl, rfl⟩ := Prod.mk.inj h
  · exact .inl ⟨hfree, rfl, rfl⟩
  · exact .inr ⟨idx, hfree, nofun⟩
  · refine .inr ⟨idx, hfree, ?_⟩
    rintro _ _ ⟨⟩
    exact ⟨rfl, index, pgt, hpgt, rfl⟩

def dealloc (a : Alloc) (mrKey : UInt32) (index length : ℕ) : Bool × Alloc :=
  let mr := a.mr.deallocMrKey (mrKey >>> lrKeyKeyPartWidth)
  let (ok, pgt) := a.pgt.dealloc index length
  (ok, { mr, pgt })

end Alloc

/-! ## The table -/

/-- The table of memory translations. -/
structure Mtt where
  alloc : Alloc
  mrkeyMap : UInt32 → Option PgtEntry
  keyToVaRange : UInt32 → Option (UInt64 × UInt64)
  pins : PinState

/-- Where a call panics. -/
inductive MttPanic where
  | mrKeyExists
  | vaRangeExists
  | vaRangeMissing
  | region (p : RegionPanic)
deriving DecidableEq, Repr

def outOfMemory : RdmaError := .ioError "out of memory"

def regionOrPanic (x : Except RegionPanic PinState) : Except MttPanic PinState :=
  x.mapError MttPanic.region

namespace Mtt

def new : Mtt where
  alloc := .new
  mrkeyMap := fun _ => none
  keyToVaRange := fun _ => none
  pins := .new

variable (cfg : PageCfg) (build : Build) (umem : UmemHandler)

/-- The two assertions of `register`, with the insertions that they make. -/
def recordKey (mtt : Mtt) (mrKey : UInt32) (entry : PgtEntry) (vaStart length : UInt64) :
    Except MttPanic Mtt :=
  if build.debugAssertions then do
    require (mtt.mrkeyMap mrKey = none) .mrKeyExists
    require (mtt.keyToVaRange mrKey = none) .vaRangeExists
    return { mtt with
      mrkeyMap := Function.update mtt.mrkeyMap mrKey (some entry)
      keyToVaRange := Function.update mtt.keyToVaRange mrKey (some (vaStart, length)) }
  else return mtt

def register (mtt : Mtt) (numPages : ℕ) (vaStart length : UInt64) (rand : UInt8) :
    Except MttPanic (Except RdmaError (UInt32 × PgtEntry) × Mtt) :=
  match mtt.alloc.alloc numPages rand with
  | (none, alloc) => return (.error outOfMemory, { mtt with alloc })
  | (some (mrKey, entry), alloc) => do
    let mtt ← recordKey build { mtt with alloc } mrKey entry vaStart length
    let pins ← regionOrPanic (mtt.pins.insert cfg build umem vaStart.toNat length.toNat)
    return (.ok (mrKey, entry), { mtt with pins })

def deregister (mtt : Mtt) (mrKey : UInt32) : Except MttPanic (Except RdmaError Unit × Mtt) :=
  match mtt.mrkeyMap mrKey with
  | none => return (.error (.invalidInput "failed to remove mr key"), mtt)
  | some entry =>
    let mtt := { mtt with mrkeyMap := Function.update mtt.mrkeyMap mrKey none }
    match mtt.alloc.dealloc mrKey entry.index.toNat entry.count.toNat with
    | (false, alloc) =>
      return (.error (.invalidInput "failed to dealloc mr key"), { mtt with alloc })
    | (true, alloc) => do
      let mtt := { mtt with alloc }
      match mtt.keyToVaRange mrKey with
      | none => throw .vaRangeMissing
      | some (vaStart, length) =>
        let mtt := { mtt with keyToVaRange := Function.update mtt.keyToVaRange mrKey none }
        let pins ← regionOrPanic (mtt.pins.remove cfg build umem vaStart.toNat length.toNat)
        return (.ok (), { mtt with pins })

end Mtt

end OpenRdma
