import OpenRdma.Core.Rules
import OpenRdma.Mem.Pages

/-!
# The map between physical and virtual addresses

In simulation the card asks for memory by physical address, and the driver has to find the virtual
one.  `PaVaMap` keeps the ranges by their physical start, and for every virtual start the physical
one.  Ranges come with `insert`, which refuses an overlap, and go with `remove` or `remove_by_va`.

The specification is the list of the ranges that are live: `live` replays the calls on it.

* **`paVaMap_exact`** — the map after any proper calls.
-/

namespace OpenRdma

open Std (TreeMap)

/-- Where a call gives up. -/
inductive MapPanic where
  | overflow
  | overlap (newStart newEnd oldStart oldEnd : ℕ)
  | noMappingAtPa (pa : ℕ)
  | noMappingAtVa (va : ℕ)
  | inconsistent (va pa : ℕ)
deriving DecidableEq, Repr

/-- A mapped range. -/
structure AddressRange where
  paStart : ℕ
  /-- Exclusive. -/
  paEnd : ℕ
  vaStart : ℕ
deriving DecidableEq, Repr

namespace AddressRange

def contains (r : AddressRange) (pa : ℕ) : Bool := r.paStart ≤ pa && pa < r.paEnd

/-- The virtual address of a physical one, with the number of bytes from there to the end of the
range. -/
def paToVaWithLen (build : Build) (r : AddressRange) (pa : ℕ) : Except MapPanic (Option (ℕ × ℕ)) :=
  if r.contains pa then
    match build.add r.vaStart (pa - r.paStart) with
    | some va => .ok (some (va, r.paEnd - pa))
    | none => .error .overflow
  else .ok none

end AddressRange

/-- The ranges, by their physical starts. -/
structure PaVaMap where
  ranges : TreeMap ℕ AddressRange
  vaToPa : TreeMap ℕ ℕ

namespace PaVaMap

def new : PaVaMap := ⟨∅, ∅⟩

/-- The first range that a new one overlaps with. -/
def overlapping (m : PaVaMap) (range : AddressRange) : Option AddressRange :=
  m.ranges.toList.map (·.2) |>.find? fun existing =>
    range.paStart < existing.paEnd && range.paEnd > existing.paStart

def insert (build : Build) (m : PaVaMap) (pa va size : ℕ) : Except MapPanic PaVaMap :=
  match build.add pa size with
  | none => .error .overflow
  | some paEnd =>
    match m.overlapping ⟨pa, paEnd, va⟩ with
    | some existing => .error (.overlap pa paEnd existing.paStart existing.paEnd)
    | none => .ok ⟨m.ranges.insert pa ⟨pa, paEnd, va⟩, m.vaToPa.insert va pa⟩

/-- The first of some ranges that has the address. -/
def scan (build : Build) (pa : ℕ) : List AddressRange → Except MapPanic (Option (ℕ × ℕ))
  | [] => .ok none
  | r :: rs =>
    match r.paToVaWithLen build pa with
    | .ok none => scan build pa rs
    | found => found

/-- The ranges that start at or below the address, from the highest down. -/
def candidates (m : PaVaMap) (pa : ℕ) : List AddressRange :=
  (m.ranges.toList.filter (·.1 ≤ pa)).reverse.map (·.2)

def lookup (build : Build) (m : PaVaMap) (pa : ℕ) : Except MapPanic (Option (ℕ × ℕ)) :=
  scan build pa (m.candidates pa)

def lookupByVa (m : PaVaMap) (va : ℕ) : Option ℕ := m.vaToPa[va]?

def remove (m : PaVaMap) (pa : ℕ) : Except MapPanic PaVaMap :=
  match m.ranges[pa]? with
  | some range => .ok ⟨m.ranges.erase pa, m.vaToPa.erase range.vaStart⟩
  | none => .error (.noMappingAtPa pa)

def removeByVa (m : PaVaMap) (va : ℕ) : Except MapPanic PaVaMap :=
  match m.vaToPa[va]? with
  | some pa =>
    match m.ranges[pa]? with
    | some _ => .ok ⟨m.ranges.erase pa, m.vaToPa.erase va⟩
    | none => .error (.inconsistent va pa)
  | none => .error (.noMappingAtVa va)

end PaVaMap

/-- A call on the map. -/
inductive MapCall where
  | insert (pa va size : ℕ)
  | remove (pa : ℕ)
  | removeByVa (va : ℕ)
deriving DecidableEq, Repr

def PaVaMap.step (build : Build) (m : PaVaMap) : MapCall → Except MapPanic PaVaMap
  | .insert pa va size => m.insert build pa va size
  | .remove pa => m.remove pa
  | .removeByVa va => m.removeByVa va

def PaVaMap.run (build : Build) (calls : List MapCall) : Except MapPanic PaVaMap :=
  calls.foldlM (PaVaMap.step build) .new

/-! ## The ranges that are live -/

/-- A range that was inserted and not removed. -/
structure LiveRange where
  pa : ℕ
  va : ℕ
  size : ℕ
deriving DecidableEq, Repr

namespace LiveRange

def Contains (r : LiveRange) (pa : ℕ) : Prop := r.pa ≤ pa ∧ pa < r.pa + r.size

def Disjoint (a b : LiveRange) : Prop := a.pa + a.size ≤ b.pa ∨ b.pa + b.size ≤ a.pa

instance : Std.Symm Disjoint := ⟨fun _ _ => Or.symm⟩

def range (r : LiveRange) : AddressRange := ⟨r.pa, r.pa + r.size, r.va⟩

end LiveRange

/-- What a call does to the ranges that are live. -/
def MapCall.onLive (rs : List LiveRange) : MapCall → List LiveRange
  | .insert pa va size => rs ++ [⟨pa, va, size⟩]
  | .remove pa => rs.filter (·.pa ≠ pa)
  | .removeByVa va => rs.filter (·.va ≠ va)

/-- The ranges that are live after some calls. -/
def live (calls : List MapCall) : List LiveRange := calls.foldl MapCall.onLive []

lemma live_snoc (calls : List MapCall) (call : MapCall) :
    live (calls ++ [call]) = call.onLive (live calls) := by
  simp [live]

/-- A call that is asked for: a new range is not empty, has addresses, and starts at a virtual
address at which no range that is live starts. -/
def MapCall.Proper (rs : List LiveRange) : MapCall → Prop
  | .insert pa va size => 0 < size ∧ pa + size < 2 ^ 64 ∧ va + size < 2 ^ 64 ∧ ∀ r ∈ rs, r.va ≠ va
  | _ => True

/-- Both maps say what is live. -/
structure Represents (m : PaVaMap) (rs : List LiveRange) : Prop where
  ranges : ∀ pa range, m.ranges[pa]? = some range ↔ ∃ r ∈ rs, r.pa = pa ∧ r.range = range
  vaToPa : ∀ va pa, m.vaToPa[va]? = some pa ↔ ∃ r ∈ rs, r.va = va ∧ r.pa = pa
  positive : ∀ r ∈ rs, 0 < r.size
  bounded : ∀ r ∈ rs, r.va + r.size < 2 ^ 64
  disjoint : rs.Pairwise LiveRange.Disjoint
  distinct : rs.Pairwise fun a b => a.va ≠ b.va

namespace Represents

variable {build : Build} {m m' : PaVaMap} {rs : List LiveRange}

lemma new : Represents .new [] where
  ranges := by simp [PaVaMap.new]
  vaToPa := by simp [PaVaMap.new]
  positive := by simp
  bounded := by simp
  disjoint := .nil
  distinct := .nil

variable (hr : Represents m rs)

include hr

/-- Two live ranges that share an address are the same. -/
lemma eq_of_contains {a b : LiveRange} (ha : a ∈ rs) (hb : b ∈ rs) {pa : ℕ}
    (hca : a.Contains pa) (hcb : b.Contains pa) : a = b := by
  by_contra hne
  have hdisjoint := hr.disjoint.forall ha hb hne
  simp only [LiveRange.Disjoint, LiveRange.Contains] at *
  omega

lemma contains_start {a : LiveRange} (ha : a ∈ rs) : a.Contains a.pa :=
  ⟨le_rfl, Nat.lt_add_of_pos_right (hr.positive a ha)⟩

/-- Two live ranges with the same physical start are the same. -/
lemma eq_of_pa {a b : LiveRange} (ha : a ∈ rs) (hb : b ∈ rs) (h : a.pa = b.pa) : a = b :=
  hr.eq_of_contains ha hb (hr.contains_start ha) (h ▸ hr.contains_start hb)

/-- Two live ranges with the same virtual start are the same. -/
lemma eq_of_va {a b : LiveRange} (ha : a ∈ rs) (hb : b ∈ rs) (h : a.va = b.va) : a = b := by
  by_contra hne
  have hsymm : Std.Symm fun a b : LiveRange => a.va ≠ b.va := ⟨fun _ _ => Ne.symm⟩
  exact hr.distinct.forall ha hb hne h

/-! ### Calls -/

/-- A range that overlaps with none of the map is disjoint from those that are live. -/
lemma disjoint_of_overlapping {pa va size : ℕ} (h : m.overlapping ⟨pa, pa + size, va⟩ = none) :
    ∀ r ∈ rs, LiveRange.Disjoint r ⟨pa, va, size⟩ := by
  intro r hmem
  have hentry : (r.pa, r.range) ∈ m.ranges.toList :=
    TreeMap.mem_toList_iff_getElem?_eq_some.2 ((hr.ranges _ _).2 ⟨r, hmem, rfl, rfl⟩)
  have hnot := List.find?_eq_none.1 h r.range (List.mem_map.2 ⟨_, hentry, rfl⟩)
  rw [Bool.and_eq_true, decide_eq_true_eq, decide_eq_true_eq, not_and, not_lt] at hnot
  rcases Nat.lt_or_ge pa (r.pa + r.size) with hlt | hge
  · exact .inr (hnot hlt)
  · exact .inl hge

lemma insert {pa va size : ℕ} (hproper : (MapCall.insert pa va size).Proper rs)
    (hnone : m.overlapping ⟨pa, pa + size, va⟩ = none) :
    Represents ⟨m.ranges.insert pa ⟨pa, pa + size, va⟩, m.vaToPa.insert va pa⟩
      (rs ++ [⟨pa, va, size⟩]) := by
  obtain ⟨hsize, -, hva, hfresh⟩ := hproper
  have hdisjoint := hr.disjoint_of_overlapping hnone
  have hpa : ∀ r ∈ rs, r.pa ≠ pa := by
    intro r hmem heq
    have hpositive := hr.positive r hmem
    have := hdisjoint r hmem
    rw [LiveRange.Disjoint] at this
    dsimp only at this
    omega
  refine ⟨?_, ?_, ?_, ?_, ?_, ?_⟩
  · intro p range
    rw [TreeMap.getElem?_insert]
    split
    · rename_i heq
      obtain rfl := Std.LawfulEqCmp.eq_of_compare heq
      constructor
      · intro h
        exact ⟨⟨pa, va, size⟩, by simp, rfl, Option.some.inj h⟩
      · rintro ⟨r, hmem, hpa', hrange⟩
        rcases List.mem_append.1 hmem with hmem | hmem
        · exact absurd hpa' (hpa r hmem)
        · obtain rfl := List.mem_singleton.1 hmem
          rw [← hrange]
          rfl
    · rename_i hne
      rw [hr.ranges]
      constructor
      · rintro ⟨r, hmem, h⟩
        exact ⟨r, List.mem_append_left _ hmem, h⟩
      · rintro ⟨r, hmem, hpa', hrange⟩
        rcases List.mem_append.1 hmem with hmem | hmem
        · exact ⟨r, hmem, hpa', hrange⟩
        · obtain rfl := List.mem_singleton.1 hmem
          exact absurd (Std.ReflCmp.cmp_eq_of_eq hpa') hne
  · intro v p
    rw [TreeMap.getElem?_insert]
    split
    · rename_i heq
      obtain rfl := Std.LawfulEqCmp.eq_of_compare heq
      constructor
      · intro h
        exact ⟨⟨pa, va, size⟩, by simp, rfl, Option.some.inj h⟩
      · rintro ⟨r, hmem, hva', hpa'⟩
        rcases List.mem_append.1 hmem with hmem | hmem
        · exact absurd hva' (hfresh r hmem)
        · obtain rfl := List.mem_singleton.1 hmem
          rw [← hpa']
    · rename_i hne
      rw [hr.vaToPa]
      constructor
      · rintro ⟨r, hmem, h⟩
        exact ⟨r, List.mem_append_left _ hmem, h⟩
      · rintro ⟨r, hmem, hva', hpa'⟩
        rcases List.mem_append.1 hmem with hmem | hmem
        · exact ⟨r, hmem, hva', hpa'⟩
        · obtain rfl := List.mem_singleton.1 hmem
          exact absurd (Std.ReflCmp.cmp_eq_of_eq hva') hne
  · intro r hmem
    rcases List.mem_append.1 hmem with hmem | hmem
    · exact hr.positive r hmem
    · obtain rfl := List.mem_singleton.1 hmem
      exact hsize
  · intro r hmem
    rcases List.mem_append.1 hmem with hmem | hmem
    · exact hr.bounded r hmem
    · obtain rfl := List.mem_singleton.1 hmem
      exact hva
  · rw [List.pairwise_append]
    refine ⟨hr.disjoint, List.pairwise_singleton _ _, ?_⟩
    intro a ha b hb
    obtain rfl := List.mem_singleton.1 hb
    exact hdisjoint a ha
  · rw [List.pairwise_append]
    refine ⟨hr.distinct, List.pairwise_singleton _ _, ?_⟩
    intro a ha b hb
    obtain rfl := List.mem_singleton.1 hb
    exact hfresh a ha

/-- Taking a live range out of both maps. -/
lemma erase {r : LiveRange} (hmem : r ∈ rs) (p : LiveRange → Bool)
    (hp : ∀ a ∈ rs, p a = true ↔ a ≠ r) :
    Represents ⟨m.ranges.erase r.pa, m.vaToPa.erase r.va⟩ (rs.filter p) := by
  refine ⟨?_, ?_, ?_, ?_, hr.disjoint.filter _, hr.distinct.filter _⟩
  · intro pa range
    rw [TreeMap.getElem?_erase]
    split
    · rename_i heq
      obtain rfl := Std.LawfulEqCmp.eq_of_compare heq
      simp only [reduceCtorEq, false_iff, not_exists, not_and]
      intro a ha hpa
      obtain ⟨ha, hpass⟩ := List.mem_filter.1 ha
      exact absurd (hr.eq_of_pa ha hmem hpa) ((hp a ha).1 hpass)
    · rename_i hne
      rw [hr.ranges]
      constructor
      · rintro ⟨a, ha, hpa, hrange⟩
        refine ⟨a, List.mem_filter.2 ⟨ha, (hp a ha).2 ?_⟩, hpa, hrange⟩
        rintro rfl
        exact hne (Std.ReflCmp.cmp_eq_of_eq hpa)
      · rintro ⟨a, ha, h⟩
        exact ⟨a, (List.mem_filter.1 ha).1, h⟩
  · intro va pa
    rw [TreeMap.getElem?_erase]
    split
    · rename_i heq
      obtain rfl := Std.LawfulEqCmp.eq_of_compare heq
      simp only [reduceCtorEq, false_iff, not_exists, not_and]
      intro a ha hva
      obtain ⟨ha, hpass⟩ := List.mem_filter.1 ha
      exact absurd (hr.eq_of_va ha hmem hva) ((hp a ha).1 hpass)
    · rename_i hne
      rw [hr.vaToPa]
      constructor
      · rintro ⟨a, ha, hva, hpa⟩
        refine ⟨a, List.mem_filter.2 ⟨ha, (hp a ha).2 ?_⟩, hva, hpa⟩
        rintro rfl
        exact hne (Std.ReflCmp.cmp_eq_of_eq hva)
      · rintro ⟨a, ha, h⟩
        exact ⟨a, (List.mem_filter.1 ha).1, h⟩
  · exact fun a ha => hr.positive a (List.mem_filter.1 ha).1
  · exact fun a ha => hr.bounded a (List.mem_filter.1 ha).1

end Represents

/-- The panics that a caller causes. -/
def MapPanic.Refusal : MapPanic → Prop
  | .overlap _ _ _ _ | .noMappingAtPa _ | .noMappingAtVa _ => True
  | .overflow | .inconsistent _ _ => False

/-- **A proper call keeps the maps in step with what is live**, or is refused. -/
theorem Represents.step {m : PaVaMap} {rs : List LiveRange} (hr : Represents m rs) (build : Build)
    {call : MapCall} (hproper : call.Proper rs) :
    (∃ m', m.step build call = .ok m' ∧ Represents m' (call.onLive rs)) ∨
      ∃ e, m.step build call = .error e ∧ e.Refusal := by
  cases call with
  | insert pa va size =>
    have hadd := build.add_of_lt hproper.2.1
    cases hoverlap : m.overlapping ⟨pa, pa + size, va⟩ with
    | some existing =>
      exact .inr ⟨.overlap pa (pa + size) existing.paStart existing.paEnd,
        by simp only [PaVaMap.step, PaVaMap.insert, hadd, hoverlap], trivial⟩
    | none =>
      exact .inl ⟨_, by simp only [PaVaMap.step, PaVaMap.insert, hadd, hoverlap],
        hr.insert hproper hoverlap⟩
  | remove pa =>
    cases hrange : m.ranges[pa]? with
    | none =>
      exact .inr ⟨.noMappingAtPa pa, by simp only [PaVaMap.step, PaVaMap.remove, hrange], trivial⟩
    | some range =>
      obtain ⟨r, hmem, rfl, rfl⟩ := (hr.ranges pa range).1 hrange
      refine .inl ⟨_, by simp only [PaVaMap.step, PaVaMap.remove, hrange, LiveRange.range],
        hr.erase hmem _ ?_⟩
      intro a ha
      rw [decide_eq_true_eq]
      exact not_congr ⟨hr.eq_of_pa ha hmem, fun h => h ▸ rfl⟩
  | removeByVa va =>
    cases hpa : m.vaToPa[va]? with
    | none =>
      exact .inr ⟨.noMappingAtVa va, by simp only [PaVaMap.step, PaVaMap.removeByVa, hpa], trivial⟩
    | some pa =>
      obtain ⟨r, hmem, rfl, rfl⟩ := (hr.vaToPa va pa).1 hpa
      have hrange : m.ranges[r.pa]? = some r.range := (hr.ranges _ _).2 ⟨r, hmem, rfl, rfl⟩
      refine .inl ⟨_, by simp only [PaVaMap.step, PaVaMap.removeByVa, hpa, hrange],
        hr.erase hmem _ ?_⟩
      intro a ha
      rw [decide_eq_true_eq]
      exact not_congr ⟨hr.eq_of_va ha hmem, fun h => h ▸ rfl⟩

/-! ## Lookups -/

namespace Represents

variable {build : Build} {m : PaVaMap} {rs : List LiveRange} {pa : ℕ}

lemma mem_candidates (hr : Represents m rs) {range : AddressRange} :
    range ∈ m.candidates pa ↔ ∃ r ∈ rs, r.pa ≤ pa ∧ r.range = range := by
  simp only [PaVaMap.candidates, List.mem_map, List.mem_reverse, List.mem_filter, decide_eq_true_eq,
    Prod.exists, exists_eq_right]
  constructor
  · rintro ⟨p, hmem, hle⟩
    obtain ⟨r, hr', rfl, hrange⟩ :=
      (hr.ranges p range).1 (TreeMap.mem_toList_iff_getElem?_eq_some.1 hmem)
    exact ⟨r, hr', hle, hrange⟩
  · rintro ⟨r, hmem, hle, hrange⟩
    exact ⟨r.pa,
      TreeMap.mem_toList_iff_getElem?_eq_some.2 ((hr.ranges _ _).2 ⟨r, hmem, rfl, hrange⟩), hle⟩

lemma range_contains {r : LiveRange} : r.range.contains pa = true ↔ r.Contains pa := by
  rw [AddressRange.contains, Bool.and_eq_true, decide_eq_true_eq, decide_eq_true_eq]
  rfl

/-- What the range with the address answers. -/
lemma paToVaWithLen_of_contains (hr : Represents m rs) {r : LiveRange} (hmem : r ∈ rs)
    (hc : r.Contains pa) :
    r.range.paToVaWithLen build pa = .ok (some (r.va + (pa - r.pa), r.pa + r.size - pa)) := by
  have hlt : r.va + (pa - r.pa) < 2 ^ 64 := by
    have hbound := hr.bounded r hmem
    obtain ⟨hle, hlt⟩ := hc
    omega
  rw [AddressRange.paToVaWithLen, if_pos (range_contains.2 hc)]
  simp only [LiveRange.range, build.add_of_lt hlt]

/-- The scan passes the ranges without the address. -/
lemma scan_of_none {ranges : List AddressRange} (h : ∀ r ∈ ranges, r.contains pa = false) :
    PaVaMap.scan build pa ranges = .ok none := by
  induction ranges with
  | nil => rfl
  | cons r ranges ih =>
    have hr : r.paToVaWithLen build pa = .ok none := by
      rw [AddressRange.paToVaWithLen, h r List.mem_cons_self]
      rfl
    rw [PaVaMap.scan, hr]
    exact ih fun a ha => h a (List.mem_cons_of_mem r ha)

/-- The scan finds the range with the address, as it is the only one. -/
lemma scan_of_mem {ranges : List AddressRange} {range : AddressRange} {v : ℕ × ℕ}
    (hmem : range ∈ ranges) (hv : range.paToVaWithLen build pa = .ok (some v))
    (hother : ∀ r ∈ ranges, r.contains pa = true → r = range) :
    PaVaMap.scan build pa ranges = .ok (some v) := by
  induction ranges with
  | nil => cases hmem
  | cons r ranges ih =>
    cases hc : r.contains pa with
    | true =>
      obtain rfl := hother r List.mem_cons_self hc
      rw [PaVaMap.scan, hv]
    | false =>
      have hr : r.paToVaWithLen build pa = .ok none := by
        rw [AddressRange.paToVaWithLen, hc]
        rfl
      have hne : range ≠ r := by
        rintro rfl
        rw [hr] at hv
        cases hv
      rw [PaVaMap.scan, hr]
      exact ih ((List.mem_cons.1 hmem).resolve_left hne)
        fun a ha => hother a (List.mem_cons_of_mem r ha)

lemma lookup_of_contains (hr : Represents m rs) {r : LiveRange} (hmem : r ∈ rs)
    (hc : r.Contains pa) :
    m.lookup build pa = .ok (some (r.va + (pa - r.pa), r.pa + r.size - pa)) := by
  refine scan_of_mem (hr.mem_candidates.2 ⟨r, hmem, hc.1, rfl⟩)
    (hr.paToVaWithLen_of_contains hmem hc) ?_
  intro range hrange hcontains
  obtain ⟨a, ha, -, rfl⟩ := hr.mem_candidates.1 hrange
  rw [hr.eq_of_contains ha hmem (range_contains.1 hcontains) hc]

lemma lookup_of_none (hr : Represents m rs) (h : ∀ r ∈ rs, ¬ r.Contains pa) :
    m.lookup build pa = .ok none := by
  refine scan_of_none ?_
  intro range hrange
  obtain ⟨a, ha, -, rfl⟩ := hr.mem_candidates.1 hrange
  rw [← Bool.not_eq_true, range_contains]
  exact h a ha

end Represents

/-! ## Runs -/

/-- **The map is exact.**  After any proper calls the map is there and says what is live, or a call
was refused; nothing overflows, and the maps never contradict each other. -/
theorem paVaMap_exact (build : Build) {calls : List MapCall}
    (hproper : EachAfter (fun before call => MapCall.Proper (live before) call) calls) :
    (∃ m, PaVaMap.run build calls = .ok m ∧
      (live calls).Pairwise LiveRange.Disjoint ∧
      (∀ pa, ∀ r ∈ live calls, r.Contains pa →
        m.lookup build pa = .ok (some (r.va + (pa - r.pa), r.pa + r.size - pa)) ∧
        ∀ r' ∈ live calls, r'.Contains pa → r' = r) ∧
      (∀ pa, (∀ r ∈ live calls, ¬ r.Contains pa) → m.lookup build pa = .ok none) ∧
      ∀ va pa, m.lookupByVa va = some pa ↔ ∃ r ∈ live calls, r.va = va ∧ r.pa = pa) ∨
    ∃ e, PaVaMap.run build calls = .error e ∧ e.Refusal := by
  have hrun : (∃ m, PaVaMap.run build calls = .ok m ∧ Represents m (live calls)) ∨
      ∃ e, PaVaMap.run build calls = .error e ∧ e.Refusal := by
    induction calls using List.reverseRecOn with
    | nil => exact .inl ⟨.new, rfl, .new⟩
    | append_singleton calls call ih =>
      obtain ⟨hbefore, hcall⟩ := eachAfter_concat.1 hproper
      rw [PaVaMap.run, List.foldlM_append]
      rcases ih hbefore with ⟨m, hm, hr⟩ | ⟨e, he, hrefusal⟩
      · rw [PaVaMap.run] at hm
        rw [hm, live_snoc]
        show (∃ m', (List.foldlM (PaVaMap.step build) m [call]) = .ok m' ∧ _) ∨
          ∃ e, (List.foldlM (PaVaMap.step build) m [call]) = .error e ∧ _
        rw [List.foldlM_cons]
        rcases hr.step build hcall with ⟨m', hm', hr'⟩ | ⟨e, he, hrefusal⟩
        · rw [hm']
          exact .inl ⟨m', rfl, hr'⟩
        · rw [he]
          exact .inr ⟨e, rfl, hrefusal⟩
      · rw [PaVaMap.run] at he
        rw [he]
        exact .inr ⟨e, rfl, hrefusal⟩
  refine hrun.imp ?_ id
  rintro ⟨m, hm, hr⟩
  refine ⟨m, hm, hr.disjoint, ?_, fun pa hnone => hr.lookup_of_none hnone, hr.vaToPa⟩
  intro pa r hmem hc
  exact ⟨hr.lookup_of_contains hmem hc, fun r' hmem' hc' => hr.eq_of_contains hmem' hmem hc' hc⟩

/-- Two pages are mapped, and the first one is unmapped by its virtual address. -/
def mapAndUnmap : List MapCall :=
  [.insert 0x1000 0x7000 0x1000, .insert 0x3000 0x9000 0x1000] ++ [.removeByVa 0x7000]

lemma mapAndUnmap_proper :
    EachAfter (fun before call => MapCall.Proper (live before) call) mapAndUnmap := by
  refine eachAfter_concat.2 ⟨?_, trivial⟩
  refine (eachAfter_concat (l := [MapCall.insert 0x1000 0x7000 0x1000])).2 ⟨?_, ?_⟩
  · exact (eachAfter_concat (l := [])).2 ⟨eachAfter_nil, by decide, by decide, by decide, nofun⟩
  · refine ⟨by decide, by decide, by decide, ?_⟩
    intro r hmem
    obtain rfl := List.mem_singleton.1 hmem
    decide

theorem paVaMap_exact_unmapped :
    ∃ m, PaVaMap.run ⟨true, true⟩ mapAndUnmap = .ok m ∧
      m.lookup ⟨true, true⟩ 0x3010 = .ok (some (0x9010, 0xFF0)) ∧
      m.lookup ⟨true, true⟩ 0x1010 = .ok none := by
  have hlive : live mapAndUnmap = [⟨0x3000, 0x9000, 0x1000⟩] := rfl
  rcases paVaMap_exact ⟨true, true⟩ mapAndUnmap_proper with ⟨m, hm, -, hfound, hnone, -⟩ |
    ⟨e, he, -⟩
  · rw [hlive] at hfound hnone
    refine ⟨m, hm, (hfound 0x3010 _ (List.mem_singleton_self _) ⟨by decide, by decide⟩).1,
      hnone 0x1010 ?_⟩
    intro r hmem hc
    obtain rfl := List.mem_singleton.1 hmem
    exact absurd hc.1 (by decide)
  · have hok : (PaVaMap.run ⟨true, true⟩ mapAndUnmap).toBool = true := by decide +kernel
    rw [he] at hok
    cases hok

end OpenRdma
