import OpenRdma.RdmaUtils.Fragmenter

/-!
# The fragments of a range

A `Fragmenter` computes the number of its fragments in advance, and its iterator counts down from
that number; nothing in the loop looks at whether the end of the range has been reached.

* **`fragments_tile`** — for every alignment and segment size the fragments tile the range, and
  their positions are those of a first, some middle and a last one.
-/

namespace OpenRdma

lemma IntoIter.count_next {it it' : IntoIter} {f : Fragment} (h : it.next = some (f, it')) :
    it'.count < it.count := by
  simp only [IntoIter.next] at h
  split at h
  · exact absurd h (by simp)
  · simp only [Option.some.injEq, Prod.mk.injEq] at h
    obtain ⟨-, rfl⟩ := h
    show it.count - 1 < it.count
    omega

/-- Run the iterator to its end. -/
def IntoIter.collect (it : IntoIter) : List Fragment :=
  match h : it.next with
  | none => []
  | some (f, it') => f :: it'.collect
termination_by it.count
decreasing_by exact IntoIter.count_next h

def Fragmenter.fragments (f : Fragmenter) : List Fragment := f.intoIter.collect

lemma IntoIter.collect_none {it : IntoIter} (h : it.next = none) : it.collect = [] := by
  rw [IntoIter.collect]
  split
  · rfl
  · next h' => exact absurd (h.symm.trans h') (by simp)

lemma IntoIter.collect_some {it it' : IntoIter} {f : Fragment} (h : it.next = some (f, it')) :
    it.collect = f :: it'.collect := by
  rw [IntoIter.collect]
  split
  · next h' => exact absurd (h.symm.trans h') (by simp)
  · next h' =>
      obtain ⟨rfl, rfl⟩ := Prod.mk.inj (Option.some.inj (h.symm.trans h'))
      rfl

namespace Slice

variable {s : Slice}

/-- A range with room for another segment after it. -/
lemma valid_of_fits (hunit : ∃ j, s.P = 2 ^ j) (hq : 0 < s.q) (hle : s.start ≤ s.stop)
    (hfits : s.stop + s.q * s.P < 2 ^ 64) : s.Valid := by
  refine ⟨hunit, hq, hle, by omega, fun k hk => ?_⟩
  have hP : 0 < s.P := by
    obtain ⟨j, hj⟩ := hunit
    rw [hj]
    exact Nat.two_pow_pos j
  have hlow : s.origin ≤ s.start := Nat.div_mul_le_self _ _
  have hhigh : s.start < s.origin + s.P := Nat.lt_div_mul_add hP
  have hsize : s.P ≤ s.q * s.P := Nat.le_mul_of_pos_left s.P hq
  have hbelow : (s.segment k).1 ≤ (s.segment k).2 := block_le hlow (by omega) hle (by omega) hk
  have hstop : (s.segment k).2 ≤ s.stop := min_le_left _ _
  omega

/-- **The fragments, one by one.** -/
lemma collect_eq (hs : s.Valid) (n k : ℕ) (it : IntoIter) (h : s.At k it)
    (hk : s.count = k + (n + 1)) : it.collect = (List.range' k (n + 1)).map s.fragmentAt := by
  -- the induction is on how many fragments are left after the next one
  induction n generalizing k it with
  | zero =>
    obtain ⟨it', hnext, hcount, -⟩ := h.next hs (by omega)
    have hdone : it'.next = none := by
      rw [IntoIter.next, if_pos (by omega)]
    rw [IntoIter.collect_some hnext, IntoIter.collect_none hdone, h.fragment_eq hs (by omega)]
    rfl
  | succ n ih =>
    obtain ⟨it', hnext, -, hat⟩ := h.next hs (by omega)
    rw [IntoIter.collect_some hnext, h.fragment_eq hs (by omega),
      ih (k + 1) it' (hat (by omega)) (by omega)]
    rfl

lemma Valid.fragments_eq (hs : s.Valid) {f : Fragmenter} (hsize : f.segmentSize.toNat = s.q * s.P)
    (halign : f.align.toNat = s.P) (hbase : f.baseAddr.toNat = s.start)
    (hend : f.endAddr.toNat = s.stop) : f.fragments = (List.range s.count).map s.fragmentAt := by
  have hpos : 0 < s.count := blockCount_pos _ _ _
  have hall := collect_eq hs (s.count - 1) 0 f.intoIter (hs.intoIter_at hsize halign hbase hend)
    (by omega)
  rw [Nat.sub_add_cancel hpos, ← List.range_eq_range'] at hall
  exact hall

lemma Valid.fragmentAt_addr (hs : s.Valid) {k : ℕ} (hk : k < s.count) :
    (s.fragmentAt k).addr.toNat = (s.segment k).1 := by
  have h1 := hs.segment_bounds hk
  have h2 := hs.stop_lt
  show (UInt64.ofNat _).toNat = _
  rw [UInt64.toNat_ofNat', Nat.mod_eq_of_lt (by omega)]

lemma Valid.fragmentAt_len (hs : s.Valid) {k : ℕ} (hk : k < s.count) :
    (s.fragmentAt k).len.toNat = (s.segment k).2 - (s.segment k).1 := by
  have h1 := hs.segment_bounds hk
  have h2 := hs.stop_lt
  show (UInt64.ofNat _).toNat = _
  rw [UInt64.toNat_ofNat', Nat.mod_eq_of_lt (by omega)]

/-- No segment of a range that is not empty is empty. -/
lemma Valid.segment_lt (hs : s.Valid) (hlt : s.start < s.stop) {k : ℕ} (hk : k < s.count) :
    (s.segment k).1 < (s.segment k).2 := by
  obtain ⟨h1, h2⟩ := hs.origin_le
  have h3 := hs.le_size
  cases k with
  | zero =>
    simp only [segment, block, Nat.zero_mul, Nat.zero_add, Nat.one_mul]
    omega
  | succ k =>
    have h4 := (lt_blockCount hs.size_pos).mp hk
    have h5 : (k + 1 + 1) * (s.q * s.P) = (k + 1) * (s.q * s.P) + s.q * s.P := by ring
    rw [segment, block_succ hs.start_le]
    simp only [block]
    omega

/-- No segment is longer than `q` units. -/
lemma segment_len_le (s : Slice) (k : ℕ) : (s.segment k).2 - (s.segment k).1 ≤ s.q * s.P := by
  have h1 : (k + 1) * (s.q * s.P) = k * (s.q * s.P) + s.q * s.P := by ring
  simp only [segment, block]
  omega

/-- All boundaries inside the range are unit boundaries. -/
lemma Valid.dvd_segment (hs : s.Valid) (k : ℕ) : s.P ∣ (s.segment (k + 1)).1 := by
  rw [segment, block_succ hs.start_le, origin]
  exact ⟨s.start / s.P + (k + 1) * s.q, by ring⟩

end Slice

/-- Two fragments in a row: the second one starts where the first one ends, at a multiple of
`align`. -/
def Fragment.Joins (align : UInt64) (x y : Fragment) : Prop :=
  y.addr.toNat = x.addr.toNat + x.len.toNat ∧ align.toNat ∣ y.addr.toNat

/-- The addresses that a fragment covers. -/
def Fragment.addrs (x : Fragment) : List ℕ := List.range' x.addr.toNat x.len.toNat

namespace Slice

variable {s : Slice}

/-- The fragments cover the range, address by address. -/
lemma Valid.flatMap_addrs (hs : s.Valid) :
    ((List.range s.count).map s.fragmentAt).flatMap Fragment.addrs
      = List.range' s.start (s.stop - s.start) := by
  have heq : ∀ k ∈ List.range s.count, (s.fragmentAt k).addrs
      = List.range' (s.segment k).1 ((s.segment k).2 - (s.segment k).1) := fun k hk => by
    have hk := List.mem_range.mp hk
    rw [Fragment.addrs, hs.fragmentAt_addr hk, hs.fragmentAt_len hk]
  rw [List.flatMap_map, List.flatMap_congr heq]
  exact range'_blocks hs.origin_le.1 hs.start_le hs.le hs.size_pos

lemma Valid.isChain_joins (hs : s.Valid) {align : UInt64} (halign : align.toNat = s.P) :
    ((List.range s.count).map s.fragmentAt).IsChain (Fragment.Joins align) := by
  rw [List.isChain_iff_getElem]
  intro k hk
  rw [List.length_map, List.length_range] at hk
  have hbounds := hs.segment_bounds (show k < s.count by omega)
  simp only [List.getElem_map, List.getElem_range, Fragment.Joins]
  rw [hs.fragmentAt_addr hk, hs.fragmentAt_addr (by omega), hs.fragmentAt_len (by omega),
    hs.segment_succ hk, halign]
  refine ⟨by omega, ?_⟩
  rw [← hs.segment_succ hk]
  exact hs.dvd_segment k

/-- The positions of `n` fragments. -/
lemma map_posAt (n : ℕ) : (List.range (n + 2)).map (posAt (n + 2))
    = ChunkPos.first :: (List.replicate n ChunkPos.middle ++ [ChunkPos.last]) := by
  have hmid : ∀ k ∈ List.range n, (posAt (n + 2) ∘ Nat.succ) k = ChunkPos.middle := fun k hk => by
    have hk := List.mem_range.mp hk
    simp [posAt]
    omega
  have hmids :
      (List.range n).map (posAt (n + 2) ∘ Nat.succ) = List.replicate n ChunkPos.middle := by
    rw [List.map_congr_left hmid, List.map_const', List.length_range]
  rw [List.range_succ_eq_map, List.map_cons, List.map_map, List.range_succ, List.map_append, hmids]
  simp [posAt]

end Slice

/-- **Fragmentation tiles the range.**  For every alignment that is a power of two and every segment
size that is a multiple of it, the fragmenter yields as many fragments as it announces; their
positions are `Only`, or `First`, `Middle`s and `Last`; and the fragments of a range that is not
empty are not empty, follow each other at multiples of the alignment, cover the range and are at
most a segment long. -/
theorem fragments_tile (segmentSize align base length : UInt64)
    (halign : ∃ j, align.toNat = 2 ^ j) (hpos : 0 < segmentSize.toNat)
    (hmul : align.toNat ∣ segmentSize.toNat)
    (hfits : base.toNat + length.toNat + segmentSize.toNat < 2 ^ 64) :
    let f := Fragmenter.new segmentSize align base length
    f.fragments.length = f.numSegments ∧
    (f.fragments.map Fragment.pos = [.only] ∨
      ∃ n, f.fragments.map Fragment.pos = .first :: (List.replicate n .middle ++ [.last])) ∧
    (0 < length.toNat →
      (∀ x ∈ f.fragments, 0 < x.len.toNat ∧ x.len.toNat ≤ segmentSize.toNat) ∧
      f.fragments.IsChain (Fragment.Joins align) ∧
      f.fragments.flatMap Fragment.addrs = List.range' base.toNat length.toNat) := by
  intro f
  obtain ⟨q, hq⟩ := hmul
  rw [Nat.mul_comm] at hq
  obtain ⟨s, hsP, hsq, hstart, hstop⟩ : ∃ s : Slice, s.P = align.toNat ∧ s.q = q ∧
    s.start = base.toNat ∧ s.stop = base.toNat + length.toNat := ⟨⟨_, _, _, _⟩, rfl, rfl, rfl, rfl⟩
  rw [← hsP, ← hsq] at hq
  have hs : s.Valid := by
    refine Slice.valid_of_fits (hsP ▸ halign) (Nat.pos_of_ne_zero fun h0 => ?_) (by omega)
      (by omega)
    rw [h0, Nat.zero_mul] at hq
    omega
  have hend : f.endAddr.toNat = s.stop := by
    show (base + length).toNat = _
    rw [UInt64.toNat_add, Nat.mod_eq_of_lt (by omega), hstop]
  rw [hs.fragments_eq hq hsP.symm hstart.symm hend, hs.numSegments_eq hq hsP.symm hstart.symm hend]
  refine ⟨by rw [List.length_map, List.length_range], ?_, fun hlen => ⟨?_, ?_, ?_⟩⟩
  · have hcount : 0 < s.count := blockCount_pos _ _ _
    rw [List.map_map]
    show (List.range s.count).map (posAt s.count) = _ ∨
      ∃ n, (List.range s.count).map (posAt s.count) = _
    rcases hc : s.count with _ | _ | n
    · omega
    · exact .inl rfl
    · exact .inr ⟨n, Slice.map_posAt n⟩
  · intro x hx
    obtain ⟨k, hk, rfl⟩ := List.mem_map.mp hx
    rw [hs.fragmentAt_len (List.mem_range.mp hk), hq]
    have hlt := hs.segment_lt (by omega) (List.mem_range.mp hk)
    exact ⟨by omega, s.segment_len_le k⟩
  · exact hs.isChain_joins hsP.symm
  · rw [hs.flatMap_addrs, hstart, hstop, Nat.add_sub_cancel_left]

/-- The range of the driver's own test: 2048 bytes from address 1, in segments of 1024. -/
theorem fragments_tile_offset :
    let f := Fragmenter.new 1024 256 1 2048
    f.numSegments = 3 ∧ f.fragments.length = 3 ∧
      f.fragments.flatMap Fragment.addrs = List.range' 1 2048 := by
  have htile := fragments_tile 1024 256 1 2048 ⟨8, rfl⟩ (by decide) (by decide) (by decide)
  exact ⟨by decide, htile.1.trans (by decide), (htile.2.2 (by decide)).2.2⟩

end OpenRdma
