import OpenRdma.Workers.Completion

/-!
# Handle tables

Queue pairs, completion queues and protection domains are named by `u32` handles, which index a
bitmap of what is in use; the handle of a queue pair has a random key besides its index.
`QpManager`, `CqManager` and `PdTable` are three tables of this kind, and none of them looks at more
of a handle than its index.

* **`handle_tables_safe_iff`** — a run is safe exactly if every handle that is destroyed is live, or
  has an index in range that is neither reserved nor that of a live handle.
-/

namespace OpenRdma

/-! ## The tables -/

/-- Take the first free index. -/
def allocIndex (bitmap : List Bool) : Option (ℕ × List Bool) :=
  (firstZero bitmap).map fun index => (index, bitmap.set index true)

/-- Free an index, and say whether it was in use; an index outside the bitmap panics. -/
def freeIndex (bitmap : List Bool) (index : ℕ) : Except String (Bool × List Bool) :=
  if index < bitmap.length then .ok (bitAt bitmap index, bitmap.set index false)
  else .error "index out of bounds"

def maxPdCnt : ℕ := 256

/-- The handles of completion queues. -/
structure CqManager where
  bitmap : List Bool
deriving DecidableEq, Repr

namespace CqManager

def new : CqManager := ⟨List.replicate maxCqCnt false⟩

def createCq (m : CqManager) : Option (UInt32 × CqManager) :=
  (allocIndex m.bitmap).map fun r => (UInt32.ofNat r.1, ⟨r.2⟩)

def destroyCq (m : CqManager) (handle : UInt32) : Except String (Bool × CqManager) :=
  (freeIndex m.bitmap handle.toNat).map fun r => (r.1, ⟨r.2⟩)

end CqManager

/-- The handles of protection domains. -/
structure PdTable where
  bitmap : List Bool
deriving DecidableEq, Repr

namespace PdTable

/-- Index 0 is reserved. -/
def new : PdTable := ⟨(List.replicate maxPdCnt false).set 0 true⟩

def alloc (t : PdTable) : Option (UInt32 × PdTable) :=
  (allocIndex t.bitmap).map fun r => (UInt32.ofNat r.1, ⟨r.2⟩)

def dealloc (t : PdTable) (handle : UInt32) : Except String (Bool × PdTable) :=
  (freeIndex t.bitmap handle.toNat).map fun r => (r.1, ⟨r.2⟩)

end PdTable

/-! ## Bitmaps -/

lemma firstZero_eq_some {l : List Bool} {i : ℕ} (h : firstZero l = some i) :
    i < l.length ∧ bitAt l i = false := by
  obtain ⟨hlt, hfree, -⟩ := List.findIdx?_eq_some_iff_getElem.mp h
  refine ⟨hlt, ?_⟩
  rw [bitAt, List.getD_eq_getElem?_getD, List.getElem?_eq_getElem hlt]
  simpa using hfree

lemma bitAt_set_false (l : List Bool) (i j : ℕ) :
    bitAt (l.set i false) j = (bitAt l j && decide (j ≠ i)) := by
  simp only [bitAt, List.getD_eq_getElem?_getD, List.getElem?_set]
  by_cases hij : i = j
  · subst hij
    by_cases hlt : i < l.length <;> simp [hlt]
  · simp [hij, Ne.symm hij]

/-- Clearing a clear bit does nothing. -/
lemma set_false_of_bitAt {l : List Bool} {i : ℕ} (h : bitAt l i = false) : l.set i false = l := by
  refine List.ext_getElem? fun j => ?_
  rw [List.getElem?_set]
  split
  · next hij =>
      subst hij
      split
      · next hlt =>
          rw [bitAt, List.getD_eq_getElem?_getD, List.getElem?_eq_getElem hlt] at h
          rw [List.getElem?_eq_getElem hlt]
          exact congrArg some h.symm
      · next hge => rw [List.getElem?_eq_none (Nat.le_of_not_lt hge)]
  · rfl

/-! ## What the tables have in common -/

/-- A table of handles: what its calls do to its bitmap.  The key that goes into a new handle is up
to the environment. -/
structure HandleTable where
  Manager : Type
  new : Manager
  create : Manager → Fin 256 → Option (UInt32 × Manager)
  destroy : Manager → UInt32 → Except String (Bool × Manager)
  bits : Manager → List Bool
  index : UInt32 → ℕ
  size : ℕ
  reserved : ℕ → Bool
  bits_injective : Function.Injective bits
  length_new : (bits new).length = size
  bitAt_new : ∀ i, bitAt (bits new) i = reserved i
  create_some : ∀ {m m' key h}, (bits m).length = size → create m key = some (h, m') →
    ∃ i, firstZero (bits m) = some i ∧ index h = i ∧ bits m' = (bits m).set i true
  destroy_in : ∀ {m h}, index h < (bits m).length →
    ∃ m', destroy m h = .ok (bitAt (bits m) (index h), m') ∧
      bits m' = (bits m).set (index h) false
  destroy_out : ∀ {m h}, (bits m).length ≤ index h → ∃ msg, destroy m h = .error msg

lemma bitAt_replicate (n i : ℕ) : bitAt (List.replicate n false) i = false := by
  simp [bitAt, List.getD_eq_getElem?_getD, List.getElem?_replicate]
  split <;> rfl

/-- The index of a queue pair number is what it was made of. -/
lemma qpnToIndex_handle {i : ℕ} (hi : i < maxQpCnt) (key : Fin 256) :
    qpnToIndex ((UInt32.ofNat i <<< qpnKeyPartWidth) ||| UInt32.ofNat key) = i := by
  have hkey := key.isLt
  simp only [maxQpCnt] at hi
  have hindex : (UInt32.ofNat i).toNat = i := by
    rw [UInt32.toNat_ofNat', Nat.mod_eq_of_lt (by omega)]
  have hlow : (UInt32.ofNat key).toNat = key := by
    rw [UInt32.toNat_ofNat', Nat.mod_eq_of_lt (by omega)]
  have hor := Nat.two_pow_add_eq_or_of_lt (i := 8) (b := key) (by omega) i
  rw [qpnToIndex, qpnKeyPartWidth, UInt32.toNat_shiftRight, UInt32.toNat_or, UInt32.toNat_shiftLeft,
    hindex, hlow, Nat.shiftLeft_eq]
  simp only [UInt32.toNat_ofNat, Nat.reducePow, Nat.reduceMod] at hor ⊢
  rw [Nat.mod_eq_of_lt (by omega), Nat.mul_comm, ← hor, Nat.shiftRight_eq_div_pow]
  omega

def qpHandles : HandleTable where
  Manager := QpManager
  new := .new
  create m key := m.createQp (UInt32.ofNat key)
  destroy := QpManager.destroyQp
  bits := QpManager.bitmap
  index := qpnToIndex
  size := maxQpCnt
  reserved i := i == 0
  bits_injective := fun ⟨_⟩ ⟨_⟩ h => congrArg QpManager.mk h
  length_new := by rw [QpManager.new, List.length_set, List.length_replicate]
  bitAt_new i := by
    rw [QpManager.new, bitAt_set (by rw [List.length_replicate]; decide), bitAt_replicate,
      Bool.false_or]
    rfl
  create_some := by
    intro m m' key h hlen hcreate
    unfold QpManager.createQp at hcreate
    split at hcreate
    · exact absurd hcreate (by simp)
    · next index hindex =>
        obtain ⟨rfl, rfl⟩ := Prod.mk.inj (Option.some.inj hcreate)
        exact ⟨index, hindex, qpnToIndex_handle (hlen ▸ (firstZero_eq_some hindex).1) key, rfl⟩
  destroy_in := by
    intro m h hlt
    exact ⟨_, if_pos hlt, rfl⟩
  destroy_out := by
    intro m h hge
    exact ⟨_, if_neg (Nat.not_lt.mpr hge)⟩

/-- A handle without a key is its index. -/
lemma allocIndex_map {α : Type} {bitmap : List Bool} {f : List Bool → α} {h : UInt32} {a : α}
    (hlen : bitmap.length < 2 ^ 32)
    (halloc : (allocIndex bitmap).map (fun r => (UInt32.ofNat r.1, f r.2)) = some (h, a)) :
    firstZero bitmap = some h.toNat ∧ a = f (bitmap.set h.toNat true) := by
  obtain ⟨⟨i, b⟩, hr, heq⟩ := Option.map_eq_some_iff.mp halloc
  obtain ⟨j, hj, hpair⟩ := Option.map_eq_some_iff.mp hr
  cases heq
  cases hpair
  have hlt := (firstZero_eq_some hj).1
  rw [UInt32.toNat_ofNat', Nat.mod_eq_of_lt (by omega)]
  exact ⟨hj, rfl⟩

def cqHandles : HandleTable where
  Manager := CqManager
  new := .new
  create m _ := m.createCq
  destroy := CqManager.destroyCq
  bits := CqManager.bitmap
  index := UInt32.toNat
  size := maxCqCnt
  reserved _ := false
  bits_injective := fun ⟨_⟩ ⟨_⟩ h => congrArg CqManager.mk h
  length_new := List.length_replicate
  bitAt_new i := bitAt_replicate _ i
  create_some := by
    intro m m' key h hlen hcreate
    obtain ⟨hfirst, rfl⟩ := allocIndex_map (by rw [hlen]; decide) hcreate
    exact ⟨h.toNat, hfirst, rfl, rfl⟩
  destroy_in := by
    intro m h hlt
    exact ⟨_, by rw [CqManager.destroyCq, freeIndex, if_pos hlt]; rfl, rfl⟩
  destroy_out := by
    intro m h hge
    exact ⟨_, by rw [CqManager.destroyCq, freeIndex, if_neg (Nat.not_lt.mpr hge)]; rfl⟩

def pdHandles : HandleTable where
  Manager := PdTable
  new := .new
  create t _ := t.alloc
  destroy := PdTable.dealloc
  bits := PdTable.bitmap
  index := UInt32.toNat
  size := maxPdCnt
  reserved i := i == 0
  bits_injective := fun ⟨_⟩ ⟨_⟩ h => congrArg PdTable.mk h
  length_new := by rw [PdTable.new, List.length_set, List.length_replicate]
  bitAt_new i := by
    rw [PdTable.new, bitAt_set (by rw [List.length_replicate]; decide), bitAt_replicate,
      Bool.false_or]
    rfl
  create_some := by
    intro m m' key h hlen hcreate
    obtain ⟨hfirst, rfl⟩ := allocIndex_map (by rw [hlen]; decide) hcreate
    exact ⟨h.toNat, hfirst, rfl, rfl⟩
  destroy_in := by
    intro m h hlt
    exact ⟨_, by rw [PdTable.dealloc, freeIndex, if_pos hlt]; rfl, rfl⟩
  destroy_out := by
    intro m h hge
    exact ⟨_, by rw [PdTable.dealloc, freeIndex, if_neg (Nat.not_lt.mpr hge)]; rfl⟩

inductive HandleKind where
  | qp
  | cq
  | pd
deriving DecidableEq, Repr

def HandleKind.table : HandleKind → HandleTable
  | qp => qpHandles
  | cq => cqHandles
  | pd => pdHandles

/-! ## Runs -/

/-- A call that makes or returns a handle. -/
inductive HandleAction where
  | create (key : Fin 256)
  | destroy (handle : UInt32)
deriving DecidableEq, Repr

/-- A table, and the handles that were issued and not destroyed since. -/
structure HandleRun (T : HandleTable) where
  manager : T.Manager
  live : List UInt32

namespace HandleRun

variable {T : HandleTable}

/-- A call that panics has done nothing. -/
def step (s : HandleRun T) : HandleAction → HandleRun T
  | .create key =>
    match T.create s.manager key with
    | none => s
    | some (handle, manager) => ⟨manager, s.live ++ [handle]⟩
  | .destroy handle =>
    match T.destroy s.manager handle with
    | .error _ => s
    | .ok (_, manager) => ⟨manager, s.live.erase handle⟩

def run (T : HandleTable) (actions : List HandleAction) : HandleRun T :=
  actions.foldl step ⟨T.new, []⟩

lemma run_append (actions : List HandleAction) (a : HandleAction) :
    run T (actions ++ [a]) = (run T actions).step a := by
  simp [run, List.foldl_append]

/-- The live handles have different indices, none of them reserved. -/
def Distinct (s : HandleRun T) : Prop :=
  (s.live.map T.index).Nodup ∧ ∀ h ∈ s.live, T.reserved (T.index h) = false

/-- What a call has to do: after it the live handles are distinct; a live handle that is destroyed
is freed, and only that one; any other handle is turned down, and nothing changes. -/
def Safe (s : HandleRun T) (a : HandleAction) : Prop :=
  (s.step a).Distinct ∧ ∀ h, a = .destroy h →
    (h ∈ s.live → ∃ m, T.destroy s.manager h = .ok (true, m) ∧
      ∀ i, bitAt (T.bits m) i = (bitAt (T.bits s.manager) i && decide (i ≠ T.index h))) ∧
    (h ∉ s.live → T.destroy s.manager h = .ok (false, s.manager))

/-- A handle that is destroyed is live, or its index is in range, not reserved, and not that of a
live handle. -/
def Meets (s : HandleRun T) (a : HandleAction) : Prop :=
  ∀ h, a = .destroy h → h ∈ s.live ∨
    (T.index h < T.size ∧ T.reserved (T.index h) = false ∧ ∀ h' ∈ s.live, T.index h' ≠ T.index h)

/-- **The bitmap says what is in use.** -/
structure Owned (s : HandleRun T) : Prop where
  length : (T.bits s.manager).length = T.size
  bit : ∀ i, bitAt (T.bits s.manager) i = true ↔ T.reserved i = true ∨ ∃ h ∈ s.live, T.index h = i
  distinct : s.Distinct

variable {s : HandleRun T}

lemma Owned.index_lt (h : s.Owned) {x : UInt32} (hx : x ∈ s.live) : T.index x < T.size := by
  by_contra hge
  have hbit := (h.bit (T.index x)).mpr (.inr ⟨x, hx, rfl⟩)
  rw [bitAt_of_le (by rw [h.length]; omega)] at hbit
  exact absurd hbit (by simp)

lemma owned_new : (⟨T.new, []⟩ : HandleRun T).Owned :=
  ⟨T.length_new, fun i => by simp [T.bitAt_new], List.nodup_nil, nofun⟩

/-- A new handle has a free index. -/
lemma Owned.create (h : s.Owned) (key : Fin 256) : (s.step (.create key)).Owned := by
  rw [step]
  cases hcreate : T.create s.manager key with
  | none => exact h
  | some r =>
    obtain ⟨x, m⟩ := r
    obtain ⟨i, hi, rfl, hbits⟩ := T.create_some h.length hcreate
    obtain ⟨hlt, hfree⟩ := firstZero_eq_some hi
    have hnew := (h.bit (T.index x)).not.mp (by rw [hfree]; simp)
    simp only [not_or, not_exists, not_and, Bool.not_eq_true] at hnew
    refine ⟨by rw [hbits, List.length_set, h.length], fun j => ?_, ?_, fun y hy => ?_⟩
    · rw [hbits, bitAt_set hlt, Bool.or_eq_true, h.bit j, decide_eq_true_eq]
      simp only [List.mem_append, List.mem_singleton, or_and_right, exists_or, exists_eq_left]
      rw [or_assoc, eq_comm (a := j)]
    · rw [List.map_append, List.map_singleton]
      refine List.Nodup.append h.distinct.1 (List.nodup_singleton _) fun j hj hj' => ?_
      obtain ⟨y, hy, rfl⟩ := List.mem_map.mp hj
      exact hnew.2 y hy (List.mem_singleton.mp hj')
    · rcases List.mem_append.mp hy with hy | hy
      · exact h.distinct.2 y hy
      · rw [List.mem_singleton.mp hy]
        exact hnew.1

/-- Destroying a live handle. -/
lemma Owned.destroy_live (h : s.Owned) {x : UInt32} (hx : x ∈ s.live) :
    (s.step (.destroy x)).Owned ∧ ∃ m, T.destroy s.manager x = .ok (true, m) ∧
      ∀ i, bitAt (T.bits m) i = (bitAt (T.bits s.manager) i && decide (i ≠ T.index x)) := by
  have hlt := h.index_lt hx
  obtain ⟨m, hdestroy, hbits⟩ :=
    T.destroy_in (m := s.manager) (h := x) (by rw [h.length]; exact hlt)
  rw [(h.bit (T.index x)).mpr (.inr ⟨x, hx, rfl⟩)] at hdestroy
  have hbit : ∀ i, bitAt (T.bits m) i = (bitAt (T.bits s.manager) i && decide (i ≠ T.index x)) :=
    fun i => by rw [hbits, bitAt_set_false]
  have hnodup : s.live.Nodup := h.distinct.1.of_map
  refine ⟨?_, m, hdestroy, hbit⟩
  rw [step, hdestroy]
  refine ⟨by rw [hbits, List.length_set, h.length], fun i => ?_,
    (List.erase_sublist.map _).nodup h.distinct.1, fun y hy =>
      h.distinct.2 y (List.mem_of_mem_erase hy)⟩
  rw [hbit i, Bool.and_eq_true, h.bit i, decide_eq_true_eq]
  have hreserved := h.distinct.2 x hx
  constructor
  · rintro ⟨hres | ⟨y, hy, rfl⟩, hne⟩
    · exact .inl hres
    · exact .inr ⟨y, (hnodup.mem_erase_iff).mpr ⟨fun he => hne (he ▸ rfl), hy⟩, rfl⟩
  · rintro (hres | ⟨y, hy, rfl⟩)
    · refine ⟨.inl hres, ?_⟩
      rintro rfl
      exact absurd (hres.symm.trans hreserved) (by simp)
    · obtain ⟨hne, hy⟩ := hnodup.mem_erase_iff.mp hy
      exact ⟨.inr ⟨y, hy, rfl⟩, fun he => hne (List.inj_on_of_nodup_map h.distinct.1 hy hx he)⟩

/-- Destroying a handle whose index is free. -/
lemma Owned.destroy_free (h : s.Owned) {x : UInt32} (hlt : T.index x < T.size)
    (hres : T.reserved (T.index x) = false) (hlive : ∀ y ∈ s.live, T.index y ≠ T.index x) :
    T.destroy s.manager x = .ok (false, s.manager) := by
  obtain ⟨m, hdestroy, hbits⟩ :=
    T.destroy_in (m := s.manager) (h := x) (by rw [h.length]; exact hlt)
  have hfree : bitAt (T.bits s.manager) (T.index x) = false := by
    rw [← Bool.not_eq_true, h.bit]
    rintro (hr | ⟨y, hy, hyx⟩)
    · exact absurd (hr.symm.trans hres) (by simp)
    · exact hlive y hy hyx
  rw [set_false_of_bitAt hfree] at hbits
  rw [hdestroy, hfree, T.bits_injective hbits]

/-- **One call that meets the condition** is safe, and the bitmap stays right. -/
lemma Owned.step (h : s.Owned) {a : HandleAction} (hmeets : s.Meets a) :
    (s.step a).Owned ∧ s.Safe a := by
  cases a with
  | create key => exact ⟨h.create key, (h.create key).distinct, nofun⟩
  | destroy x =>
    rcases Classical.em (x ∈ s.live) with hx | hx
    · obtain ⟨howned, hfrees⟩ := h.destroy_live hx
      refine ⟨howned, howned.distinct, ?_⟩
      rintro _ ⟨rfl⟩
      exact ⟨fun _ => hfrees, fun hnot => absurd hx hnot⟩
    · obtain ⟨hlt, hres, hlive⟩ := (hmeets x rfl).resolve_left hx
      have hsame := h.destroy_free hlt hres hlive
      have hstep : s.step (.destroy x) = s := by
        rw [HandleRun.step, hsame]
        simp only [List.erase_of_not_mem hx]
      rw [hstep]
      refine ⟨h, ?_, ?_⟩
      · rw [hstep]
        exact h.distinct
      · rintro _ ⟨rfl⟩
        exact ⟨fun hmem => absurd hmem hx, fun _ => hsame⟩

/-- A safe call meets the condition. -/
lemma Owned.meets (h : s.Owned) {a : HandleAction} (hsafe : s.Safe a) : s.Meets a := by
  rintro x rfl
  by_cases hx : x ∈ s.live
  · exact .inl hx
  · have hfalse := (hsafe.2 x rfl).2 hx
    rcases Nat.lt_or_ge (T.index x) (T.bits s.manager).length with hlt | hge
    · obtain ⟨m, hdestroy, -⟩ := T.destroy_in hlt
      have hbit : bitAt (T.bits s.manager) (T.index x) = false := by
        have := hdestroy.symm.trans hfalse
        simp only [Except.ok.injEq, Prod.mk.injEq] at this
        exact this.1
      have hfree := (h.bit (T.index x)).not.mp (by rw [hbit]; simp)
      simp only [not_or, not_exists, not_and, Bool.not_eq_true] at hfree
      exact .inr ⟨h.length ▸ hlt, hfree.1, hfree.2⟩
    · obtain ⟨msg, hpanic⟩ := T.destroy_out hge
      exact absurd (hpanic.symm.trans hfalse) (by simp)

end HandleRun

/-- **When handle tables are safe.**  For each of the three tables and every sequence of calls: all
calls are safe — the live handles have different, non-reserved indices throughout, destroying a live
handle frees exactly that one, and destroying any other returns false and changes nothing — exactly
if every handle that is destroyed is live, or has an index in range that is neither reserved nor
that of a live handle. -/
theorem handle_tables_safe_iff (kind : HandleKind) (actions : List HandleAction) :
    (∀ done a rest, actions = done ++ a :: rest → (HandleRun.run kind.table done).Safe a) ↔
    ∀ done a rest, actions = done ++ a :: rest → (HandleRun.run kind.table done).Meets a := by
  -- in both directions the bitmap is right before each call
  have howned : ∀ P : HandleRun kind.table → HandleAction → Prop,
      (∀ s a, s.Owned → P s a → s.Meets a) →
      (∀ done a rest, actions = done ++ a :: rest → P (HandleRun.run kind.table done) a) →
      ∀ done rest, actions = done ++ rest → (HandleRun.run kind.table done).Owned := by
    intro P hP hall done
    induction done using List.reverseRecOn with
    | nil => exact fun _ _ => HandleRun.owned_new
    | append_singleton done a ih =>
      intro rest hactions
      rw [List.append_assoc] at hactions
      have hprev := ih _ hactions
      rw [HandleRun.run_append]
      exact (hprev.step (hP _ a hprev (hall done a rest hactions))).1
  constructor
  · intro hsafe done a rest hactions
    have hprev := howned _ (fun s a h => h.meets) hsafe done _ hactions
    exact hprev.meets (hsafe done a rest hactions)
  · intro hmeets done a rest hactions
    have hprev := howned _ (fun s a _ => id) hmeets done _ hactions
    exact (hprev.step (hmeets done a rest hactions)).2

/-- **Handles that are not live.**  Destroying the reserved queue pair 0, or a queue pair by its
number with another key, returns true; afterwards queue pair 0 is handed out, or a second live queue
pair with the index of the first.  An index out of range panics, in each of the tables. -/
theorem handle_tables_unsafe :
    let wrongKey := HandleRun.run qpHandles [.create 7, .destroy 0x101, .create 9]
    let zero := HandleRun.run qpHandles [.destroy 0, .create 7]
    let zeroPd := HandleRun.run pdHandles [.destroy 0, .create 0]
    (QpManager.new.destroyQp 0).map Prod.fst = .ok true ∧
    wrongKey.live = [0x107, 0x109] ∧ zero.live = [7] ∧ zeroPd.live = [0] ∧
    (QpManager.new.destroyQp 0x8000).map Prod.fst = .error "index out of bounds" ∧
    (CqManager.new.destroyCq 1024).map Prod.fst = .error "index out of bounds" ∧
    (PdTable.new.dealloc 256).map Prod.fst = .error "index out of bounds" := by
  intro wrongKey zero zeroPd
  refine ⟨?_, ?_, ?_, ?_, ?_, ?_, ?_⟩ <;> decide +kernel

end OpenRdma
