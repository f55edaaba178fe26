import OpenRdma.Core.Checked
import OpenRdma.Core.Spans
import OpenRdma.Mem.Pages

/-!
# Pinning the pages of memory regions

The manager keeps the live regions by their start address and decides from the neighbours of a
region which of its pages to pin or to unpin; it keeps no counts.

* **`pinned_exactly`** — along every run a page is pinned once if a live region touches it, and not
  at all otherwise.
-/

namespace OpenRdma

open Checked

/-- Where the manager panics. -/
inductive RegionPanic where
  | overflow
  | badRange
  | overlap
  | emptyRegion
  | replaced
  | missing
  | wrongLength
  | umem
deriving DecidableEq, Repr

/-- A call to the memory handler: the range of addresses from `start` on. -/
inductive PinEvent where
  | pin (start length : ℕ)
  | unpin (start length : ℕ)
deriving DecidableEq, Repr

/-- Whether the operating system pins and unpins what it is asked to. -/
structure UmemHandler where
  pinPages : ℕ → ℕ → Bool
  unpinPages : ℕ → ℕ → Bool

/-- The live regions: start address and length. -/
abbrev MrRegionManager := KeyedQueue ℕ

def phyPageStart (cfg : PageCfg) (addr : ℕ) : ℕ := (addr >>> cfg.pageSizeBits) <<< cfg.pageSizeBits

/-- A `usize` addition, or its panic. -/
def addOrPanic (build : Build) (x y : ℕ) : Except RegionPanic ℕ :=
  match build.add x y with
  | some z => .ok z
  | none => .error .overflow

namespace MrRegionManager

variable (cfg : PageCfg) (build : Build)

/-- The first address to pin for a region from `start` on. -/
def mlockStart (m : MrRegionManager) (start : ℕ) : Except RegionPanic ℕ :=
  let startPage := phyPageStart cfg start
  match m.lastLe start with
  | some (tmpStart, tmpLen) => do
    let tmpEnd ← addOrPanic build tmpStart tmpLen
    require (tmpEnd ≤ start) .overlap
    if phyPageStart cfg (tmpEnd - 1) = startPage then addOrPanic build startPage cfg.pageSize
    else return startPage
  | none => return startPage

/-- The address after the last to pin for a region up to `end'`. -/
def mlockEnd (m : MrRegionManager) (end' : ℕ) : Except RegionPanic ℕ :=
  let endPage := phyPageStart cfg (end' - 1)
  match m.firstGe end' with
  | some (tmpStart, _) => do
    require (end' ≤ tmpStart) .overlap
    if phyPageStart cfg tmpStart = endPage then return endPage
    else addOrPanic build endPage cfg.pageSize
  | none => addOrPanic build endPage cfg.pageSize

def getPinRange (m : MrRegionManager) (start end' : ℕ) : Except RegionPanic (Option (ℕ × ℕ)) := do
  require (start < end') .emptyRegion
  let mlockStart ← mlockStart cfg build m start
  let mlockEnd ← mlockEnd cfg build m end'
  if mlockEnd ≤ mlockStart then return none else return some (mlockStart, mlockEnd)

def insertAndGetPinRange (m : MrRegionManager) (addr length : ℕ) :
    Except RegionPanic (Option (ℕ × ℕ) × MrRegionManager) := do
  let end' ← addOrPanic build addr length
  require (addr ≤ end') .badRange
  require (∀ r ∈ m.entries, ¬ (addr ≤ r.1 ∧ r.1 < end')) .overlap
  let result ← getPinRange cfg build m addr end'
  require (addr ∉ m.keys) .replaced
  return (result, m.insert addr length)

def removeAndGetUnpinRange (m : MrRegionManager) (addr length : ℕ) :
    Except RegionPanic (Option (ℕ × ℕ) × MrRegionManager) := do
  let end' ← addOrPanic build addr length
  let m' := m.keep (· != addr)
  match m.lookup addr with
  | none => throw .missing
  | some removedLen =>
    require (removedLen = length) .wrongLength
    let result ← getPinRange cfg build m' addr end'
    return (result, m')

end MrRegionManager

/-- The manager and what it asked the memory handler to do. -/
structure PinState where
  manager : MrRegionManager
  log : List PinEvent

namespace PinState

variable (cfg : PageCfg) (build : Build) (umem : UmemHandler)

def new : PinState := { manager := .empty, log := [] }

/-- Have the memory handler pin or unpin the range, and keep the new regions. -/
def record (event : ℕ → ℕ → PinEvent) (handler : ℕ → ℕ → Bool) (s : PinState) :
    Option (ℕ × ℕ) × MrRegionManager → Except RegionPanic PinState
  | (some (start, end'), m) => do
    require (handler start (end' - start) = true) .umem
    return { manager := m, log := s.log ++ [event start (end' - start)] }
  | (none, m) => return { s with manager := m }

/-- `MrRegionManager::insert` -/
def insert (s : PinState) (addr length : ℕ) : Except RegionPanic PinState := do
  record .pin umem.pinPages s (← s.manager.insertAndGetPinRange cfg build addr length)

/-- `MrRegionManager::remove` -/
def remove (s : PinState) (addr length : ℕ) : Except RegionPanic PinState := do
  record .unpin umem.unpinPages s (← s.manager.removeAndGetUnpinRange cfg build addr length)

end PinState

/-- The calls of the manager. -/
inductive RegionCall where
  | insert (addr length : UInt64)
  | remove (addr length : UInt64)
deriving DecidableEq, Repr

namespace RegionCall

variable (cfg : PageCfg) (build : Build) (umem : UmemHandler)

def run (s : PinState) : RegionCall → Except RegionPanic PinState
  | .insert addr length => s.insert cfg build umem addr.toNat length.toNat
  | .remove addr length => s.remove cfg build umem addr.toNat length.toNat

/-- The regions that are live after a call. -/
def live (regions : List (ℕ × ℕ)) : RegionCall → List (ℕ × ℕ)
  | .insert addr length => regions ++ [(addr.toNat, length.toNat)]
  | .remove addr length => regions.erase (addr.toNat, length.toNat)

end RegionCall

/-- A sequence of calls, up to the first panic. -/
def regionRun (cfg : PageCfg) (build : Build) (umem : UmemHandler) (calls : List RegionCall) :
    Except RegionPanic PinState :=
  calls.foldlM (RegionCall.run cfg build umem) .new

/-- The regions that are inserted and not removed. -/
def liveRegions (calls : List RegionCall) : List (ℕ × ℕ) := calls.foldl RegionCall.live []

/-! ## Counting pins -/

namespace PinEvent

/-- The page is in the range of addresses. -/
def Covers (cfg : PageCfg) (start length page : ℕ) : Prop :=
  start ≤ page * cfg.pageSize ∧ page * cfg.pageSize < start + length

instance (cfg : PageCfg) (start length page : ℕ) : Decidable (Covers cfg start length page) :=
  inferInstanceAs (Decidable (_ ∧ _))

/-- How an event changes the number of pins of a page. -/
def delta (cfg : PageCfg) (page : ℕ) : PinEvent → ℤ
  | .pin start length => if Covers cfg start length page then 1 else 0
  | .unpin start length => if Covers cfg start length page then -1 else 0

end PinEvent

/-- How often the page is pinned and not yet unpinned. -/
def pinCount (cfg : PageCfg) (log : List PinEvent) (page : ℕ) : ℤ :=
  (log.map (PinEvent.delta cfg page)).sum

lemma pinCount_snoc (cfg : PageCfg) (log : List PinEvent) (e : PinEvent) (page : ℕ) :
    pinCount cfg (log ++ [e]) page = pinCount cfg log page + e.delta cfg page := by
  rw [pinCount, List.map_append, List.sum_append, List.map_singleton, List.sum_singleton, pinCount]

/-! ## The pin range -/

lemma addOrPanic_eq_ok {build : Build} {x y z : ℕ} (h : addOrPanic build x y = .ok z) :
    build.add x y = some z := by
  rw [addOrPanic] at h
  split at h
  · rename_i hadd
    rw [hadd, Except.ok.inj h]
  · cases h

lemma phyPageStart_eq (cfg : PageCfg) (addr : ℕ) :
    phyPageStart cfg addr = addr / cfg.pageSize * cfg.pageSize := by
  rw [phyPageStart, Nat.shiftLeft_eq, Nat.shiftRight_eq_div_pow]
  rfl

lemma phyPageStart_inj {cfg : PageCfg} {a b : ℕ} :
    phyPageStart cfg a = phyPageStart cfg b ↔ a / cfg.pageSize = b / cfg.pageSize := by
  rw [phyPageStart_eq, phyPageStart_eq]
  exact Nat.mul_left_inj cfg.pageSize_pos.ne'

/-- The address is not in the last page of the address space, or the build checks for overflow. -/
def BelowTop (cfg : PageCfg) (build : Build) (addr : ℕ) : Prop :=
  addr < 2 ^ 64 - cfg.pageSize ∨ build.overflowChecks = true

/-- The page after the one of an address. -/
lemma nextPage_eq {cfg : PageCfg} {build : Build} {addr z : ℕ} (htop : BelowTop cfg build addr)
    (h : addOrPanic build (phyPageStart cfg addr) cfg.pageSize = .ok z) :
    z = (addr / cfg.pageSize + 1) * cfg.pageSize := by
  rw [phyPageStart_eq] at h
  have hsum : addr / cfg.pageSize * cfg.pageSize + cfg.pageSize =
      (addr / cfg.pageSize + 1) * cfg.pageSize := (Nat.succ_mul _ _).symm
  refine ((Build.add_eq_some (addOrPanic_eq_ok h) ?_).1).trans hsum
  rcases htop with hlt | hchecks
  · left
    have hle := Nat.div_mul_le_self addr cfg.pageSize
    omega
  · exact Or.inr hchecks

namespace MrRegionManager

variable {cfg : PageCfg} {build : Build} {m : MrRegionManager}

lemma mlockStart_eq {s a : ℕ} (hm : ∀ r ∈ m.entries, r.1 + r.2 < 2 ^ 64)
    (htop : BelowTop cfg build s) (h : mlockStart cfg build m s = .ok a) :
    a = Spans.firstCell cfg.pageSize m s * cfg.pageSize ∧ ∀ r, m.lastLe s = some r →
    r.1 + r.2 ≤ s := by
  rw [mlockStart] at h
  rw [Spans.firstCell]
  cases hprev : m.lastLe s with
  | none =>
    simp only [hprev] at h
    refine ⟨?_, by rintro r ⟨⟩⟩
    dsimp only
    rw [← phyPageStart_eq]
    exact (Except.ok.inj h).symm
  | some r =>
    obtain ⟨tmpStart, tmpLen⟩ := r
    have hend := hm _ (KeyedQueue.lastLe_eq_some hprev).1
    simp only [hprev] at h
    obtain ⟨tmpEnd, hadd, h⟩ := bind_eq_ok h
    obtain ⟨_, hle, h⟩ := bind_eq_ok h
    obtain rfl := (Build.add_eq_some (addOrPanic_eq_ok hadd) (Or.inl hend)).1
    refine ⟨?_, fun r hr => Option.some_inj.mp hr ▸ require_eq_ok hle⟩
    dsimp only
    split at h
    · rename_i heq
      rw [if_pos (phyPageStart_inj.mp heq)]
      exact nextPage_eq htop h
    · rename_i hne
      rw [if_neg (fun heq => hne (phyPageStart_inj.mpr heq)), ← phyPageStart_eq]
      exact (Except.ok.inj h).symm

lemma mlockEnd_eq {e a : ℕ} (htop : BelowTop cfg build (e - 1))
    (h : mlockEnd cfg build m e = .ok a) : a = Spans.endCell cfg.pageSize m e * cfg.pageSize := by
  rw [mlockEnd] at h
  rw [Spans.endCell]
  cases hnext : m.firstGe e with
  | none =>
    simp only [hnext] at h
    exact nextPage_eq htop h
  | some r =>
    obtain ⟨tmpStart, tmpLen⟩ := r
    simp only [hnext] at h
    obtain ⟨_, -, h⟩ := bind_eq_ok h
    dsimp only
    split at h
    · rename_i heq
      rw [if_pos (phyPageStart_inj.mp heq), ← phyPageStart_eq]
      exact (Except.ok.inj h).symm
    · rename_i hne
      rw [if_neg (fun heq => hne (phyPageStart_inj.mpr heq))]
      exact nextPage_eq htop h

/-- The pages of a pin range. -/
def InRange (cfg : PageCfg) (range : Option (ℕ × ℕ)) (page : ℕ) : Prop :=
  ∃ start end', range = some (start, end') ∧ PinEvent.Covers cfg start (end' - start) page

variable {range : Option (ℕ × ℕ)}

/-- **The range is what only the region touches**, if the region does not reach into the last
page. -/
lemma getPinRange_fresh (hm : ∀ r ∈ m.entries, r.1 + r.2 < 2 ^ 64) (hvalid : Spans.Valid m)
    {s l : ℕ} (htop : BelowTop cfg build (s + l - 1))
    (hnone : ∀ r ∈ m.entries, ¬ (s ≤ r.1 ∧ r.1 < s + l))
    (h : getPinRange cfg build m s (s + l) = .ok range) :
    0 < l ∧ (∀ r ∈ m.entries, Spans.Apart r (s, l)) ∧
    ∀ page, InRange cfg range page ↔
      Spans.Touches cfg.pageSize (s, l) page ∧
        ∀ r ∈ m.entries, ¬ Spans.Touches cfg.pageSize r page := by
  rw [getPinRange] at h
  obtain ⟨_, hpos, h⟩ := bind_eq_ok h
  obtain ⟨lo, hlo, h⟩ := bind_eq_ok h
  obtain ⟨hi, hhi, h⟩ := bind_eq_ok h
  have hl : 0 < l := by
    have := require_eq_ok hpos
    omega
  have htops : BelowTop cfg build s := htop.imp_left (fun h => by omega)
  obtain ⟨rfl, hprev⟩ := mlockStart_eq hm htops hlo
  obtain rfl := mlockEnd_eq htop hhi
  have hapart : ∀ r ∈ m.entries, Spans.Apart r (s, l) := by
    intro r hr
    have hrpos := hvalid.pos r hr
    rcases Nat.lt_or_ge s r.1 with hlt | hge
    · right
      have := hnone r hr
      show s + l ≤ r.1
      omega
    · left
      show r.1 + r.2 ≤ s
      cases hlast : m.lastLe s with
      | none => exact absurd (KeyedQueue.lastLe_eq_none hlast r hr) (by omega)
      | some p =>
        obtain ⟨hp, hps, hlp⟩ := KeyedQueue.lastLe_eq_some hlast
        have hpend := hprev p hlast
        by_cases heq : r = p
        · rw [heq]
          exact hpend
        · have hrp := hlp r hr hge
          have hppos := hvalid.pos p hp
          rcases hvalid.apart r hr p hp heq with h | h <;> omega
  refine ⟨hl, hapart, fun page => ?_⟩
  rw [← Spans.fresh_iff hvalid hapart hl]
  have hPpos := cfg.pageSize_pos
  split at h
  · rename_i hle
    cases h
    have hcells := Nat.le_of_mul_le_mul_right hle hPpos
    refine ⟨fun ⟨_, _, h, _⟩ => (nomatch h), fun ⟨hlo, hhi⟩ => ?_⟩
    omega
  · rename_i hlt
    cases h
    constructor
    · rintro ⟨start, end', heq, hcov⟩
      obtain ⟨rfl, rfl⟩ := Prod.mk.inj (Option.some_inj.mp heq)
      obtain ⟨hlo, hhi⟩ := hcov
      exact ⟨Nat.le_of_mul_le_mul_right hlo hPpos,
        Nat.lt_of_mul_lt_mul_right (a := cfg.pageSize) (by omega)⟩
    · rintro ⟨hlo, hhi⟩
      refine ⟨_, _, rfl, Nat.mul_le_mul_right _ hlo, ?_⟩
      have := Nat.mul_lt_mul_of_pos_right hhi hPpos
      omega

/-- A region that does not wrap around the address space. -/
lemma end_eq {addr length end' : ℕ} (haddr : addr < 2 ^ 64) (hlength : length < 2 ^ 64)
    (hadd : addOrPanic build addr length = .ok end') (hle : addr ≤ end') : end' = addr + length ∧
      addr + length < 2 ^ 64 := by
  have hadd := addOrPanic_eq_ok hadd
  rw [Build.add] at hadd
  split at hadd
  · rename_i hlt
    exact ⟨(Option.some_inj.mp hadd).symm, hlt⟩
  · split at hadd
    · cases hadd
    · -- the sum wrapped, to an address below the start
      have := Option.some_inj.mp hadd
      omega

lemma insert_eq_ok {addr length : ℕ} {m' : MrRegionManager}
    (haddr : addr < 2 ^ 64) (hlength : length < 2 ^ 64)
    (h : insertAndGetPinRange cfg build m addr length = .ok (range, m')) :
    addr + length < 2 ^ 64 ∧ (∀ r ∈ m.entries, ¬ (addr ≤ r.1 ∧ r.1 < addr + length)) ∧
    getPinRange cfg build m addr (addr + length) = .ok range ∧ addr ∉ m.keys ∧
    m' = m.insert addr length := by
  rw [insertAndGetPinRange] at h
  obtain ⟨end', hadd, h⟩ := bind_eq_ok h
  obtain ⟨_, hle, h⟩ := bind_eq_ok h
  obtain ⟨_, hnone, h⟩ := bind_eq_ok h
  obtain ⟨result, hrange, h⟩ := bind_eq_ok h
  obtain ⟨_, hkey, h⟩ := bind_eq_ok h
  obtain ⟨rfl, rfl⟩ := Prod.mk.inj (Except.ok.inj h)
  obtain ⟨rfl, hlt⟩ := end_eq haddr hlength hadd (require_eq_ok hle)
  exact ⟨hlt, require_eq_ok hnone, hrange, require_eq_ok hkey, rfl⟩

lemma remove_eq_ok {addr length : ℕ} {m' : MrRegionManager}
    (hm : ∀ r ∈ m.entries, r.1 + r.2 < 2 ^ 64)
    (h : removeAndGetUnpinRange cfg build m addr length = .ok (range, m')) :
    (addr, length) ∈ m.entries ∧ m' = m.keep (· != addr) ∧
    getPinRange cfg build m' addr (addr + length) = .ok range := by
  rw [removeAndGetUnpinRange] at h
  obtain ⟨end', hadd, h⟩ := bind_eq_ok h
  cases hlookup : m.lookup addr with
  | none =>
    simp only [hlookup] at h
    cases h
  | some removedLen =>
    simp only [hlookup] at h
    obtain ⟨_, hlen, h⟩ := bind_eq_ok h
    obtain ⟨result, hrange, h⟩ := bind_eq_ok h
    obtain ⟨rfl, rfl⟩ := Prod.mk.inj (Except.ok.inj h)
    obtain rfl := require_eq_ok hlen
    have hmem := KeyedQueue.lookup_eq_some.mp hlookup
    obtain rfl := (Build.add_eq_some (addOrPanic_eq_ok hadd) (Or.inl (hm _ hmem))).1
    exact ⟨hmem, rfl, hrange⟩

end MrRegionManager

/-! ## Runs -/

/-- The regions are the live ones, apart from each other; and a page is pinned once if one of them
touches it, and not otherwise. -/
structure PinInv (cfg : PageCfg) (build : Build) (live : List (ℕ × ℕ)) (s : PinState) : Prop where
  nodup : live.Nodup
  regions : ∀ r, r ∈ s.manager.entries ↔ r ∈ live
  valid : Spans.Valid s.manager
  ends : ∀ r ∈ s.manager.entries, r.1 + r.2 < 2 ^ 64
  top : ∀ r ∈ s.manager.entries, BelowTop cfg build (r.1 + r.2 - 1)
  used : ∀ page, (∃ r ∈ s.manager.entries, Spans.Touches cfg.pageSize r page) →
    pinCount cfg s.log page = 1
  unused : ∀ page, (∀ r ∈ s.manager.entries, ¬ Spans.Touches cfg.pageSize r page) →
    pinCount cfg s.log page = 0

namespace PinState

open MrRegionManager

variable {cfg : PageCfg} {build : Build} {umem : UmemHandler} {s s' : PinState}

/-- What a call does to the count of a page: the pages of the range change by `k`. -/
lemma record_spec {event : ℕ → ℕ → PinEvent} {handler : ℕ → ℕ → Bool} {k : ℤ}
    {range : Option (ℕ × ℕ)} {m : MrRegionManager}
    (hevent : ∀ start length page, (event start length).delta cfg page =
      if PinEvent.Covers cfg start length page then k else 0)
    (h : record event handler s (range, m) = .ok s') :
    s'.manager = m ∧
      ∀ page, (InRange cfg range page → pinCount cfg s'.log page = pinCount cfg s.log page + k) ∧
        (¬ InRange cfg range page → pinCount cfg s'.log page = pinCount cfg s.log page) := by
  rcases range with _ | ⟨start, end'⟩
  · cases h
    exact ⟨rfl, fun page => ⟨fun ⟨_, _, h, _⟩ => (nomatch h), fun _ => rfl⟩⟩
  · obtain ⟨_, -, h⟩ := bind_eq_ok h
    cases h
    refine ⟨rfl, fun page => ?_⟩
    rw [pinCount_snoc, hevent]
    constructor
    · rintro ⟨_, _, heq, hcov⟩
      obtain ⟨rfl, rfl⟩ := Prod.mk.inj (Option.some_inj.mp heq)
      rw [if_pos hcov]
    · intro hout
      rw [if_neg (fun hcov => hout ⟨_, _, rfl, hcov⟩), add_zero]

end PinState

namespace PinInv

open MrRegionManager

variable {cfg : PageCfg} {build : Build} {umem : UmemHandler} {live : List (ℕ × ℕ)}
  {s s' : PinState}

lemma new : PinInv cfg build [] PinState.new where
  nodup := List.nodup_nil
  regions := fun _ => Iff.rfl
  valid := ⟨nofun, nofun⟩
  ends := nofun
  top := nofun
  used := fun _ ⟨_, h, _⟩ => nomatch h
  unused := fun _ _ => rfl

lemma insert (h : PinInv cfg build live s) {addr length : ℕ} (haddr : addr < 2 ^ 64)
    (hlength : length < 2 ^ 64) (htop : BelowTop cfg build (addr + length - 1))
    (hstep : s.insert cfg build umem addr length = .ok s') :
    PinInv cfg build (live ++ [(addr, length)]) s' := by
  obtain ⟨⟨range, m⟩, hrange, hrecord⟩ := bind_eq_ok hstep
  obtain ⟨rfl, hcount⟩ := PinState.record_spec (fun _ _ _ => rfl) hrecord
  obtain ⟨hlt, hnone, hpin, hkey, hm'⟩ := insert_eq_ok haddr hlength hrange
  obtain ⟨hpos, hapart, hfresh⟩ := getPinRange_fresh h.ends h.valid htop hnone hpin
  have hmem : ∀ r, r ∈ s'.manager.entries ↔ r ∈ s.manager.entries ∨ r = (addr, length) := by
    intro r
    rw [hm', KeyedQueue.mem_insert]
    simp only [hkey, not_false_iff, true_and]
  refine ⟨?_, fun r => ?_, ⟨fun r hr => ?_, fun r hr q hq hne => ?_⟩, fun r hr => ?_,
    fun r hr => ?_, fun page hused => ?_, fun page hunused => ?_⟩
  · refine List.nodup_append.mpr ⟨h.nodup, List.nodup_singleton _, fun r hr q hq => ?_⟩
    rintro rfl
    rw [List.mem_singleton.mp hq] at hr
    exact hkey (KeyedQueue.mem_keys.mpr ⟨length, (h.regions _).mpr hr⟩)
  · rw [hmem, h.regions, List.mem_append, List.mem_singleton]
  · rcases (hmem r).mp hr with hr | rfl
    · exact h.valid.pos r hr
    · exact hpos
  · rcases (hmem r).mp hr with hr | rfl <;> rcases (hmem q).mp hq with hq | rfl
    · exact h.valid.apart r hr q hq hne
    · exact hapart r hr
    · exact (hapart q hq).symm
    · exact absurd rfl hne
  · rcases (hmem r).mp hr with hr | rfl
    · exact h.ends r hr
    · exact hlt
  · rcases (hmem r).mp hr with hr | rfl
    · exact h.top r hr
    · exact htop
  · -- pages in use: by an older region already, or only by the new one, which is then in the range
    by_cases hold : ∃ r ∈ s.manager.entries, Spans.Touches cfg.pageSize r page
    · obtain ⟨r, hr, ht⟩ := hold
      rw [(hcount page).2 (fun hin => ((hfresh page).mp hin).2 r hr ht)]
      exact h.used page ⟨r, hr, ht⟩
    · push Not at hold
      obtain ⟨r, hr, ht⟩ := hused
      rcases (hmem r).mp hr with hr | rfl
      · exact absurd ht (hold r hr)
      · rw [(hcount page).1 ((hfresh page).mpr ⟨ht, hold⟩), h.unused page hold]
        rfl
  · have hold : ∀ r ∈ s.manager.entries, ¬ Spans.Touches cfg.pageSize r page :=
      fun r hr => hunused r ((hmem r).mpr (Or.inl hr))
    have hnew := hunused (addr, length) ((hmem _).mpr (Or.inr rfl))
    rw [(hcount page).2 (fun hin => hnew ((hfresh page).mp hin).1)]
    exact h.unused page hold

lemma remove (h : PinInv cfg build live s) {addr length : ℕ}
    (hstep : s.remove cfg build umem addr length = .ok s') :
    PinInv cfg build (live.erase (addr, length)) s' := by
  obtain ⟨⟨range, m⟩, hrange, hrecord⟩ := bind_eq_ok hstep
  obtain ⟨rfl, hcount⟩ := PinState.record_spec (fun _ _ _ => rfl) hrecord
  obtain ⟨hin, hm', hpin⟩ := remove_eq_ok h.ends hrange
  have hmem : ∀ r, r ∈ s'.manager.entries ↔ r ∈ s.manager.entries ∧ r ≠ (addr, length) := by
    intro r
    rw [hm', KeyedQueue.mem_keep, bne_iff_ne]
    refine and_congr_right (fun hr => not_congr ⟨fun heq => ?_, fun heq => by rw [heq]⟩)
    exact s.manager.eq_of_key hr hin heq
  have hvalid : Spans.Valid s'.manager :=
    ⟨fun r hr => h.valid.pos r ((hmem r).mp hr).1, fun r hr q hq =>
      h.valid.apart r ((hmem r).mp hr).1 q ((hmem q).mp hq).1⟩
  have hends : ∀ r ∈ s'.manager.entries, r.1 + r.2 < 2 ^ 64 :=
    fun r hr => h.ends r ((hmem r).mp hr).1
  have hnone : ∀ r ∈ s'.manager.entries, ¬ (addr ≤ r.1 ∧ r.1 < addr + length) := by
    intro r hr hover
    obtain ⟨hr, hne⟩ := (hmem r).mp hr
    have hrpos := h.valid.pos r hr
    rcases h.valid.apart r hr _ hin hne with ha | ha <;> dsimp only at ha <;> omega
  obtain ⟨hpos, hapart, hfresh⟩ := getPinRange_fresh hends hvalid (h.top _ hin) hnone hpin
  refine ⟨h.nodup.erase _, fun r => ?_, hvalid, hends, fun r hr => h.top r ((hmem r).mp hr).1,
    fun page hused => ?_, fun page hunused => ?_⟩
  · rw [hmem, h.regions, h.nodup.mem_erase_iff, and_comm]
  · obtain ⟨r, hr, ht⟩ := hused
    rw [(hcount page).2 (fun hin => ((hfresh page).mp hin).2 r hr ht)]
    exact h.used page ⟨r, ((hmem r).mp hr).1, ht⟩
  · -- pages out of use: only the removed region touched them, or none did
    by_cases ht : Spans.Touches cfg.pageSize (addr, length) page
    · rw [(hcount page).1 ((hfresh page).mpr ⟨ht, hunused⟩), h.used page ⟨_, hin, ht⟩]
      rfl
    · rw [(hcount page).2 (fun hin => ht ((hfresh page).mp hin).1)]
      refine h.unused page (fun r hr htr => ?_)
      by_cases heq : r = (addr, length)
      · exact ht (heq ▸ htr)
      · exact hunused r ((hmem r).mpr ⟨hr, heq⟩) htr

end PinInv

namespace RegionCall

/-- An inserted region does not reach into the last page of the address space, unless the build
checks for overflow. -/
def Fits (cfg : PageCfg) (build : Build) : RegionCall → Prop
  | .insert addr length => BelowTop cfg build (addr.toNat + length.toNat - 1)
  | .remove _ _ => True

end RegionCall

lemma run_pinInv (cfg : PageCfg) (build : Build) (umem : UmemHandler) {calls : List RegionCall}
    {s : PinState} (hrun : regionRun cfg build umem calls = .ok s)
    (hfits : ∀ c ∈ calls, c.Fits cfg build) : PinInv cfg build (liveRegions calls) s := by
  induction calls using List.reverseRecOn generalizing s with
  | nil =>
    obtain rfl := Except.ok.inj hrun
    exact .new
  | append_singleton calls c ih =>
    obtain ⟨u, hu, hstep⟩ := foldlM_snoc_eq_ok hrun
    have hinv := ih hu (fun c hc => hfits c (List.mem_append_left _ hc))
    have hc := hfits c (List.mem_append_right _ (List.mem_singleton_self c))
    rw [liveRegions, List.foldl_append]
    cases c with
    | insert addr length => exact hinv.insert addr.toNat_lt length.toNat_lt hc hstep
    | remove addr length => exact hinv.remove hstep

/-- The page has an address of one of the regions. -/
def InUse (cfg : PageCfg) (regions : List (ℕ × ℕ)) (page : ℕ) : Prop :=
  ∃ r ∈ regions, ∃ a, r.1 ≤ a ∧ a < r.1 + r.2 ∧ a / cfg.pageSize = page

/-- The pages in use are pinned once, and no others. -/
def PinnedExactly (cfg : PageCfg) (calls : List RegionCall) (s : PinState) : Prop :=
  ∀ page, (InUse cfg (liveRegions calls) page → pinCount cfg s.log page = 1) ∧
    (¬ InUse cfg (liveRegions calls) page → pinCount cfg s.log page = 0)

/-- **Pinning is exact.**  After every sequence of calls none of which panics, and in which no
inserted region reaches into the last page of the address space, a page is pinned once if a live
region has an address in it, and not at all otherwise. -/
theorem pinned_exactly (cfg : PageCfg) (build : Build) (umem : UmemHandler)
    (calls : List RegionCall) (s : PinState) (hrun : regionRun cfg build umem calls = .ok s)
    (hfits : ∀ c ∈ calls, c.Fits cfg build) : PinnedExactly cfg calls s := by
  have h := run_pinInv cfg build umem hrun hfits
  have huse : ∀ page, InUse cfg (liveRegions calls) page ↔
      ∃ r ∈ s.manager.entries, Spans.Touches cfg.pageSize r page := by
    intro page
    refine exists_congr (fun r => ?_)
    rw [← h.regions]
    exact and_congr_right (fun hr => (Spans.touches_iff cfg.pageSize_pos (h.valid.pos r hr)).symm)
  intro page
  rw [huse]
  refine ⟨h.used page, fun hnone => h.unused page ?_⟩
  simpa using hnone

/-- A handler that always succeeds. -/
def UmemHandler.ideal : UmemHandler := ⟨fun _ _ => true, fun _ _ => true⟩

/-- Two small regions in one page, the first of which is removed. -/
def sharedPage : List RegionCall :=
  [.insert 0x200000 0x1000, .insert 0x201000 0x1000, .remove 0x200000 0x1000]

theorem pinned_exactly_shared :
    ∃ s, regionRun .pageSize2m ⟨false, false⟩ .ideal sharedPage = .ok s ∧
      PinnedExactly .pageSize2m sharedPage s ∧ pinCount .pageSize2m s.log 1 = 1 := by
  refine ⟨_, rfl, pinned_exactly .pageSize2m ⟨false, false⟩ .ideal sharedPage _ rfl ?_, by decide⟩
  intro c hc
  fin_cases hc
  · exact Or.inl (by decide)
  · exact Or.inl (by decide)
  · trivial

/-- **A region in the last page stays unpinned** in a build that does not check for overflow: the
end of the range to pin wraps to zero, so the range is taken for empty.  With pages of 4 KiB nothing
before the call excludes such a region. -/
theorem last_page_unpinned :
    ∃ s, regionRun .pageSize4k ⟨false, false⟩ .ideal [.insert 0xfffffffffffff000 0x800] = .ok s ∧
      ¬ PinnedExactly .pageSize4k [.insert 0xfffffffffffff000 0x800] s := by
  refine ⟨_, rfl, fun h => ?_⟩
  have hcount := (h (2 ^ 52 - 1)).1
    ⟨_, List.mem_singleton_self _, 0xfffffffffffff000, by decide, by decide, by decide⟩
  exact absurd hcount (by decide)

end OpenRdma
