import Mathlib.Tactic

/-!
# Pages and machine arithmetic

The driver is built for 4 KiB or for 2 MiB pages.  `usize` values are natural numbers below
`2 ^ 64`; what an addition does that leaves this range depends on the build.
-/

namespace OpenRdma

/-- The page size that the driver is built for. -/
inductive PageCfg where
  | pageSize4k
  | pageSize2m
deriving DecidableEq, Repr

namespace PageCfg

def pageSizeBits : PageCfg → ℕ
  | pageSize4k => 12
  | pageSize2m => 21

def pageSize (cfg : PageCfg) : ℕ := 2 ^ cfg.pageSizeBits

lemma pageSize_pos (cfg : PageCfg) : 0 < cfg.pageSize := Nat.two_pow_pos _

/-- Pages divide the address space. -/
lemma pageSize_dvd (cfg : PageCfg) : cfg.pageSize ∣ 2 ^ 64 := by
  cases cfg
  · exact pow_dvd_pow 2 (by decide)
  · exact pow_dvd_pow 2 (by decide)

end PageCfg

/-- What a build checks at run time. -/
structure Build where
  /-- Is `debug_assert!` evaluated? -/
  debugAssertions : Bool
  /-- Does arithmetic that overflows panic?  It wraps otherwise. -/
  overflowChecks : Bool
deriving DecidableEq, Repr

/-- `x + y` on `usize`; `none` is the panic of a checked overflow. -/
def Build.add (build : Build) (x y : ℕ) : Option ℕ :=
  if x + y < 2 ^ 64 then some (x + y)
  else if build.overflowChecks then none
  else some ((x + y) % 2 ^ 64)

lemma Build.add_of_lt (build : Build) {x y : ℕ} (h : x + y < 2 ^ 64) :
    build.add x y = some (x + y) :=
  if_pos h

/-- A sum that cannot wrap: it is in range, or the build checks. -/
lemma Build.add_eq_some {build : Build} {x y z : ℕ} (h : build.add x y = some z)
    (hwrap : x + y < 2 ^ 64 ∨ build.overflowChecks = true) : z = x + y ∧ x + y < 2 ^ 64 := by
  rw [add] at h
  split at h
  · rename_i hlt
    exact ⟨(Option.some_inj.mp h).symm, hlt⟩
  · rename_i hge
    rw [if_pos (hwrap.resolve_left hge)] at h
    cases h

/-- `x - y` on `usize`; `none` is the panic of a checked overflow. -/
def Build.sub (build : Build) (x y : ℕ) : Option ℕ :=
  if y ≤ x then some (x - y)
  else if build.overflowChecks then none
  else some (x + 2 ^ 64 - y)

/-- `x * y` on `u64`; `none` is the panic of a checked overflow. -/
def Build.mul (build : Build) (x y : ℕ) : Option ℕ :=
  if x * y < 2 ^ 64 then some (x * y)
  else if build.overflowChecks then none
  else some ((x * y) % 2 ^ 64)

lemma Build.mul_of_lt (build : Build) {x y : ℕ} (h : x * y < 2 ^ 64) :
    build.mul x y = some (x * y) :=
  if_pos h

lemma Build.mul_lt {build : Build} {x y z : ℕ} (h : build.mul x y = some z) : z < 2 ^ 64 := by
  rw [mul] at h
  split at h
  · rename_i hlt
    exact Option.some.inj h ▸ hlt
  · split at h
    · cases h
    · exact Option.some.inj h ▸ Nat.mod_lt _ (by decide)

/-- The number of pages that a memory region touches. -/
def getNumPage (cfg : PageCfg) (addr length : ℕ) : ℕ :=
  if length = 0 then 0
  else
    let last := min (addr + length) (2 ^ 64 - 1) - 1
    let startPage := addr / cfg.pageSize
    let endPage := last / cfg.pageSize
    endPage - startPage + 1

end OpenRdma
