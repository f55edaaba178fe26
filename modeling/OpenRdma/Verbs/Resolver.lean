import OpenRdma.Core.Checked
import OpenRdma.Mem.Pages

/-!
# The two ways to resolve virtual addresses

`virt_to_phys` resolves one address: it reads the pagemap of the process and, where the page is
absent, asks the translator for GPU pointers.  The trait's `virt_to_phys_range` does so page by
page.  The resolver for Linux replaces it by a loop of its own over the pagemap, with a second loop
for GPU pointers, which reads the pagemap again and not the translator.

A file either does not open, or is read at an offset; reading may fail.  Both may depend on
anything, but do not change during a call.  A panic is the end of a computation like an error.

* **`virtToPhysRange_agrees_iff`** — when the two ways give the same.
-/

namespace OpenRdma

open Checked

namespace Resolver

variable {ε : Type}

/-! ## The system -/

/-- Why a call does not return a result: an error of the system, an address that does not exist, or
a panic. -/
inductive Stop (ε : Type) where
  | os (e : ε)
  | addressOverflow
  | panic
deriving DecidableEq, Repr

/-- The files of the resolver: `/proc/self/pagemap` and `/dev/gpu_ptr_translator`.  Each one may
fail to open; `read_exact` of eight bytes at an offset may fail. -/
structure SystemFiles (ε : Type) where
  pagemap : Except ε (ℕ → Except ε UInt64)
  gpuPtrTranslator : Except ε (ℕ → Except ε UInt64)

/-- A virtual address that is aligned to a page. -/
structure PageAlignedVirtAddr (cfg : PageCfg) where
  val : ℕ
  lt : val < 2 ^ 64
  aligned : cfg.pageSize ∣ val

/-- The `?` on a result of the system. -/
def ofSystem {α : Type} : Except ε α → Except (Stop ε) α
  | .ok a => .ok a
  | .error e => .error (.os e)

/-- Arithmetic that may panic. -/
def orPanic {α : Type} : Option α → Except (Stop ε) α
  | some a => .ok a
  | none => .error .panic

/-- `get_base_page_size()` on x86-64, in whose units the pagemap is indexed whatever the page
size. -/
def basePageSize : ℕ := 0x1000

/-- Bit 63 of an entry. -/
def pagePresent (entry : UInt64) : Bool := (entry >>> 63) &&& 1 ≠ 0

/-- Bits 0 to 54 of an entry. -/
def pfn (entry : UInt64) : ℕ := (entry &&& 0x7fffffffffffff).toNat

/-- Where the entry of an address is in the file. -/
def entryOffset (addr : ℕ) : ℕ := 8 * (addr / basePageSize)

/-! ## One address -/

def getPaFromFile (build : Build) (virtAddr : ℕ) (file : ℕ → Except ε UInt64) :
    Except (Stop ε) (Option ℕ) := do
  let entry ← ofSystem (file (entryOffset virtAddr))
  if pagePresent entry then
    let frame ← orPanic (build.mul (pfn entry) basePageSize)
    let physAddr ← orPanic (build.add frame (virtAddr % basePageSize))
    return some physAddr
  else return none

/-- What the translator for GPU pointers says.  If it does not open, or fails, it says nothing. -/
def gpuPa (build : Build) (sys : SystemFiles ε) (virtAddr : ℕ) : Except (Stop ε) (Option ℕ) :=
  match sys.gpuPtrTranslator with
  | .error _ => .ok none
  | .ok file =>
    match getPaFromFile build virtAddr file with
    | .ok pa => .ok pa
    | .error .panic => .error .panic
    | .error _ => .ok none

def virtToPhys (build : Build) (sys : SystemFiles ε) (virtAddr : ℕ) :
    Except (Stop ε) (Option ℕ) := do
  let file ← ofSystem sys.pagemap
  match ← getPaFromFile build virtAddr file with
  | some pa => return some pa
  | none => gpuPa build sys virtAddr

/-! ## Ranges -/

/-- `VirtAddr::offset` -/
def offsetAddr (addr offset : ℕ) : Except (Stop ε) ℕ :=
  if addr + offset < 2 ^ 64 then .ok (addr + offset) else .error .addressOverflow

/-- A page of the trait's `virt_to_phys_range`, over any way to resolve one address. -/
def traitPage (build : Build) (cfg : PageCfg) (virtToPhys : ℕ → Except (Stop ε) (Option ℕ))
    (start x : ℕ) : Except (Stop ε) (Option ℕ) := do
  let offset ← orPanic (build.mul x cfg.pageSize)
  let addr ← offsetAddr start offset
  virtToPhys addr

def defaultPage (build : Build) (cfg : PageCfg) (sys : SystemFiles ε) :
    ℕ → ℕ → Except (Stop ε) (Option ℕ) :=
  traitPage build cfg (virtToPhys build sys)

/-- The trait's `virt_to_phys_range`. -/
def defaultPages (build : Build) (cfg : PageCfg) (sys : SystemFiles ε)
    (start : PageAlignedVirtAddr cfg) (numPages : ℕ) : Except (Stop ε) (List (Option ℕ)) :=
  (List.range numPages).mapM (defaultPage build cfg sys start.val)

/-- A page of the resolver's loop.  An address of zero is left out. -/
def pagemapPage (build : Build) (file : ℕ → Except ε UInt64) (addr : ℕ) :
    Except (Stop ε) (Option ℕ) := do
  let entry ← ofSystem (file (entryOffset addr))
  if pagePresent entry then
    let physAddr ← orPanic (build.mul (pfn entry) basePageSize)
    return if physAddr = 0 then none else some physAddr
  else return none

/-- The loop over the pages: a page that is found replaces the value that is there. -/
def fillPages (build : Build) (cfg : PageCfg) (file : ℕ → Except ε UInt64) :
    ℕ → List (Option ℕ) → Except (Stop ε) (List (Option ℕ))
  | _, [] => .ok []
  | addr, pa :: pas => do
    let found ← pagemapPage build file addr
    let next ← orPanic (build.add addr cfg.pageSize)
    let rest ← fillPages build cfg file next pas
    return (found <|> pa) :: rest

/-- `PhysAddrResolverLinuxX86::virt_to_phys_range`.  The second loop is over the same file. -/
def virtToPhysRange (build : Build) (cfg : PageCfg) (sys : SystemFiles ε)
    (start : PageAlignedVirtAddr cfg) (numPages : ℕ) : Except (Stop ε) (List (Option ℕ)) := do
  let file ← ofSystem sys.pagemap
  let physAddrs ← fillPages build cfg file start.val (List.replicate numPages none)
  -- `maybe_gpu_ptr`: no page has been found
  if physAddrs.all Option.isNone then
    match sys.gpuPtrTranslator with
    | .error _ => return physAddrs
    | .ok _ => fillPages build cfg file start.val physAddrs
  else return physAddrs

section Loops

variable {build : Build} {cfg : PageCfg} {file : ℕ → Except ε UInt64} {sys : SystemFiles ε}

/-- A second loop over the same file changes nothing. -/
lemma fillPages_again {addr : ℕ} {pas out : List (Option ℕ)}
    (h : fillPages build cfg file addr pas = .ok out) :
    fillPages build cfg file addr out = .ok out := by
  induction pas generalizing addr out with
  | nil =>
    cases h
    rfl
  | cons pa pas ih =>
    obtain ⟨found, hfound, h⟩ := bind_eq_ok h
    obtain ⟨next, hnext, h⟩ := bind_eq_ok h
    obtain ⟨rest, hrest, h⟩ := bind_eq_ok h
    cases h
    have hkeep : (found <|> (found <|> pa)) = (found <|> pa) := by
      cases found <;> rfl
    simp only [fillPages, bind, Except.bind, hfound, hnext, ih hrest]
    exact congrArg (fun v => Except.ok (v :: rest)) hkeep

/-- **The resolver reads the pagemap and nothing else.** -/
lemma virtToPhysRange_eq (hopen : sys.pagemap = .ok file) (start : PageAlignedVirtAddr cfg)
    (n : ℕ) :
    virtToPhysRange build cfg sys start n =
      fillPages build cfg file start.val (List.replicate n none) := by
  unfold virtToPhysRange
  rw [hopen]
  cases hfill : fillPages build cfg file start.val (List.replicate n none) with
  | error e =>
    show (fillPages build cfg file start.val (List.replicate n none) >>= _) = _
    rw [hfill]
    rfl
  | ok out =>
    show (fillPages build cfg file start.val (List.replicate n none) >>= _) = _
    rw [hfill]
    show (if out.all Option.isNone then _ else _) = _
    split
    · cases sys.gpuPtrTranslator with
      | error e => rfl
      | ok gpu => exact fillPages_again hfill
    · rfl

/-- The pages of a range, where all of them exist. -/
lemma fillPages_eq_ok {addr n : ℕ} {out : List (Option ℕ)}
    (h : fillPages build cfg file addr (List.replicate n none) = .ok out)
    (hend : addr + n * cfg.pageSize ≤ 2 ^ 64) :
    out = (List.range n).map fun i =>
      ((pagemapPage build file (addr + i * cfg.pageSize)).toOption).join := by
  induction n generalizing addr out with
  | zero => exact (Except.ok.inj h).symm
  | succ n ih =>
    obtain ⟨found, hfound, h⟩ := bind_eq_ok h
    obtain ⟨next, hnext, h⟩ := bind_eq_ok h
    obtain ⟨rest, hrest, h⟩ := bind_eq_ok h
    cases h
    have hkeep : (found <|> none) = found := by cases found <;> rfl
    have hstep : ∀ i, addr + cfg.pageSize + i * cfg.pageSize = addr + (i + 1) * cfg.pageSize :=
      fun i => by rw [Nat.add_mul, Nat.one_mul, Nat.add_comm (i * _), Nat.add_assoc]
    have hrest' : rest = (List.range n).map fun i =>
        ((pagemapPage build file (addr + (i + 1) * cfg.pageSize)).toOption).join := by
      cases n with
      | zero => exact (Except.ok.inj hrest).symm
      | succ n =>
        -- there is a page after this one, so its address does not wrap
        have hpos := cfg.pageSize_pos
        have hlt : addr + cfg.pageSize < 2 ^ 64 := by
          have := hstep (n + 1)
          rw [Nat.add_mul (n + 1), Nat.add_mul n] at hend this
          omega
        rw [build.add_of_lt hlt] at hnext
        obtain rfl := Except.ok.inj hnext
        rw [ih hrest (by rw [hstep]; exact hend)]
        exact List.map_congr_left fun i _ => by rw [hstep]
    rw [List.range_succ_eq_map, List.map_cons, List.map_map, hkeep, hrest', Nat.zero_mul,
      Nat.add_zero, hfound]
    rfl

/-! ## One page in the two ways -/

/-- A page that both ways resolve to the same: it is present, in a frame with an address other than
zero, or it is absent and the translator does not know it either. -/
def PageAgrees (build : Build) (sys : SystemFiles ε) (file : ℕ → Except ε UInt64)
    (addr : ℕ) : Prop :=
  ∃ entry, file (entryOffset addr) = .ok entry ∧
    if pagePresent entry then ∃ frame, build.mul (pfn entry) basePageSize = some frame ∧ frame ≠ 0
    else gpuPa build sys addr = .ok none

/-- A page that a single address can be resolved in: its entry can be read, and no arithmetic on it
panics. -/
def PageReads (build : Build) (sys : SystemFiles ε) (file : ℕ → Except ε UInt64)
    (addr : ℕ) : Prop :=
  ∃ entry, file (entryOffset addr) = .ok entry ∧
    if pagePresent entry then build.mul (pfn entry) basePageSize ≠ none
    else gpuPa build sys addr ≠ .error .panic

section Page

variable {addr : ℕ} {entry : UInt64}

lemma pagemapPage_error {e : ε} (hread : file (entryOffset addr) = .error e) :
    pagemapPage build file addr = .error (.os e) := by
  rw [pagemapPage, hread]
  rfl

lemma virtToPhys_error (hopen : sys.pagemap = .ok file) {e : ε}
    (hread : file (entryOffset addr) = .error e) : virtToPhys build sys addr = .error (.os e) := by
  rw [virtToPhys, hopen]
  show ((getPaFromFile build addr file) >>= _) = _
  rw [getPaFromFile, hread]
  rfl

lemma pagemapPage_absent (hread : file (entryOffset addr) = .ok entry)
    (habsent : pagePresent entry = false) : pagemapPage build file addr = .ok none := by
  rw [pagemapPage, hread]
  show (if pagePresent entry = true then _ else _) = _
  rw [habsent]
  rfl

lemma virtToPhys_absent (hopen : sys.pagemap = .ok file)
    (hread : file (entryOffset addr) = .ok entry) (habsent : pagePresent entry = false) :
    virtToPhys build sys addr = gpuPa build sys addr := by
  have hnone : getPaFromFile build addr file = .ok none := by
    rw [getPaFromFile, hread]
    show (if pagePresent entry = true then _ else _) = _
    rw [habsent]
    rfl
  rw [virtToPhys, hopen]
  show (getPaFromFile build addr file >>= _) = _
  rw [hnone]
  rfl

lemma pagemapPage_present (hread : file (entryOffset addr) = .ok entry)
    (hpresent : pagePresent entry = true) :
    pagemapPage build file addr =
      (orPanic (build.mul (pfn entry) basePageSize)).map fun frame => if frame =
        0 then none else some frame := by
  rw [pagemapPage, hread]
  show (if pagePresent entry = true then _ else _) = _
  rw [if_pos hpresent]
  cases build.mul (pfn entry) basePageSize <;> rfl

lemma virtToPhys_present (hopen : sys.pagemap = .ok file)
    (hread : file (entryOffset addr) = .ok entry) (hpresent : pagePresent entry = true)
    (haligned : basePageSize ∣ addr) :
    virtToPhys build sys addr = (orPanic (build.mul (pfn entry) basePageSize)).map some := by
  have hpa : getPaFromFile build addr file =
      (orPanic (build.mul (pfn entry) basePageSize)).map some := by
    rw [getPaFromFile, hread]
    show (if pagePresent entry = true then _ else _) = _
    rw [if_pos hpresent, Nat.mod_eq_zero_of_dvd haligned]
    cases hmul : build.mul (pfn entry) basePageSize with
    | none => rfl
    | some frame =>
      show (orPanic (build.add frame 0) >>= _) = _
      rw [build.add_of_lt (Build.mul_lt hmul)]
      rfl
  rw [virtToPhys, hopen]
  show (getPaFromFile build addr file >>= _) = _
  rw [hpa]
  cases build.mul (pfn entry) basePageSize <;> rfl

/-- The translator says something, or nothing, or panics. -/
lemma gpuPa_cases (build : Build) (sys : SystemFiles ε) (addr : ℕ) :
    gpuPa build sys addr = .error .panic ∨ ∃ w, gpuPa build sys addr = .ok w := by
  unfold gpuPa
  cases sys.gpuPtrTranslator with
  | error e => exact .inr ⟨none, rfl⟩
  | ok gpu =>
    dsimp only
    split
    · exact .inr ⟨_, rfl⟩
    · exact .inl rfl
    · exact .inr ⟨_, rfl⟩

/-- **What a single address says of the files**: it fails with an error of the system if the entry
cannot be read, and is resolved if the page reads. -/
lemma virtToPhys_iff (build : Build) (hopen : sys.pagemap = .ok file)
    (haligned : basePageSize ∣ addr) :
    ((∃ e, virtToPhys build sys addr = .error (.os e)) ↔
      ∃ e, file (entryOffset addr) = .error e) ∧
    ((∃ v, virtToPhys build sys addr = .ok v) ↔ PageReads build sys file addr) := by
  cases hread : file (entryOffset addr) with
  | error e =>
    rw [virtToPhys_error hopen hread]
    simp [PageReads, hread]
  | ok entry =>
    cases hpresent : pagePresent entry with
    | false =>
      rw [virtToPhys_absent hopen hread hpresent]
      rcases gpuPa_cases build sys addr with hpanic | ⟨w, hw⟩
      · simp [PageReads, hread, hpresent, hpanic]
      · simp [PageReads, hread, hpresent, hw]
    | true =>
      rw [virtToPhys_present hopen hread hpresent haligned]
      cases hmul : build.mul (pfn entry) basePageSize <;>
        simp [PageReads, hread, hpresent, hmul, orPanic, Except.map]

/-- Both ways fail to read a page, or panic, or the loop goes on. -/
lemma page_cases (build : Build) (hopen : sys.pagemap = .ok file) (haligned : basePageSize ∣ addr) :
    (∃ e, pagemapPage build file addr = .error (.os e) ∧
      virtToPhys build sys addr = .error (.os e)) ∨
    (pagemapPage build file addr = .error .panic ∧ virtToPhys build sys addr = .error .panic) ∨
    ∃ v, pagemapPage build file addr = .ok v ∧
      (virtToPhys build sys addr = .error .panic ∨ ∃ w, virtToPhys build sys addr = .ok w) := by
  cases hread : file (entryOffset addr) with
  | error e => exact .inl ⟨e, pagemapPage_error hread, virtToPhys_error hopen hread⟩
  | ok entry =>
    cases hpresent : pagePresent entry with
    | false =>
      refine .inr (.inr ⟨none, pagemapPage_absent hread hpresent, ?_⟩)
      rw [virtToPhys_absent hopen hread hpresent]
      exact gpuPa_cases build sys addr
    | true =>
      rw [pagemapPage_present hread hpresent, virtToPhys_present hopen hread hpresent haligned]
      cases build.mul (pfn entry) basePageSize with
      | none => exact .inr (.inl ⟨rfl, rfl⟩)
      | some frame => exact .inr (.inr ⟨_, rfl, .inr ⟨_, rfl⟩⟩)

/-- **A page agrees exactly if both ways return the same for it.** -/
lemma pageAgrees_iff (build : Build) (hopen : sys.pagemap = .ok file)
    (haligned : basePageSize ∣ addr) :
    PageAgrees build sys file addr ↔
      ∃ v, pagemapPage build file addr = .ok v ∧ virtToPhys build sys addr = .ok v := by
  cases hread : file (entryOffset addr) with
  | error e =>
    rw [pagemapPage_error hread]
    simp [PageAgrees, hread]
  | ok entry =>
    cases hpresent : pagePresent entry with
    | false =>
      rw [pagemapPage_absent hread hpresent, virtToPhys_absent hopen hread hpresent]
      simp [PageAgrees, hread, hpresent]
    | true =>
      rw [pagemapPage_present hread hpresent, virtToPhys_present hopen hread hpresent haligned]
      cases hmul : build.mul (pfn entry) basePageSize with
      | none => simp [PageAgrees, hread, hpresent, hmul, orPanic, Except.map]
      | some frame =>
        by_cases hzero : frame = 0 <;>
          simp [PageAgrees, hread, hpresent, hmul, orPanic, Except.map, hzero]

end Page

/-! ## The loops -/

/-- From page `x` on, one of `n` pages cannot be read, and no page before it panics. -/
def FailsFrom (build : Build) (cfg : PageCfg) (sys : SystemFiles ε) (file : ℕ → Except ε UInt64)
    (start : ℕ) : ℕ → ℕ → Prop
  | 0, _ => False
  | n + 1, x => start + x * cfg.pageSize < 2 ^ 64 ∧
      ((∃ e, file (entryOffset (start + x * cfg.pageSize)) = .error e) ∨
        PageReads build sys file (start + x * cfg.pageSize) ∧
          FailsFrom build cfg sys file start n (x + 1))

/-- From page `x` on, `n` pages exist and agree; where sums are checked, so does the address after
them. -/
def AgreesFrom (build : Build) (cfg : PageCfg) (sys : SystemFiles ε) (file : ℕ → Except ε UInt64)
    (start : ℕ) :
    ℕ → ℕ → Prop
  | 0, x => build.overflowChecks = true → start + x * cfg.pageSize < 2 ^ 64
  | n + 1, x =>
    start + x * cfg.pageSize < 2 ^ 64 ∧ PageAgrees build sys file (start + x * cfg.pageSize) ∧
      AgreesFrom build cfg sys file start n (x + 1)

lemma failsFrom_iff {start n x : ℕ} : FailsFrom build cfg sys file start n x ↔
    ∃ m < n, start + (x + m) * cfg.pageSize < 2 ^ 64 ∧
      (∃ e, file (entryOffset (start + (x + m) * cfg.pageSize)) = .error e) ∧
      ∀ i < m, PageReads build sys file (start + (x + i) * cfg.pageSize) := by
  induction n generalizing x with
  | zero => simp [FailsFrom]
  | succ n ih =>
    rw [FailsFrom, ih]
    constructor
    · rintro ⟨hlt, hfails | ⟨hok, m, hm, hrange, herror, hbefore⟩⟩
      · exact ⟨0, Nat.succ_pos n, hlt, hfails, fun i hi => absurd hi (Nat.not_lt_zero i)⟩
      · refine ⟨m + 1, Nat.succ_lt_succ hm, ?_, ?_, ?_⟩
        · rwa [Nat.add_right_comm, Nat.add_assoc] at hrange
        · rwa [Nat.add_right_comm, Nat.add_assoc] at herror
        · intro i hi
          cases i with
          | zero => exact hok
          | succ i =>
            have := hbefore i (Nat.lt_of_succ_lt_succ hi)
            rwa [Nat.add_right_comm, Nat.add_assoc] at this
    · rintro ⟨m, hm, hrange, herror, hbefore⟩
      cases m with
      | zero => exact ⟨hrange, .inl herror⟩
      | succ m =>
        refine ⟨?_, .inr ⟨hbefore 0 (Nat.succ_pos m), m, Nat.lt_of_succ_lt_succ hm, ?_, ?_, ?_⟩⟩
        · refine lt_of_le_of_lt (Nat.add_le_add_left (Nat.mul_le_mul_right _ ?_) _) hrange
          exact Nat.le_add_right x (m + 1)
        · rwa [Nat.add_right_comm, Nat.add_assoc]
        · rwa [Nat.add_right_comm, Nat.add_assoc]
        · intro i hi
          have := hbefore (i + 1) (Nat.succ_lt_succ hi)
          rwa [Nat.add_right_comm, Nat.add_assoc]

lemma agreesFrom_iff {start n x : ℕ} : AgreesFrom build cfg sys file start n x ↔
    (∀ i < n, start + (x + i) * cfg.pageSize < 2 ^ 64 ∧
      PageAgrees build sys file (start + (x + i) * cfg.pageSize)) ∧
    (build.overflowChecks = true → start + (x + n) * cfg.pageSize < 2 ^ 64) := by
  induction n generalizing x with
  | zero => simp [AgreesFrom]
  | succ n ih =>
    rw [AgreesFrom, ih, Nat.forall_lt_succ_left]
    simp only [Nat.add_right_comm x 1, Nat.add_assoc, Nat.add_zero, and_assoc]

/-- The loop does not know addresses that do not exist. -/
lemma fillPages_ne_overflow {addr : ℕ} {pas : List (Option ℕ)} :
    fillPages build cfg file addr pas ≠ .error .addressOverflow := by
  induction pas generalizing addr with
  | nil => nofun
  | cons pa pas ih =>
    intro h
    unfold fillPages at h
    cases hpage : pagemapPage build file addr with
    | error e =>
      rw [hpage] at h
      cases Except.error.inj h
      rw [pagemapPage] at hpage
      cases hread : file (entryOffset addr) with
      | error e =>
        rw [hread] at hpage
        cases hpage
      | ok entry =>
        rw [hread] at hpage
        replace hpage : (if pagePresent entry = true then _ else _) = _ := hpage
        split at hpage
        · cases hmul : build.mul (pfn entry) basePageSize <;> rw [hmul] at hpage <;> cases hpage
        · cases hpage
    | ok found =>
      rw [hpage] at h
      cases hadd : build.add addr cfg.pageSize with
      | none =>
        rw [hadd] at h
        cases h
      | some next =>
        rw [hadd] at h
        replace h : (fillPages build cfg file next pas >>= _) = _ := h
        cases hrest : fillPages build cfg file next pas with
        | error e =>
          rw [hrest] at h
          cases Except.error.inj h
          exact ih hrest
        | ok rest =>
          rw [hrest] at h
          cases h

/-- Where every page can be read, and sums wrap, the loop comes to its end. -/
lemma fillPages_wraps (hwraps : build.overflowChecks = false)
    (hall : ∀ a, a < 2 ^ 64 → cfg.pageSize ∣ a → ∃ v, pagemapPage build file a = .ok v)
    {addr : ℕ} (hlt : addr < 2 ^ 64) (haligned : cfg.pageSize ∣ addr) (pas : List (Option ℕ)) :
    ∃ out, fillPages build cfg file addr pas = .ok out := by
  induction pas generalizing addr with
  | nil => exact ⟨[], rfl⟩
  | cons pa pas ih =>
    obtain ⟨v, hv⟩ := hall addr hlt haligned
    have hadd : build.add addr cfg.pageSize = some ((addr + cfg.pageSize) % 2 ^ 64) := by
      rw [Build.add, hwraps]
      split
      · rename_i hsum
        rw [Nat.mod_eq_of_lt hsum]
      · rfl
    obtain ⟨rest, hrest⟩ := ih (Nat.mod_lt (addr + cfg.pageSize) (by decide))
      ((Nat.dvd_mod_iff cfg.pageSize_dvd).2 (Dvd.dvd.add haligned dvd_rfl))
    refine ⟨(v <|> pa) :: rest, ?_⟩
    simp only [fillPages, bind, Except.bind, hv, hadd, orPanic, hrest]
    rfl

/-- A page that exists is resolved as a single address. -/
lemma defaultPage_of_lt {start x : ℕ} (hlt : start + x * cfg.pageSize < 2 ^ 64) :
    defaultPage build cfg sys start x = virtToPhys build sys (start + x * cfg.pageSize) := by
  have hmul := build.mul_of_lt (show x * cfg.pageSize < 2 ^ 64 by omega)
  simp only [defaultPage, traitPage, hmul, orPanic, bind, Except.bind, offsetAddr, if_pos hlt]

lemma basePageSize_dvd (cfg : PageCfg) : basePageSize ∣ cfg.pageSize := by
  cases cfg <;> decide

/-- After the last page of the address space comes nothing, or the first page again. -/
lemma defaultPage_end (sys : SystemFiles ε) {start : PageAlignedVirtAddr cfg} {x : ℕ}
    (hend : start.val + (x + 1) * cfg.pageSize = 2 ^ 64) :
    start.val = 0 ∨ defaultPage build cfg sys start.val (x + 1) = .error .addressOverflow := by
  rcases Nat.eq_zero_or_pos start.val with hzero | hpos
  · exact .inl hzero
  · refine .inr ?_
    have hmul := build.mul_of_lt (show (x + 1) * cfg.pageSize < 2 ^ 64 by omega)
    simp only [defaultPage, traitPage, hmul, orPanic, bind, Except.bind, offsetAddr]
    rw [if_neg (by omega)]

section Induction

variable {start : PageAlignedVirtAddr cfg}

lemma page_aligned (start : PageAlignedVirtAddr cfg) (x : ℕ) :
    cfg.pageSize ∣ start.val + x * cfg.pageSize :=
  start.aligned.add (Dvd.intro_left x rfl)

/-- A page that ends where no page begins is the last one of the address space. -/
lemma next_eq_end {x : ℕ} (hlt : start.val + x * cfg.pageSize < 2 ^ 64)
    (hnext : ¬ start.val + (x + 1) * cfg.pageSize < 2 ^ 64) :
    start.val + (x + 1) * cfg.pageSize = 2 ^ 64 := by
  have hpos := cfg.pageSize_pos
  obtain ⟨k, hk⟩ := cfg.pageSize_dvd
  obtain ⟨j, hj⟩ := page_aligned start x
  have hjk : j < k := by
    rw [hj, hk] at hlt
    exact Nat.lt_of_mul_lt_mul_left hlt
  have hle : cfg.pageSize * (j + 1) ≤ cfg.pageSize * k := Nat.mul_le_mul_left _ hjk
  rw [Nat.mul_succ, ← hj, ← hk] at hle
  have hstep :
      start.val + (x + 1) * cfg.pageSize = start.val + x * cfg.pageSize + cfg.pageSize := by
    ring
  omega

/-- At the last page of the address space, where sums wrap: the two loops fail for the same reason
in no case. -/
lemma not_fails_at_end (sys : SystemFiles ε) (hwraps : build.overflowChecks = false) {n x : ℕ}
    (hend : start.val + (x + 1) * cfg.pageSize = 2 ^ 64)
    (hseen : ∀ j < x + 1, ∃ v, pagemapPage build file (start.val + j * cfg.pageSize) = .ok v)
    {e : Stop ε} (hfill : fillPages build cfg file 0 (List.replicate n none) = .error e)
    (hdefault : (List.range' (x + 1) n).mapM (defaultPage build cfg sys start.val) = .error e) :
    False := by
  have hpos := cfg.pageSize_pos
  cases n with
  | zero => cases hfill
  | succ n =>
    rcases defaultPage_end sys hend with hzero | hoverflow
    · -- all pages have been read once
      have hall : ∀ a, a < 2 ^ 64 → cfg.pageSize ∣ a → ∃ v, pagemapPage build file a = .ok v := by
        rintro a ha ⟨j, rfl⟩
        rw [hzero, Nat.zero_add] at hend
        rw [← hend, Nat.mul_comm] at ha
        have := hseen j (Nat.lt_of_mul_lt_mul_right ha)
        rwa [hzero, Nat.zero_add, Nat.mul_comm] at this
      obtain ⟨out, hout⟩ :=
        fillPages_wraps hwraps hall (by decide) (dvd_zero _) (List.replicate (n + 1) none)
      rw [hout] at hfill
      cases hfill
    · rw [List.range'_succ, List.mapM_cons, hoverflow] at hdefault
      cases Except.error.inj hdefault
      exact fillPages_ne_overflow hfill

/-- **The two loops, page by page.** -/
theorem loops_iff (build : Build) (start : PageAlignedVirtAddr cfg) (hopen : sys.pagemap = .ok file)
    (n : ℕ) :
    ∀ x, start.val + x * cfg.pageSize < 2 ^ 64 →
    (∀ j < x, ∃ v, pagemapPage build file (start.val + j * cfg.pageSize) = .ok v) →
    ((∃ e, e ≠ .panic ∧
        fillPages build cfg file (start.val + x * cfg.pageSize) (List.replicate n none) = .error e ∧
        (List.range' x n).mapM (defaultPage build cfg sys start.val) = .error e) ↔
      FailsFrom build cfg sys file start.val n x) ∧
    (((∃ pas, fillPages build cfg file (start.val + x * cfg.pageSize) (List.replicate n none) =
      .ok pas ∧
        (List.range' x n).mapM (defaultPage build cfg sys start.val) = .ok pas) ∧
        ∀ i < n, start.val + (x + i) * cfg.pageSize < 2 ^ 64) ↔
      AgreesFrom build cfg sys file start.val n x) := by
  have hpos := cfg.pageSize_pos
  induction n with
  | zero =>
    intro x hlt _
    refine ⟨?_, ?_⟩
    · simp [FailsFrom, fillPages]
    · have hend : AgreesFrom build cfg sys file start.val 0 x := fun _ => hlt
      simp [hend, fillPages, pure, Except.pure]
  | succ n ih =>
    intro x hlt hseen
    have hbase : basePageSize ∣ start.val + x * cfg.pageSize :=
      (basePageSize_dvd cfg).trans (page_aligned start x)
    have hagrees := pageAgrees_iff build hopen hbase
    rw [List.range'_succ, List.mapM_cons, defaultPage_of_lt hlt, List.replicate_succ, fillPages,
      FailsFrom, AgreesFrom, Nat.forall_lt_succ_left, hagrees,
      ← (virtToPhys_iff build hopen hbase).1, ← (virtToPhys_iff build hopen hbase).2]
    simp only [hlt, true_and, Nat.add_zero]
    rcases page_cases build hopen hbase with ⟨e, hpage, hvirt⟩ | ⟨hpage, hvirt⟩ | ⟨v, hpage, hvirt⟩
    · simp [hpage, hvirt, bind, Except.bind]
    · simp [hpage, hvirt, bind, Except.bind]
    · have hfill : ∀ next, build.add (start.val + x * cfg.pageSize) cfg.pageSize = some next →
          (do
            let found ← pagemapPage build file (start.val + x * cfg.pageSize)
            let next ← orPanic (build.add (start.val + x * cfg.pageSize) cfg.pageSize)
            let rest ← fillPages build cfg file next (List.replicate n none)
            return (found <|> none) :: rest) =
          (fillPages build cfg file next (List.replicate n none)).map (v :: ·) := by
        intro next hnext
        rw [hpage, hnext]
        have hv : (v <|> none) = v := by cases v <;> rfl
        show (fillPages build cfg file next (List.replicate n none) >>= fun rest =>
          Except.ok ((v <|> none) :: rest)) = _
        rw [hv]
        cases fillPages build cfg file next (List.replicate n none) <;> rfl
      rcases hvirt with hvirt | ⟨w, hvirt⟩
      · simp [hvirt, bind, Except.bind, hpage]
      have hdefault : (do
            let r ← virtToPhys build sys (start.val + x * cfg.pageSize)
            let rest ← (List.range' (x + 1) n).mapM (defaultPage build cfg sys start.val)
            return r :: rest) =
          ((List.range' (x + 1) n).mapM (defaultPage build cfg sys start.val)).map (w :: ·) := by
        rw [hvirt]
        show ((List.range' (x + 1) n).mapM (defaultPage build cfg sys start.val) >>= fun rest =>
          Except.ok (w :: rest)) = _
        cases (List.range' (x + 1) n).mapM (defaultPage build cfg sys start.val) <;> rfl
      have hstep :
          start.val + (x + 1) * cfg.pageSize = start.val + x * cfg.pageSize + cfg.pageSize := by
        ring
      have hseen' :
          ∀ j < x + 1, ∃ v, pagemapPage build file (start.val + j * cfg.pageSize) = .ok v := by
        intro j hj
        rcases Nat.lt_succ_iff_lt_or_eq.1 hj with hj | rfl
        · exact hseen j hj
        · exact ⟨v, hpage⟩
      rw [hdefault]
      by_cases hnext : start.val + (x + 1) * cfg.pageSize < 2 ^ 64
      · -- the next page exists
        obtain ⟨ihfails, ihagrees⟩ := ih (x + 1) hnext hseen'
        rw [hfill _ (build.add_of_lt (hstep ▸ hnext)), ← hstep, ← ihfails, ← ihagrees]
        have hshift : (∀ i < n, start.val + (x + (i + 1)) * cfg.pageSize < 2 ^ 64) ↔
            ∀ i < n, start.val + (x + 1 + i) * cfg.pageSize < 2 ^ 64 := by
          simp only [Nat.add_right_comm x 1, Nat.add_assoc]
        rw [hshift]
        generalize fillPages build cfg file (start.val + (x + 1) * cfg.pageSize)
          (List.replicate n none) = f
        generalize (List.range' (x + 1) n).mapM (defaultPage build cfg sys start.val) = d
        cases f <;> cases d <;> simp [hpage, hvirt, Except.map, and_assoc, eq_comm, and_left_comm]
      · have hlast : start.val + (x + 1) * cfg.pageSize = 2 ^ 64 := next_eq_end hlt hnext
        have hfails : ¬ FailsFrom build cfg sys file start.val n (x + 1) := by
          cases n with
          | zero => exact id
          | succ n => exact fun h => hnext h.1
        cases hchecks : build.overflowChecks with
        | true =>
          have hagrees : ¬ AgreesFrom build cfg sys file start.val n (x + 1) := by
            cases n with
            | zero => exact fun h => hnext (h hchecks)
            | succ n => exact fun h => hnext h.1
          have hadd : build.add (start.val + x * cfg.pageSize) cfg.pageSize = none := by
            rw [Build.add, if_neg (hstep ▸ hnext), if_pos hchecks]
          simp [hpage, hadd, hfails, hagrees, hvirt, orPanic, bind, Except.bind]
        | false =>
          have hadd : build.add (start.val + x * cfg.pageSize) cfg.pageSize = some 0 := by
            rw [Build.add, if_neg (hstep ▸ hnext), hchecks, ← hstep, hlast]
            rfl
          rw [hfill 0 hadd]
          refine ⟨?_, ?_⟩
          · refine iff_of_false ?_ (by simp [hvirt, hfails])
            rintro ⟨e, -, hleft, hright⟩
            refine not_fails_at_end sys hchecks hlast hseen' (n := n) (e := e) ?_ ?_
            · generalize fillPages build cfg file 0 (List.replicate n none) = f at hleft ⊢
              cases f <;> cases hleft
              rfl
            · generalize (List.range' (x + 1) n).mapM (defaultPage build cfg sys start.val) =
                d at hright ⊢
              cases d <;> cases hright
              rfl
          · cases n with
            | zero =>
              have hend : AgreesFrom build cfg sys file start.val 0 (x + 1) := by
                intro hchecked
                rw [hchecks] at hchecked
                cases hchecked
              simp [hpage, hvirt, hend, fillPages, Except.map, pure, Except.pure]
            | succ n =>
              refine iff_of_false ?_ (fun h => hnext h.2.1)
              rintro ⟨-, hrange⟩
              exact hnext (hrange 0 (Nat.succ_pos n))

end Induction

end Loops

/-! ## Agreement -/

/-- Both loops return, and the same, and every entry is what a single address resolves to. -/
def RangeAgrees (build : Build) (cfg : PageCfg) (sys : SystemFiles ε)
    (start : PageAlignedVirtAddr cfg) (n : ℕ) : Prop :=
  virtToPhysRange build cfg sys start n ≠ .error .panic ∧
  virtToPhysRange build cfg sys start n = defaultPages build cfg sys start n ∧
  ∀ pas, virtToPhysRange build cfg sys start n = .ok pas → ∀ i < n, ∃ pa, pas[i]? = some pa ∧
    start.val + i * cfg.pageSize < 2 ^ 64 ∧ virtToPhys build sys (start.val + i * cfg.pageSize) =
      .ok pa

/-- When the loops agree.  If the pagemap does not open, there has to be a page, as the trait's loop
would not notice otherwise.  If it opens, a page cannot be read and those before it read without a
panic, or all pages exist and agree; where sums are checked, there also has to be an address after
them. -/
def AgreesWhen (build : Build) (cfg : PageCfg) (sys : SystemFiles ε)
    (start : PageAlignedVirtAddr cfg) (n : ℕ) : Prop :=
  match sys.pagemap with
  | .error _ => 0 < n
  | .ok file =>
    (∃ m < n, start.val + m * cfg.pageSize < 2 ^ 64 ∧
      (∃ e, file (entryOffset (start.val + m * cfg.pageSize)) = .error e) ∧
      ∀ i < m, PageReads build sys file (start.val + i * cfg.pageSize)) ∨
    (∀ i < n, start.val + i * cfg.pageSize < 2 ^ 64 ∧
      PageAgrees build sys file (start.val + i * cfg.pageSize)) ∧
    (build.overflowChecks = true → start.val + n * cfg.pageSize < 2 ^ 64)

lemma defaultPages_getElem? {build : Build} {cfg : PageCfg} {sys : SystemFiles ε}
    {start : PageAlignedVirtAddr cfg} {n i : ℕ} {pas : List (Option ℕ)}
    (h : defaultPages build cfg sys start n = .ok pas) (hi : i < n)
    (hlt : start.val + i * cfg.pageSize < 2 ^ 64) :
    ∃ pa, pas[i]? = some pa ∧ virtToPhys build sys (start.val + i * cfg.pageSize) = .ok pa := by
  rw [← defaultPage_of_lt hlt]
  exact mapM_getElem? h (List.getElem?_range hi)

/-- **When the resolver's own loop agrees with `virt_to_phys` and with the loop of the trait.** -/
theorem virtToPhysRange_agrees_iff (build : Build) (cfg : PageCfg) (sys : SystemFiles ε)
    (start : PageAlignedVirtAddr cfg) (n : ℕ) :
    RangeAgrees build cfg sys start n ↔ AgreesWhen build cfg sys start n := by
  cases hopen : sys.pagemap with
  | error e =>
    have hrange : virtToPhysRange build cfg sys start n = .error (.os e) := by
      rw [virtToPhysRange, hopen]
      rfl
    have hvirt : ∀ a, virtToPhys build sys a = .error (.os e) := by
      intro a
      rw [virtToPhys, hopen]
      rfl
    simp only [AgreesWhen, hopen, RangeAgrees, hrange]
    cases n with
    | zero => simp [defaultPages, pure, Except.pure]
    | succ n =>
      have hlt : start.val + 0 * cfg.pageSize < 2 ^ 64 := by
        rw [Nat.zero_mul]
        exact start.lt
      rw [defaultPages, List.range_eq_range', List.range'_succ, List.mapM_cons,
        defaultPage_of_lt hlt, hvirt]
      simp [bind, Except.bind]
  | ok file =>
    have hzero : start.val + 0 * cfg.pageSize = start.val := by rw [Nat.zero_mul, Nat.add_zero]
    have hlt : start.val + 0 * cfg.pageSize < 2 ^ 64 := by
      rw [hzero]
      exact start.lt
    obtain ⟨hfails, hagrees⟩ := loops_iff build start hopen n 0 hlt
      (fun j hj => absurd hj (Nat.not_lt_zero j))
    rw [failsFrom_iff] at hfails
    rw [agreesFrom_iff] at hagrees
    simp only [Nat.zero_add, hzero] at hfails hagrees
    simp only [AgreesWhen, hopen]
    rw [← hfails, ← hagrees, RangeAgrees, virtToPhysRange_eq hopen, defaultPages,
      List.range_eq_range']
    constructor
    · rintro ⟨hpanic, hsame, hentries⟩
      cases hfill : fillPages build cfg file start.val (List.replicate n none) with
      | error e =>
        rw [hfill] at hpanic hsame
        exact .inl ⟨e, fun h => hpanic (congrArg _ h), rfl, hsame.symm⟩
      | ok pas =>
        rw [hfill] at hsame
        refine .inr ⟨⟨pas, rfl, hsame.symm⟩, fun i hi => ?_⟩
        obtain ⟨pa, -, hlt, -⟩ := hentries pas hfill i hi
        exact hlt
    · rintro (⟨e, hne, hfill, hdefault⟩ | ⟨⟨pas, hfill, hdefault⟩, hrange⟩)
      · rw [hfill, hdefault]
        refine ⟨fun h => hne (Except.error.inj h), rfl, ?_⟩
        intro pas h
        cases h
      · rw [hfill, hdefault]
        refine ⟨nofun, rfl, ?_⟩
        intro pas' h i hi
        cases h
        have hpages : defaultPages build cfg sys start n = .ok pas := by
          rw [defaultPages, List.range_eq_range', hdefault]
        obtain ⟨pa, hpa, hvirt⟩ := defaultPages_getElem? hpages hi (hrange i hi)
        exact ⟨pa, hpa, hrange i hi, hvirt⟩

/-- A page of a GPU: absent from the pagemap, and in frame 5 for the translator. -/
def gpuPage : SystemFiles Unit where
  pagemap := .ok fun _ => .ok 0
  gpuPtrTranslator := .ok fun _ => .ok 0x8000000000000005

/-- A process that may not see the frames of its pages: the page is present, in frame zero. -/
def hiddenFrame : SystemFiles Unit where
  pagemap := .ok fun _ => .ok 0x8000000000000000
  gpuPtrTranslator := .error ()

/-- The address of one page. -/
def onePage : PageAlignedVirtAddr .pageSize4k := ⟨0x7f0000000000, by decide, by decide⟩

/-- Of a page of a GPU the loop finds nothing, though a single address is resolved; and of a page in
frame zero it finds nothing either. -/
theorem virtToPhysRange_disagrees :
    virtToPhysRange ⟨true, true⟩ .pageSize4k gpuPage onePage 1 = .ok [none] ∧
    virtToPhys ⟨true, true⟩ gpuPage onePage.val = .ok (some 0x5000) ∧
    defaultPages ⟨true, true⟩ .pageSize4k gpuPage onePage 1 = .ok [some 0x5000] ∧
    ¬ RangeAgrees ⟨true, true⟩ .pageSize4k gpuPage onePage 1 ∧
    virtToPhysRange ⟨true, true⟩ .pageSize4k hiddenFrame onePage 1 = .ok [none] ∧
    virtToPhys ⟨true, true⟩ hiddenFrame onePage.val = .ok (some 0) := by
  have hrange : virtToPhysRange ⟨true, true⟩ .pageSize4k gpuPage onePage 1 = .ok [none] := by
    decide +kernel
  have hdefault : defaultPages ⟨true, true⟩ .pageSize4k gpuPage onePage 1 = .ok [some 0x5000] := by
    decide +kernel
  refine ⟨hrange, by decide +kernel, hdefault, ?_, by decide +kernel, by decide +kernel⟩
  rintro ⟨-, hsame, -⟩
  rw [hrange, hdefault] at hsame
  cases hsame

end Resolver

end OpenRdma
