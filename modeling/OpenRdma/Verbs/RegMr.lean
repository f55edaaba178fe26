import OpenRdma.RdmaUtils.Mtt
import OpenRdma.Verbs.Resolver

/-!
# Registering a memory region

`regMr` takes a key, page table entries and pins from the translation table, resolves the pages of
the region, and programs the card: one command for the region, and one for every sixteen page table
entries, which the card reads from a buffer that all of them share.

* **`regMr_error_iff`** — a call leaves the resources as they were only if no key was free.
* **`regMr_programs`** — after a successful call the page table maps every address of the region.
-/

namespace OpenRdma

open Checked

/-! ## Addresses -/

/-- How virtual pages are resolved: `phys` is the physical address of a page, if it is present. -/
structure AddressResolver (cfg : PageCfg) where
  phys : ℕ → Option UInt64
  virtToPhysRange : Resolver.PageAlignedVirtAddr cfg → ℕ →
    Except (Resolver.Stop RdmaError) (List (Option UInt64))
  range_eq : ∀ start n l, start.val + n * cfg.pageSize ≤ 2 ^ 64 → virtToPhysRange start n = .ok l →
    l = (List.range n).map fun i => phys (start.val / cfg.pageSize + i)

namespace AddressResolver

variable {cfg : PageCfg} (build : Build)

/-- A resolved page as the driver keeps it. -/
def physPage (pa : Option ℕ) : Option UInt64 := pa.map UInt64.ofNat

lemma page_mul (start : Resolver.PageAlignedVirtAddr cfg) (i : ℕ) :
    (start.val / cfg.pageSize + i) * cfg.pageSize = start.val + i * cfg.pageSize := by
  rw [Nat.add_mul, Nat.div_mul_cancel start.aligned]

lemma mapM_eq_ok {ε α β : Type} {f : α → Except ε β} {g : α → β} {as : List α} {bs : List β}
    (h : as.mapM f = .ok bs) (hf : ∀ a ∈ as, ∀ b, f a = .ok b → b = g a) : bs = as.map g := by
  induction as generalizing bs with
  | nil => exact (Except.ok.inj h).symm
  | cons a as ih =>
    rw [List.mapM_cons] at h
    obtain ⟨b, hb, h⟩ := bind_eq_ok h
    obtain ⟨bs', hbs, h⟩ := bind_eq_ok h
    cases h
    rw [List.map_cons, hf a List.mem_cons_self b hb,
      ih hbs fun a' ha' => hf a' (List.mem_cons_of_mem a ha')]

/-- A handler that resolves single addresses, with the default `virt_to_phys_range`. -/
def ofVirtToPhys (virtToPhys : ℕ → Except (Resolver.Stop RdmaError) (Option ℕ)) :
    AddressResolver cfg where
  phys := fun page => physPage ((virtToPhys (page * cfg.pageSize)).toOption).join
  virtToPhysRange := fun start n => (List.range n).mapM fun x =>
    (Resolver.traitPage build cfg virtToPhys start.val x).map physPage
  range_eq := by
    intro start n l hend h
    refine mapM_eq_ok h fun x hx b hb => ?_
    have hlt : start.val + x * cfg.pageSize < 2 ^ 64 := by
      have hle := Nat.mul_le_mul_right cfg.pageSize (List.mem_range.mp hx)
      have hpos := cfg.pageSize_pos
      rw [Nat.succ_mul] at hle
      omega
    have hpage : Resolver.traitPage build cfg virtToPhys start.val x
        = virtToPhys (start.val + x * cfg.pageSize) := by
      have hmul := build.mul_of_lt (show x * cfg.pageSize < 2 ^ 64 by omega)
      simp only [Resolver.traitPage, hmul, Resolver.orPanic, bind, Except.bind, Resolver.offsetAddr,
        if_pos hlt]
    rw [page_mul]
    rw [hpage] at hb
    cases hv : virtToPhys (start.val + x * cfg.pageSize) with
    | error e =>
      rw [hv] at hb
      cases hb
    | ok v =>
      rw [hv] at hb
      exact (Except.ok.inj hb).symm

/-- The resolver of a process, over its files. -/
def linuxX86 (sys : Resolver.SystemFiles RdmaError) : AddressResolver cfg where
  phys := fun page => match sys.pagemap with
    | .ok file => physPage ((Resolver.pagemapPage build file (page * cfg.pageSize)).toOption).join
    | .error _ => none
  virtToPhysRange := fun start n =>
    (Resolver.virtToPhysRange build cfg sys start n).map (List.map physPage)
  range_eq := by
    intro start n l hend h
    cases hopen : sys.pagemap with
    | error e =>
      rw [Resolver.virtToPhysRange, hopen] at h
      cases h
    | ok file =>
      rw [Resolver.virtToPhysRange_eq hopen] at h
      cases hfill : Resolver.fillPages build cfg file start.val (List.replicate n none) with
      | error e =>
        rw [hfill] at h
        cases h
      | ok out =>
        rw [hfill] at h
        cases h
        rw [Resolver.fillPages_eq_ok hfill hend, List.map_map]
        exact List.map_congr_left fun i _ => by rw [Function.comp_apply, page_mul]

end AddressResolver

/-- The memory handler, and the check for huge pages. -/
structure MemHandler (cfg : PageCfg) where
  umem : UmemHandler
  resolver : AddressResolver cfg
  checkAddrIsAnonHugepage : ℕ → ℕ → Bool

def alignDown (cfg : PageCfg) (addr : UInt64) : Resolver.PageAlignedVirtAddr cfg where
  val := addr.toNat / cfg.pageSize * cfg.pageSize
  lt := (Nat.div_mul_le_self _ _).trans_lt addr.toNat_lt
  aligned := Dvd.intro_left _ rfl

/-! ## Commands -/

/-- A region is written to the hardware. -/
structure MttUpdate where
  mrBaseVa : UInt64
  mrLength : UInt32
  mrKey : UInt32
  pdHandler : UInt32
  accFlags : UInt8
  basePgtOffset : UInt32
deriving DecidableEq, Repr

/-- Pages are written to the hardware. -/
structure PgtUpdate where
  dmaAddr : UInt64
  pgtOffset : UInt32
  zeroBasedEntryCount : UInt32
deriving DecidableEq, Repr

/-- The words of the buffer that the card reads page table entries from. -/
abbrev MttBuffer := ℕ → UInt64

/-- A command, with the buffer as it is when the command is issued. -/
inductive MmuCmd where
  | updateMtt (u : MttUpdate)
  | updatePgt (u : PgtUpdate) (buffer : MttBuffer)

/-- The card's page table. -/
abbrev PageTable := ℕ → UInt64

/-- The card copies `zeroBasedEntryCount + 1` entries from the buffer. -/
def MmuCmd.exec (pt : PageTable) : MmuCmd → PageTable
  | .updateMtt _ => pt
  | .updatePgt u buffer => fun j =>
    if u.pgtOffset.toNat ≤ j ∧ j ≤ u.pgtOffset.toNat + u.zeroBasedEntryCount.toNat then
      buffer (j - u.pgtOffset.toNat)
    else pt j

def execAll (cmds : List MmuCmd) (pt : PageTable) : PageTable := cmds.foldl MmuCmd.exec pt

/-! ## The call -/

def maxNumPgtEntryPerAlloc : ℕ := 16

/-- The chunks of the entries from `index` up to `end'`. -/
def chunksFrom (index end' : ℕ) : List PgtEntry :=
  if index < end' then
    { index := UInt32.ofNat index
      count := UInt32.ofNat (min maxNumPgtEntryPerAlloc (end' - index)) } ::
      chunksFrom (index + maxNumPgtEntryPerAlloc) end'
  else []
termination_by end' - index
decreasing_by rw [maxNumPgtEntryPerAlloc]; omega

def chunks (entry : PgtEntry) : List PgtEntry :=
  chunksFrom entry.index.toNat (entry.index + entry.count).toNat

/-- `buf.copy_from(0, ..)` -/
def MttBuffer.copyFrom (buffer : MttBuffer) (words : List UInt64) : MttBuffer := fun j =>
  (words[j]?).getD (buffer j)

/-- The loop over the chunks; the iterator over the addresses is consumed. -/
def programPgt (dmaAddr : UInt64) :
    List PgtEntry → List UInt64 → MttBuffer → MttBuffer × List MmuCmd
  | [], _, buffer => (buffer, [])
  | chunk :: rest, physAddrs, buffer =>
    let chunkPhysAddrs := physAddrs.take chunk.count.toNat
    let buffer := buffer.copyFrom chunkPhysAddrs
    let cmd := .updatePgt ⟨dmaAddr, chunk.index, chunk.count - 1⟩ buffer
    let (buffer, cmds) := programPgt dmaAddr rest (physAddrs.drop chunk.count.toNat) buffer
    (buffer, cmd :: cmds)

/-- What the call works on. -/
structure RegCtx where
  mtt : Mtt
  buffer : MttBuffer
  bufferPhysAddr : UInt64

inductive RegPanic where
  | notHugepage
  | mtt (p : MttPanic)
  /-- An overflow in the resolver. -/
  | resolver
deriving DecidableEq, Repr

/-- What a call that does not panic leaves behind. -/
structure RegResult where
  ret : Except RdmaError UInt32
  ctx : RegCtx
  cmds : List MmuCmd

/-- The steps after the table has registered the region. -/
def programRegion {cfg : PageCfg} (mem : MemHandler cfg) (ctx : RegCtx) (addr length : UInt64)
    (pdHandle : UInt32) (access : UInt8) (mrKey : UInt32) (entry : PgtEntry) :
    Except RegPanic RegResult :=
  if 2 ^ 32 ≤ length.toNat then
    .ok { ret := .error (.invalidInput "Length too large"), ctx, cmds := [] }
  else
    let numPages := getNumPage cfg addr.toNat length.toNat
    match mem.resolver.virtToPhysRange (alignDown cfg addr) numPages with
    | .error .panic => .error .resolver
    | .error (.os e) => .ok { ret := .error e, ctx, cmds := [] }
    | .error .addressOverflow =>
      .ok { ret := .error (.ioError "address overflow"), ctx, cmds := [] }
    | .ok pages =>
      match pages.mapM id with
      | none => .ok { ret := .error (.memoryError "Physical address not found"), ctx, cmds := [] }
      | some physAddrs =>
        let update : MttUpdate :=
          { mrBaseVa := addr, mrLength := length.toUInt32, mrKey, pdHandler := pdHandle
            accFlags := access, basePgtOffset := entry.index }
        let (buffer, cmds) := programPgt ctx.bufferPhysAddr (chunks entry) physAddrs ctx.buffer
        .ok { ret := .ok mrKey, ctx := { ctx with buffer }, cmds := .updateMtt update :: cmds }

def regMr {cfg : PageCfg} (build : Build) (mem : MemHandler cfg) (ctx : RegCtx)
    (addr length : UInt64) (pdHandle : UInt32) (access rand : UInt8) :
    Except RegPanic RegResult := do
  require (cfg = .pageSize2m → mem.checkAddrIsAnonHugepage addr.toNat length.toNat = true)
    .notHugepage
  let numPages := getNumPage cfg addr.toNat length.toNat
  let (r, mtt) ← (ctx.mtt.register cfg build mem.umem numPages addr length rand).mapError
    RegPanic.mtt
  match r with
  | .error e => return { ret := .error e, ctx := { ctx with mtt }, cmds := [] }
  | .ok (mrKey, entry) =>
    programRegion mem { ctx with mtt } addr length pdHandle access mrKey entry

/-! ## Failed calls -/

/-- The same keys and page table entries are free, and the same pages are pinned. -/
def SameResources (cfg : PageCfg) (m m' : Mtt) : Prop :=
  m'.alloc.mr.freeList.Perm m.alloc.mr.freeList ∧
  (∀ i, m'.alloc.pgt.used i = m.alloc.pgt.used i) ∧
  ∀ page, pinCount cfg m'.pins.log page = pinCount cfg m.pins.log page

lemma mapError_eq_ok {ε ε' α : Type} {f : ε → ε'} {x : Except ε α} {a : α}
    (h : x.mapError f = .ok a) : x = .ok a := by
  cases x with
  | error e => cases h
  | ok b => exact congrArg _ (Except.ok.inj h)

variable {cfg : PageCfg}

/-- What a call to `register` allocates stays allocated, whatever it returns. -/
lemma Mtt.register_alloc {build : Build} {umem : UmemHandler} {m m' : Mtt} {numPages : ℕ}
    {vaStart length : UInt64} {rand : UInt8} {r : Except RdmaError (UInt32 × PgtEntry)}
    (h : m.register cfg build umem numPages vaStart length rand = .ok (r, m')) :
    m'.alloc = (m.alloc.alloc numPages rand).2 := by
  rw [Mtt.register] at h
  rcases halloc : m.alloc.alloc numPages rand with ⟨_ | ⟨mrKey, entry⟩, alloc⟩
  · simp only [halloc] at h
    obtain ⟨-, rfl⟩ := Prod.mk.inj (Except.ok.inj h)
    rfl
  · simp only [halloc] at h
    obtain ⟨m₁, hrecord, h⟩ := bind_eq_ok h
    obtain ⟨pins, -, h⟩ := bind_eq_ok h
    obtain ⟨-, rfl⟩ := Prod.mk.inj (Except.ok.inj h)
    rw [Mtt.recordKey] at hrecord
    split at hrecord
    · obtain ⟨_, -, hrecord⟩ := bind_eq_ok hrecord
      obtain ⟨_, -, hrecord⟩ := bind_eq_ok hrecord
      obtain rfl := Except.ok.inj hrecord
      rfl
    · obtain rfl := Except.ok.inj hrecord
      rfl

variable {mem : MemHandler cfg} {addr length : UInt64}

lemma programRegion_mtt {ctx : RegCtx} {pdHandle : UInt32} {access : UInt8} {mrKey : UInt32}
    {entry : PgtEntry} {res : RegResult}
    (h : programRegion mem ctx addr length pdHandle access mrKey entry = .ok res) :
    res.ctx.mtt = ctx.mtt := by
  rw [programRegion] at h
  split at h
  · exact Except.ok.inj h ▸ rfl
  · dsimp only at h
    split at h
    · cases h
    · exact Except.ok.inj h ▸ rfl
    · exact Except.ok.inj h ▸ rfl
    · split at h <;> exact Except.ok.inj h ▸ rfl

/-- The call as the call to `register` and the steps after it. -/
lemma regMr_eq_ok {build : Build} {ctx : RegCtx} {pdHandle : UInt32} {access rand : UInt8}
    {res : RegResult} (h : regMr build mem ctx addr length pdHandle access rand = .ok res) :
    ∃ r m, ctx.mtt.register cfg build mem.umem (getNumPage cfg addr.toNat length.toNat) addr length
        rand = .ok (r, m) ∧ res.ctx.mtt = m ∧
      ((∃ e, r = .error e ∧ res.ret = .error e) ∨ ∃ mrKey entry, r = .ok (mrKey, entry) ∧
        programRegion mem { ctx with mtt := m } addr length pdHandle access mrKey entry
          = .ok res) := by
  rw [regMr] at h
  obtain ⟨_, -, h⟩ := bind_eq_ok h
  obtain ⟨⟨r, m⟩, hreg, h⟩ := bind_eq_ok h
  refine ⟨r, m, mapError_eq_ok hreg, ?_⟩
  cases r with
  | error e =>
    cases h
    exact ⟨rfl, Or.inl ⟨e, rfl, rfl⟩⟩
  | ok r =>
    obtain ⟨mrKey, entry⟩ := r
    exact ⟨programRegion_mtt h, Or.inr ⟨mrKey, entry, rfl, h⟩⟩

/-- **A call leaves the resources as they were** exactly if no key was free when it was made.  So of
the calls that fail, those for another reason leave a trace. -/
theorem regMr_error_iff {cfg : PageCfg} (build : Build) (mem : MemHandler cfg) (ctx : RegCtx)
    (addr length : UInt64) (pdHandle : UInt32) (access rand : UInt8) (res : RegResult)
    (hreg : regMr build mem ctx addr length pdHandle access rand = .ok res) :
    SameResources cfg ctx.mtt res.ctx.mtt ↔ ctx.mtt.alloc.mr.freeList = [] := by
  obtain ⟨r, m, hregister, hmtt, -⟩ := regMr_eq_ok hreg
  have halloc := Mtt.register_alloc hregister
  rw [hmtt]
  rcases Alloc.alloc_spec (Prod.mk.eta
    (p := ctx.mtt.alloc.alloc (getNumPage cfg addr.toNat length.toNat) rand)).symm with
    ⟨hnil, hnone, hsame⟩ | ⟨idx, hfree, -⟩
  · have hpair : ctx.mtt.alloc.alloc (getNumPage cfg addr.toNat length.toNat) rand =
        (none, ctx.mtt.alloc) := Prod.ext hnone hsame
    rw [Mtt.register, hpair] at hregister
    obtain ⟨-, rfl⟩ := Prod.mk.inj (Except.ok.inj hregister)
    exact iff_of_true ⟨.refl _, fun _ => rfl, fun _ => rfl⟩ hnil
  · refine iff_of_false (fun h => ?_) (fun h => ?_)
    · have hlen := h.1.length_eq
      rw [hfree, ← halloc, List.length_append, List.length_singleton] at hlen
      omega
    · rw [hfree] at h
      exact absurd h (by simp)

/-! ## Successful calls -/

/-- The entries from `base` on are set to `words`. -/
def written (base : ℕ) (words : List UInt64) (pt : PageTable) : PageTable := fun j =>
  if base ≤ j then (words[j - base]?).getD (pt j) else pt j

lemma written_nil (base : ℕ) (pt : PageTable) : written base [] pt = pt := by
  funext j
  rw [written]
  split <;> rfl

lemma written_append (base : ℕ) (as bs : List UInt64) (pt : PageTable) :
    written (base + as.length) bs (written base as pt) = written base (as ++ bs) pt := by
  funext j
  simp only [written]
  rcases Nat.lt_or_ge j base with hlt | hge
  · rw [if_neg (by omega), if_neg (by omega), if_neg (by omega)]
  · rw [if_pos hge, if_pos hge]
    rcases Nat.lt_or_ge j (base + as.length) with hlt | hge'
    · rw [if_neg (by omega), List.getElem?_append_left (by omega)]
    · rw [if_pos hge', List.getElem?_append_right (by omega),
        List.getElem?_eq_none (by omega : _ ≤ j - base),
        show j - base - as.length = j - (base + as.length) by omega]
      rfl

/-- One command writes the addresses of its chunk. -/
lemma exec_chunk {base n : ℕ} (hn : 0 < n) (hbase : base + n < 2 ^ 32) {words : List UInt64}
    (hlen : words.length = n) (dmaAddr : UInt64) (buffer : MttBuffer) (pt : PageTable) :
    MmuCmd.exec pt (.updatePgt ⟨dmaAddr, UInt32.ofNat base, UInt32.ofNat n - 1⟩
      (buffer.copyFrom words)) = written base words pt := by
  have hn' : (UInt32.ofNat n).toNat = n := by
    rw [UInt32.toNat_ofNat', Nat.mod_eq_of_lt (by omega)]
  have hcount : (UInt32.ofNat n - 1).toNat = n - 1 := by
    rw [UInt32.toNat_sub_of_le _ _ (by rw [UInt32.le_iff_toNat_le, hn']; exact hn), hn']
    rfl
  have hindex : (UInt32.ofNat base).toNat = base := by
    rw [UInt32.toNat_ofNat', Nat.mod_eq_of_lt (by omega)]
  funext j
  simp only [MmuCmd.exec, hcount, hindex, written, MttBuffer.copyFrom]
  by_cases hj : base ≤ j
  · rw [if_pos hj]
    by_cases hjn : j - base < n
    · rw [if_pos ⟨hj, by omega⟩, List.getElem?_eq_getElem (by omega)]
      rfl
    · rw [if_neg (by omega), List.getElem?_eq_none (by omega)]
      rfl
  · rw [if_neg hj, if_neg (by omega)]

/-- **The chunks write all addresses**, whatever was in the buffer. -/
lemma exec_programPgt (dmaAddr : UInt64) {base end' : ℕ} (hend : end' < 2 ^ 32)
    {words : List UInt64} (hlen : words.length = end' - base) (buffer : MttBuffer)
    (pt : PageTable) :
    execAll (programPgt dmaAddr (chunksFrom base end') words buffer).2 pt =
      written base words pt := by
  induction hk : end' - base using Nat.strong_induction_on generalizing base words buffer pt with
  | _ k ih =>
    rw [chunksFrom]
    split
    · rename_i hlt
      have hn : (UInt32.ofNat (min maxNumPgtEntryPerAlloc (end' - base))).toNat =
          min maxNumPgtEntryPerAlloc (end' - base) := by
        rw [UInt32.toNat_ofNat', Nat.mod_eq_of_lt (by omega)]
      have hmax : maxNumPgtEntryPerAlloc = 16 := rfl
      simp only [programPgt, hn]
      generalize hcount : min maxNumPgtEntryPerAlloc (end' - base) = n at *
      have hrest : (words.drop n).length = end' - (base + maxNumPgtEntryPerAlloc) := by
        rw [List.length_drop]
        omega
      have htake : (words.take n).length = n := by
        rw [List.length_take]
        omega
      rw [execAll, List.foldl_cons, exec_chunk (by omega) (by omega) htake]
      refine (ih _ (by omega) hrest _ _ rfl).trans ?_
      rcases Nat.lt_or_ge n maxNumPgtEntryPerAlloc with hlast | hfull
      · -- the last chunk, which is shorter than the others
        have hall : n = words.length := by omega
        rw [hall, List.drop_length, List.take_length, written_nil]
      · rw [show base + maxNumPgtEntryPerAlloc = base + (words.take n).length by omega,
          written_append, List.take_append_drop]
    · rename_i hge
      obtain rfl : words = [] := List.eq_nil_of_length_eq_zero (by omega)
      exact (written_nil base pt).symm

lemma mapM_id_eq_some {α : Type} {l : List (Option α)} {as : List α} (h : l.mapM id = some as) :
    l = as.map some := by
  induction l generalizing as with
  | nil =>
    obtain rfl := Option.some_inj.mp h
    rfl
  | cons a l ih =>
    rw [List.mapM_cons] at h
    obtain ⟨x, hx, h⟩ := Option.bind_eq_some_iff.mp h
    obtain ⟨xs, hxs, h⟩ := Option.bind_eq_some_iff.mp h
    obtain rfl := Option.some_inj.mp h
    rw [ih hxs, List.map_cons]
    exact congrArg (· :: _) hx

/-- The region that was registered is not empty and does not wrap, and its entries are in the
table. -/
lemma Mtt.register_eq_ok {build : Build} {umem : UmemHandler} {m m' : Mtt}
    {numPages : ℕ} {vaStart length : UInt64} {rand : UInt8} {mrKey : UInt32} {entry : PgtEntry}
    (h : m.register cfg build umem numPages vaStart length rand = .ok (.ok (mrKey, entry), m')) :
    0 < numPages ∧ entry.index.toNat + numPages ≤ pgtLen ∧ entry.count.toNat = numPages ∧
      vaStart.toNat + length.toNat < 2 ^ 64 := by
  rw [Mtt.register] at h
  rcases halloc : m.alloc.alloc numPages rand with ⟨_ | ⟨key, entry'⟩, alloc⟩
  · simp only [halloc] at h
    cases (Prod.mk.inj (Except.ok.inj h)).1
  · simp only [halloc] at h
    obtain ⟨m₁, -, h⟩ := bind_eq_ok h
    obtain ⟨pins, hpins, h⟩ := bind_eq_ok h
    obtain ⟨rfl, rfl⟩ := Prod.mk.inj (Except.ok.inj (Prod.mk.inj (Except.ok.inj h)).1)
    obtain ⟨⟨range, manager⟩, hinsert, -⟩ := bind_eq_ok (mapError_eq_ok hpins)
    have hend := (MrRegionManager.insert_eq_ok vaStart.toNat_lt length.toNat_lt hinsert).1
    rcases Alloc.alloc_spec halloc with ⟨-, hnone, -⟩ | ⟨idx, -, hres⟩
    · cases hnone
    · obtain ⟨-, index, pgt, hpgt, rfl⟩ := hres _ _ rfl
      obtain ⟨hpos, ⟨hle, -⟩, -⟩ := PgtAlloc.alloc_eq_some hpgt
      have hlen : pgtLen = 128 := rfl
      refine ⟨hpos, ?_, ?_, hend⟩
      · dsimp only
        rw [UInt32.toNat_ofNat', Nat.mod_eq_of_lt (by omega)]
        exact hle
      · dsimp only
        rw [UInt32.toNat_ofNat', Nat.mod_eq_of_lt (by omega)]

/-- The steps after `register` succeeded: all pages were resolved, and the commands were issued. -/
lemma programRegion_eq_ok {ctx : RegCtx} {pdHandle : UInt32} {access : UInt8} {mrKey key : UInt32}
    {entry : PgtEntry} {res : RegResult}
    (h : programRegion mem ctx addr length pdHandle access mrKey entry = .ok res)
    (hret : res.ret = .ok key) :
    key = mrKey ∧ ∃ physAddrs update,
      mem.resolver.virtToPhysRange (alignDown cfg addr)
        (getNumPage cfg addr.toNat length.toNat) = .ok (physAddrs.map some) ∧
      res.cmds = .updateMtt update ::
        (programPgt ctx.bufferPhysAddr (chunks entry) physAddrs ctx.buffer).2 := by
  rw [programRegion] at h
  split at h
  · cases Except.ok.inj h
    cases hret
  dsimp only at h
  split at h
  · cases h
  · cases Except.ok.inj h
    cases hret
  · cases Except.ok.inj h
    cases hret
  rename_i pages hpages
  split at h
  · cases Except.ok.inj h
    cases hret
  rename_i physAddrs hphys
  cases Except.ok.inj h
  exact ⟨(Except.ok.inj hret).symm, physAddrs, _, by rw [hpages, mapM_id_eq_some hphys], rfl⟩

/-- The pages of a region exist. -/
lemma pages_le {addr : UInt64} {length : ℕ} (hend : addr.toNat + length < 2 ^ 64) :
    (alignDown cfg addr).val + getNumPage cfg addr.toNat length * cfg.pageSize ≤ 2 ^ 64 := by
  rw [getNumPage]
  split
  · rw [Nat.zero_mul]
    exact (alignDown cfg addr).lt.le
  · obtain ⟨k, hk⟩ := cfg.pageSize_dvd
    have hle : addr.toNat / cfg.pageSize ≤ (addr.toNat + length - 1) / cfg.pageSize :=
      Nat.div_le_div_right (by omega)
    have hlast : (addr.toNat + length - 1) / cfg.pageSize < k :=
      Nat.div_lt_of_lt_mul (by omega)
    rw [Nat.min_eq_left (by omega), alignDown, ← Nat.add_mul, hk, Nat.mul_comm cfg.pageSize k]
    refine Nat.mul_le_mul_right _ ?_
    dsimp only
    omega

/-- The page of an address of the region is one of its pages. -/
lemma page_lt {addr length v : ℕ} (hend : addr + length < 2 ^ 64) (hlo : addr ≤ v)
    (hhi : v < addr + length) :
    v / cfg.pageSize - addr / cfg.pageSize < getNumPage cfg addr length := by
  have hle : addr / cfg.pageSize ≤ v / cfg.pageSize := Nat.div_le_div_right hlo
  have hlast : v / cfg.pageSize ≤ (addr + length - 1) / cfg.pageSize :=
    Nat.div_le_div_right (by omega)
  rw [getNumPage, if_neg (by omega), Nat.min_eq_left (by omega)]
  dsimp only
  omega

/-- **The page table maps the region.**  After a successful call, whatever the page table was,
executing the commands in order sets the entry of every address of the region to the physical page
of that address, and leaves every entry outside the allocated range alone. -/
theorem regMr_programs {cfg : PageCfg} (build : Build) (mem : MemHandler cfg) (ctx : RegCtx)
    (addr length : UInt64) (pdHandle : UInt32) (access rand : UInt8) (res : RegResult)
    (hreg : regMr build mem ctx addr length pdHandle access rand = .ok res) (mrKey : UInt32)
    (hok : res.ret = .ok mrKey) (pt : PageTable) :
    ∃ entry m, ctx.mtt.register cfg build mem.umem (getNumPage cfg addr.toNat length.toNat) addr
        length rand = .ok (.ok (mrKey, entry), m) ∧
      (∀ v, addr.toNat ≤ v → v < addr.toNat + length.toNat →
        mem.resolver.phys (v / cfg.pageSize) = some (execAll res.cmds pt
          (entry.index.toNat + (v / cfg.pageSize - addr.toNat / cfg.pageSize)))) ∧
      ∀ j, ¬ (entry.index.toNat ≤ j ∧ j < entry.index.toNat + entry.count.toNat) →
        execAll res.cmds pt j = pt j := by
  obtain ⟨r, m, hregister, -, ⟨e, -, herr⟩ | ⟨key, entry, rfl, hprogram⟩⟩ := regMr_eq_ok hreg
  · rw [herr] at hok
    cases hok
  · obtain ⟨hpos, htable, hcount, hend⟩ := Mtt.register_eq_ok hregister
    have hlen : pgtLen = 128 := rfl
    obtain ⟨rfl, physAddrs, update, hrange, hcmds⟩ := programRegion_eq_ok hprogram hok
    have hpages := mem.resolver.range_eq _ _ _ (pages_le hend) hrange
    have hwords : physAddrs.length = getNumPage cfg addr.toNat length.toNat := by
      rw [← List.length_map some, hpages, List.length_map, List.length_range]
    have hsum : (entry.index + entry.count).toNat =
        entry.index.toNat + getNumPage cfg addr.toNat length.toNat := by
      rw [UInt32.toNat_add, hcount, Nat.mod_eq_of_lt (by omega)]
    have hexec : execAll res.cmds pt = written entry.index.toNat physAddrs pt := by
      rw [hcmds, execAll, List.foldl_cons, chunks, hsum]
      exact exec_programPgt _ (by omega) (by omega) _ pt
    refine ⟨entry, m, hregister, fun v hlo hhi => ?_, fun j hj => ?_⟩
    · have hpage : _ < getNumPage cfg _ _ := page_lt hend hlo hhi
      have hle : addr.toNat / cfg.pageSize ≤ v / cfg.pageSize := Nat.div_le_div_right hlo
      have hget := congrArg (·[v / cfg.pageSize - addr.toNat / cfg.pageSize]?) hpages
      simp only [List.getElem?_map] at hget
      rw [List.getElem?_range hpage, List.getElem?_eq_getElem (by omega)] at hget
      rw [hexec, written, if_pos (Nat.le_add_right _ _), Nat.add_sub_cancel_left,
        List.getElem?_eq_getElem (by omega)]
      have halign : (alignDown cfg addr).val / cfg.pageSize = addr.toNat / cfg.pageSize :=
        Nat.mul_div_cancel _ cfg.pageSize_pos
      simp only [Option.map_some, Option.some_inj, halign, Nat.add_sub_cancel' hle] at hget
      exact hget.symm
    · rw [hexec, written]
      split
      · rename_i hle
        rw [List.getElem?_eq_none (by omega)]
        rfl
      · rfl

/-- A context of a new device. -/
def RegCtx.new : RegCtx := { mtt := .new, buffer := fun _ => 0, bufferPhysAddr := 0 }

/-- Memory in which every virtual address is its own physical one. -/
def identityMem (cfg : PageCfg) : MemHandler cfg where
  umem := .ideal
  resolver := .ofVirtToPhys ⟨true, true⟩ fun va => .ok (some va)
  checkAddrIsAnonHugepage := fun _ _ => true

/-- The memory of a process whose pages are in the frames of their own numbers. -/
def pagemapMem : MemHandler .pageSize4k where
  umem := .ideal
  resolver := .linuxX86 ⟨true, true⟩
    ⟨.ok fun offset => .ok (0x8000000000000000 + UInt64.ofNat (offset / 8)),
      .error (.ioError "open")⟩
  checkAddrIsAnonHugepage := fun _ _ => true

/-- Twenty-one pages, in two chunks. -/
theorem regMr_programs_chunks : ∃ res,
    regMr ⟨true, true⟩ pagemapMem .new 0x1800 0x14000 0 0 0 = .ok res ∧
    res.ret = .ok 0x3f00 ∧ res.cmds.length = 3 ∧
    ∃ entry : PgtEntry, ∀ v, 0x1800 ≤ v → v < 0x1800 + 0x14000 →
      pagemapMem.resolver.phys (v / 4096) =
        some (execAll res.cmds (fun _ => 0) (entry.index.toNat + (v / 4096 - 1))) := by
  refine ⟨_, rfl, rfl, by decide +kernel, ?_⟩
  obtain ⟨entry, -, -, hmaps, -⟩ := regMr_programs ⟨true, true⟩ pagemapMem .new 0x1800 0x14000 0 0 0
    _ rfl 0x3f00 rfl (fun _ => 0)
  exact ⟨entry, hmaps⟩

/-- No key is free. -/
def RegCtx.full : RegCtx :=
  { RegCtx.new with mtt := { Mtt.new with alloc := { Alloc.new with mr := ⟨[]⟩ } } }

theorem regMr_error_iff_full : ∃ res,
    regMr ⟨true, true⟩ (identityMem .pageSize4k) .full 0x1000 0x1000 0 0 0 = .ok res ∧
    res.ret = .error outOfMemory ∧ SameResources .pageSize4k RegCtx.full.mtt res.ctx.mtt :=
  ⟨_, rfl, rfl, (regMr_error_iff ⟨true, true⟩ (identityMem .pageSize4k) .full 0x1000 0x1000 0 0 0 _
    rfl).mpr rfl⟩

/-- **A region of no pages costs a key**: the key is taken before the page table entries are looked
for. -/
theorem regMr_leaks_key : ∃ res,
    regMr ⟨true, true⟩ (identityMem .pageSize4k) .new 0x1000 0 0 0 0 = .ok res ∧
    res.ret = .error outOfMemory ∧ ¬ SameResources .pageSize4k RegCtx.new.mtt res.ctx.mtt := by
  refine ⟨_, rfl, rfl, fun h => ?_⟩
  exact absurd h.1.length_eq (by decide)

end OpenRdma
