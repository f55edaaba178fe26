import OpenRdma.RdmaUtils.Mtt

/-!
# Registration with and without debug assertions

The same calls, in a build that evaluates `debug_assert!` and in one that does not; everything else
about the two builds is the same.  `register` fills its two maps inside the assertions, so in the
second build they stay empty (`release_maps`).

**`builds_agree_iff`**: the two builds behave the same on exactly the sequences of calls that never
deregister a live key.
-/

namespace OpenRdma

open Function (update update_of_ne)

open Checked

/-- The calls of the table.  `rand` is what the random number generator returns. -/
inductive MttCall where
  | register (numPages vaStart length : UInt64) (rand : UInt8)
  | deregister (mrKey : UInt32)
deriving DecidableEq, Repr

/-- What a call has returned. -/
inductive MttReturn where
  | registered (r : Except RdmaError (UInt32 × PgtEntry))
  | deregistered (r : Except RdmaError Unit)

/-- A sequence of calls, up to the first panic. -/
structure MttRun where
  mtt : Mtt
  returns : List MttReturn
  panicked : Option MttPanic

namespace MttRun

variable (cfg : PageCfg) (build : Build) (umem : UmemHandler)

def call (mtt : Mtt) : MttCall → Except MttPanic (MttReturn × Mtt)
  | .register numPages vaStart length rand => do
    let (r, mtt) ← mtt.register cfg build umem numPages.toNat vaStart length rand
    return (.registered r, mtt)
  | .deregister mrKey => do
    let (r, mtt) ← mtt.deregister cfg build umem mrKey
    return (.deregistered r, mtt)

def step (s : MttRun) (c : MttCall) : MttRun :=
  if s.panicked.isSome then s
  else
    match call cfg build umem s.mtt c with
    | .error p => { s with panicked := some p }
    | .ok (r, mtt) => { s with mtt, returns := s.returns ++ [r] }

def run (calls : List MttCall) : MttRun :=
  calls.foldl (step cfg build umem) { mtt := .new, returns := [], panicked := none }

lemma run_snoc (calls : List MttCall) (c : MttCall) :
    run cfg build umem (calls ++ [c]) = step cfg build umem (run cfg build umem calls) c := by
  rw [run, List.foldl_append]
  rfl

end MttRun

/-- The build that evaluates `debug_assert!`, and the one that does not. -/
def debugBuild (overflowChecks : Bool) : Build := ⟨true, overflowChecks⟩
def releaseBuild (overflowChecks : Bool) : Build := ⟨false, overflowChecks⟩

/-- After every call the two runs have returned the same, and the same pages are pinned. -/
def BuildsAgree (cfg : PageCfg) (checks : Bool) (umem : UmemHandler)
    (calls : List MttCall) : Prop :=
  ∀ pre, pre <+: calls →
    let d := MttRun.run cfg (debugBuild checks) umem pre
    let r := MttRun.run cfg (releaseBuild checks) umem pre
    d.returns = r.returns ∧ d.panicked = r.panicked ∧
      ∀ page, pinCount cfg d.mtt.pins.log page = pinCount cfg r.mtt.pins.log page

/-- No call deregisters a key that is live at the time, by the maps of the build that has them. -/
def NoLiveDeregister (cfg : PageCfg) (checks : Bool) (umem : UmemHandler)
    (calls : List MttCall) : Prop :=
  ∀ pre mrKey, pre ++ [.deregister mrKey] <+: calls →
    let d := MttRun.run cfg (debugBuild checks) umem pre
    d.panicked = none → d.mtt.mrkeyMap mrKey = none

/-! ## Keys -/

/-- The free list is what is left of the first one, and no free key is in the maps. -/
structure FreshKeys (mtt : Mtt) : Prop where
  free : mtt.alloc.mr.freeList <+: MrTableAlloc.new.freeList
  unmapped : ∀ idx ∈ mtt.alloc.mr.freeList, ∀ mrKey, mrKey >>> lrKeyKeyPartWidth = idx →
    mtt.mrkeyMap mrKey = none ∧ mtt.keyToVaRange mrKey = none

/-- An allocation takes a key that is in no map, and the rest of the free keys stay so. -/
lemma FreshKeys.alloc {mtt : Mtt} (h : FreshKeys mtt) {alloc : Alloc} {numPages : ℕ} {rand : UInt8}
    {res : Option (UInt32 × PgtEntry)} (halloc : mtt.alloc.alloc numPages rand = (res, alloc)) :
    FreshKeys { mtt with alloc } ∧ ∀ mrKey entry, res = some (mrKey, entry) →
      mtt.mrkeyMap mrKey = none ∧ mtt.keyToVaRange mrKey = none ∧
      mrKey >>> lrKeyKeyPartWidth ∉ alloc.mr.freeList := by
  rcases Alloc.alloc_spec halloc with ⟨-, rfl, rfl⟩ | ⟨idx, hfree, hres⟩
  · exact ⟨h, nofun⟩
  · have hpre : alloc.mr.freeList ++ [idx] <+: MrTableAlloc.new.freeList := hfree ▸ h.free
    have hmem : idx ∈ mtt.alloc.mr.freeList := by
      rw [hfree]
      exact List.mem_append_right _ (List.mem_singleton_self idx)
    have hnodup := new_freeList_nodup.sublist hpre.sublist
    refine ⟨⟨(List.prefix_append _ _).trans hpre, fun i hi => h.unmapped i ?_⟩, ?_⟩
    · rw [hfree]
      exact List.mem_append_left _ hi
    · intro mrKey entry hsome
      have hidx : mrKey >>> lrKeyKeyPartWidth = idx := by
        rw [(hres mrKey entry hsome).1]
        exact mrKey_index (new_freeList_lt idx (hpre.subset
          (List.mem_append_right _ (List.mem_singleton_self idx)))) rand
      refine ⟨(h.unmapped idx hmem mrKey hidx).1, (h.unmapped idx hmem mrKey hidx).2, ?_⟩
      rw [hidx]
      intro hin
      exact (List.nodup_append.mp hnodup).2.2 idx hin idx (List.mem_singleton_self idx) rfl

/-! ## The two runs side by side -/

/-- The runs of the two builds agree; the one without assertions has empty maps. -/
structure Twins (d r : MttRun) : Prop where
  alloc : d.mtt.alloc = r.mtt.alloc
  pins : d.mtt.pins = r.mtt.pins
  empty : r.mtt.mrkeyMap = fun _ => none
  returns : d.returns = r.returns
  panicked : d.panicked = r.panicked
  fresh : FreshKeys d.mtt

variable {cfg : PageCfg} {checks : Bool} {umem : UmemHandler} {mrKey : UInt32}

/-- Recording a key that is in no map. -/
lemma recordKey_debug (mtt : Mtt) (hmap : mtt.mrkeyMap mrKey = none)
    (hva : mtt.keyToVaRange mrKey = none) (entry : PgtEntry) (vaStart length : UInt64) :
    mtt.recordKey (debugBuild checks) mrKey entry vaStart length = .ok { mtt with
      mrkeyMap := update mtt.mrkeyMap mrKey (some entry)
      keyToVaRange := update mtt.keyToVaRange mrKey (some (vaStart, length)) } := by
  rw [Mtt.recordKey, debugBuild, if_pos rfl, require_of _ hmap, require_of _ hva]
  rfl

/-- The rest of the free keys are in no map after one of them was recorded. -/
lemma FreshKeys.record {mtt : Mtt} (h : FreshKeys mtt)
    (hout : mrKey >>> lrKeyKeyPartWidth ∉ mtt.alloc.mr.freeList) (entry : PgtEntry)
    (va : UInt64 × UInt64) (pins : PinState) :
    FreshKeys { mtt with
      mrkeyMap := update mtt.mrkeyMap mrKey (some entry)
      keyToVaRange := update mtt.keyToVaRange mrKey (some va)
      pins := pins } := by
  refine ⟨h.free, fun idx hidx key hkey => ?_⟩
  have hne : key ≠ mrKey := by
    rintro rfl
    exact hout (hkey ▸ hidx)
  obtain ⟨hmap, hva⟩ := h.unmapped idx hidx key hkey
  exact ⟨(update_of_ne hne _ _).trans hmap, (update_of_ne hne _ _).trans hva⟩

/-- Pinning does not depend on debug assertions. -/
lemma insert_builds (s : PinState) (addr length : ℕ) :
    s.insert cfg (releaseBuild checks) umem addr length =
      s.insert cfg (debugBuild checks) umem addr length := rfl

lemma Twins.register {d r : MttRun} (h : Twins d r) (hrun : d.panicked = none)
    (numPages vaStart length : UInt64) (rand : UInt8) :
    Twins (d.step cfg (debugBuild checks) umem (.register numPages vaStart length rand))
      (r.step cfg (releaseBuild checks) umem (.register numPages vaStart length rand)) := by
  have hrun' : r.panicked = none := h.panicked ▸ hrun
  simp only [MttRun.step, hrun, hrun', Option.isSome_none, Bool.false_eq_true, if_false,
    MttRun.call, Mtt.register, ← h.alloc]
  rcases halloc : d.mtt.alloc.alloc numPages.toNat rand with ⟨_ | ⟨mrKey, entry⟩, alloc⟩
  · obtain ⟨hfresh, -⟩ := h.fresh.alloc halloc
    exact ⟨rfl, h.pins, h.empty, congrArg (· ++ _) h.returns, rfl, hfresh⟩
  · obtain ⟨hfresh, hnew⟩ := h.fresh.alloc halloc
    obtain ⟨hmap, hva, hout⟩ := hnew mrKey entry rfl
    have hdebug :
      Mtt.recordKey (debugBuild checks) { d.mtt with alloc } mrKey entry vaStart length = .ok _ :=
      recordKey_debug { d.mtt with alloc } hmap hva entry vaStart length
    have hrelease :
      Mtt.recordKey (releaseBuild checks) { r.mtt with alloc } mrKey entry vaStart length =
      .ok { r.mtt with alloc } := rfl
    simp only [hdebug, hrelease, bind, Except.bind]
    simp only [← h.pins, insert_builds]
    rcases hpins :
      d.mtt.pins.insert cfg (debugBuild checks) umem vaStart.toNat length.toNat with p | pins
    · exact ⟨h.alloc, h.pins, h.empty, h.returns, rfl, h.fresh⟩
    · exact ⟨rfl, rfl, h.empty, congrArg (· ++ _) h.returns, rfl,
        hfresh.record hout entry (vaStart, length) pins⟩

/-- A key in neither map is refused, and nothing changes. -/
lemma deregister_unknown {build : Build} {mtt : Mtt} (h : mtt.mrkeyMap mrKey = none) :
    MttRun.call cfg build umem mtt (.deregister mrKey) =
      .ok (.deregistered (.error (.invalidInput "failed to remove mr key")), mtt) := by
  simp only [MttRun.call, Mtt.deregister, h]
  rfl

lemma Twins.step {d r : MttRun} (h : Twins d r) (c : MttCall)
    (hlive : ∀ mrKey, c = .deregister mrKey → d.panicked = none → d.mtt.mrkeyMap mrKey = none) :
    Twins (d.step cfg (debugBuild checks) umem c) (r.step cfg (releaseBuild checks) umem c) := by
  rcases hrun : d.panicked with _ | p
  · cases c with
    | register numPages vaStart length rand => exact h.register hrun numPages vaStart length rand
    | deregister mrKey =>
      have hdebug := hlive mrKey rfl hrun
      have hrelease : r.mtt.mrkeyMap mrKey = none := by rw [h.empty]
      simp only [MttRun.step, hrun, h.panicked ▸ hrun, Option.isSome_none, Bool.false_eq_true,
        if_false, deregister_unknown hdebug, deregister_unknown hrelease]
      exact ⟨h.alloc, h.pins, h.empty, congrArg (· ++ _) h.returns, rfl, h.fresh⟩
  · simp only [MttRun.step, hrun, h.panicked ▸ hrun, Option.isSome_some, if_true]
    exact h

lemma twins_of_noLiveDeregister {calls : List MttCall}
    (h : NoLiveDeregister cfg checks umem calls) :
    Twins (MttRun.run cfg (debugBuild checks) umem calls)
      (MttRun.run cfg (releaseBuild checks) umem calls) := by
  induction calls using List.reverseRecOn with
  | nil => exact ⟨rfl, rfl, rfl, rfl, rfl, ⟨List.prefix_refl _, fun _ _ _ _ => ⟨rfl, rfl⟩⟩⟩
  | append_singleton calls c ih =>
    rw [MttRun.run_snoc, MttRun.run_snoc]
    refine (ih fun pre k hpre => h pre k (hpre.trans (List.prefix_append _ _))).step c ?_
    rintro mrKey rfl
    exact h calls mrKey (List.prefix_refl _)

/-! ## The first deregistration of a live key -/

lemma release_call {mtt mtt' : Mtt} (h : ∀ mrKey, mtt.mrkeyMap mrKey = none) {c : MttCall}
    {r : MttReturn} (hcall : MttRun.call cfg (releaseBuild checks) umem mtt c = .ok (r, mtt')) :
    ∀ mrKey, mtt'.mrkeyMap mrKey = none := by
  cases c with
  | deregister mrKey =>
    rw [deregister_unknown (h mrKey)] at hcall
    obtain ⟨-, rfl⟩ := Prod.mk.inj (Except.ok.inj hcall)
    exact h
  | register numPages vaStart length rand =>
    obtain ⟨⟨res, m⟩, hreg, hret⟩ := bind_eq_ok hcall
    obtain ⟨-, rfl⟩ := Prod.mk.inj (Except.ok.inj hret)
    rw [Mtt.register] at hreg
    rcases halloc : mtt.alloc.alloc numPages.toNat rand with ⟨_ | ⟨mrKey, entry⟩, alloc⟩
    · simp only [halloc] at hreg
      obtain ⟨-, rfl⟩ := Prod.mk.inj (Except.ok.inj hreg)
      exact h
    · simp only [halloc] at hreg
      obtain ⟨m', hrecord, hreg⟩ := bind_eq_ok hreg
      obtain ⟨pins, -, hreg⟩ := bind_eq_ok hreg
      obtain rfl := Except.ok.inj hrecord
      obtain ⟨-, rfl⟩ := Prod.mk.inj (Except.ok.inj hreg)
      exact h

/-- Without assertions no key is ever recorded. -/
lemma release_maps (calls : List MttCall) :
    ∀ mrKey, (MttRun.run cfg (releaseBuild checks) umem calls).mtt.mrkeyMap mrKey = none := by
  induction calls using List.reverseRecOn with
  | nil => exact fun _ => rfl
  | append_singleton calls c ih =>
    rw [MttRun.run_snoc, MttRun.step]
    split
    · exact ih
    · split
      · exact ih
      · rename_i hcall
        exact release_call ih hcall

/-- A recorded key is not refused as unknown. -/
lemma deregister_live {build : Build} {mtt mtt' : Mtt} {entry : PgtEntry}
    (h : mtt.mrkeyMap mrKey = some entry) {r : MttReturn}
    (hcall : MttRun.call cfg build umem mtt (.deregister mrKey) = .ok (r, mtt')) :
    r ≠ .deregistered (.error (.invalidInput "failed to remove mr key")) := by
  obtain ⟨⟨res, m⟩, hder, hret⟩ := bind_eq_ok hcall
  obtain ⟨rfl, rfl⟩ := Prod.mk.inj (Except.ok.inj hret)
  simp only [Mtt.deregister, h] at hder
  split at hder
  · obtain ⟨rfl, -⟩ := Prod.mk.inj (Except.ok.inj hder)
    simp
  · split at hder
    · cases hder
    · obtain ⟨pins, -, hder⟩ := bind_eq_ok hder
      obtain ⟨rfl, -⟩ := Prod.mk.inj (Except.ok.inj hder)
      simp

/-- **The two builds behave the same** on a sequence of calls exactly if none of them deregisters a
live key. -/
theorem builds_agree_iff (cfg : PageCfg) (checks : Bool) (umem : UmemHandler)
    (calls : List MttCall) :
    BuildsAgree cfg checks umem calls ↔ NoLiveDeregister cfg checks umem calls := by
  constructor
  · intro h pre mrKey hpre d hrun
    by_contra hlive
    obtain ⟨entry, hentry⟩ := Option.ne_none_iff_exists'.mp hlive
    obtain ⟨hreturns, hpanicked, -⟩ := h pre ((List.prefix_append _ _).trans hpre)
    obtain ⟨hafter, -⟩ := h _ hpre
    -- without assertions the key is unknown; with them it is not
    have hrun' : (MttRun.run cfg (releaseBuild checks) umem pre).panicked = none := hpanicked ▸ hrun
    rw [MttRun.run_snoc, MttRun.run_snoc, MttRun.step, MttRun.step, if_neg (by rw [hrun]; simp),
      if_neg (by rw [hrun']; simp), deregister_unknown (release_maps pre mrKey)] at hafter
    split at hafter
    · rw [hreturns] at hafter
      exact absurd (congrArg List.length hafter) (by simp)
    · rename_i r mtt' hcall
      rw [hreturns] at hafter
      exact deregister_live hentry hcall (List.singleton_inj.mp (List.append_cancel_left hafter))
  · intro h pre hpre
    have htwins : Twins (MttRun.run cfg (debugBuild checks) umem pre)
        (MttRun.run cfg (releaseBuild checks) umem pre) :=
      twins_of_noLiveDeregister fun q k hq => h q k (hq.trans hpre)
    exact ⟨htwins.returns, htwins.panicked, fun page => by rw [htwins.pins]⟩

/-- A region is registered and deregistered. -/
def registerAndBack : List MttCall := [.register 1 0x200000 0x1000 0, .deregister 0x3f00]

/-- **Without debug assertions a live key cannot be deregistered**, and its page stays pinned. -/
theorem release_keeps_region : ¬ BuildsAgree .pageSize2m true .ideal registerAndBack := by
  intro h
  have hpin := (h registerAndBack (List.prefix_refl _)).2.2 1
  exact absurd hpin (by decide +kernel)

end OpenRdma
