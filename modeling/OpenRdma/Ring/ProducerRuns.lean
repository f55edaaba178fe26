import OpenRdma.Ring.ProducerRing

/-!
# The producer ring is a bounded FIFO

`ProducerInv` states over the positions of the stream of all descriptors what the pointers and the
buffer are.  Card steps keep it (`ProducerInv.card`); inside a call `Writing` says in addition which
of the new descriptors are in their slots, beyond the published head.

**`producerRing_fifo`**: in every interleaving the card reads the pushed descriptors, in order and
once each; it never sees a part of a push; and no step of the driver changes a slot that is still to
be read.
-/

namespace OpenRdma

variable {spec : RingSpec} {α β : Type}

/-! ## The free slots -/

namespace RingPtr

/-- The driver's arithmetic on an index and a raw pointer is the distance, modulo the size. -/
lemma used_modEq {h c : ℕ} (hch : c ≤ h) :
    (((ofPos spec h).index - (ofPos spec c).raw + bufSize spec) &&& bufSizeMask spec).toNat ≡
      h - c [MOD spec.elementNum] := by
  have hN := spec.elementNum_lt
  have hpos := spec.elementNum_pos
  have hdvd : spec.elementNum ∣ 2 ^ 32 := (Nat.dvd_mul_left _ 2).trans spec.two_mul_dvd
  have hclt : c % (2 * spec.elementNum) < 2 * spec.elementNum := Nat.mod_lt _ (by omega)
  have hsum : 2 ^ 32 - c % (2 * spec.elementNum) + h % spec.elementNum + spec.elementNum ≡
      h - c [MOD spec.elementNum] := by
    refine Nat.ModEq.add_right_cancel (c := c % (2 * spec.elementNum)) (d := c)
      (Nat.mod_mod_of_dvd c (Nat.dvd_mul_left _ 2)) ?_
    rw [show 2 ^ 32 - c % (2 * spec.elementNum) + h % spec.elementNum + spec.elementNum +
        c % (2 * spec.elementNum) = 2 ^ 32 + spec.elementNum + h % spec.elementNum by omega,
      show h - c + c = 0 + h by omega]
    exact (Nat.modEq_zero_iff_dvd.mpr (hdvd.add (dvd_refl _))).add (Nat.mod_modEq h _)
  rw [and_mask_toNat _ (bufSizeMask_toNat spec), UInt32.toNat_add, UInt32.toNat_sub, index_ofPos,
    ofPos_toNat, bufSize_toNat]
  calc _ ≡ _ [MOD spec.elementNum] := Nat.mod_modEq _ _
    _ ≡ _ [MOD spec.elementNum] := (Nat.mod_modEq _ (2 ^ 32)).of_dvd hdvd
    _ ≡ _ [MOD spec.elementNum] := ((Nat.mod_modEq _ (2 ^ 32)).of_dvd hdvd).add_right _
    _ ≡ h - c [MOD spec.elementNum] := hsum

end RingPtr

/-- **The free slots**, for a head at most one round after the cached tail. -/
lemma available_toNat {ring : ProducerRing spec β} {h c : ℕ}
    (hhead : ring.cachedHead = .ofPos spec h) (htail : ring.cachedHwTail = .ofPos spec c)
    (hch : c ≤ h) (hhc : h ≤ c + spec.elementNum) :
    ring.available.toNat + (h - c) = spec.elementNum := by
  have hpos := spec.elementNum_pos
  rw [ProducerRing.available, hhead, htail]
  dsimp only
  by_cases hidx : h % spec.elementNum = c % spec.elementNum
  · rw [if_pos (RingPtr.hasSameIndex_ofPos.mpr hidx)]
    have hdvd : spec.elementNum ∣ h - c := (Nat.modEq_iff_dvd' hch).mp hidx.symm
    by_cases heq : h = c
    · rw [if_pos (RingPtr.hasSameRaw_iff.mpr (by rw [heq])), RingPtr.bufSize_toNat, heq]
      omega
    · rw [if_neg (fun hraw =>
        heq ((RingPtr.ofPos_inj_of_le hch hhc).mp (RingPtr.hasSameRaw_iff.mp hraw)))]
      have hle := Nat.le_of_dvd (by omega) hdvd
      show 0 + (h - c) = _
      omega
  · rw [if_neg (fun hsame => hidx (RingPtr.hasSameIndex_ofPos.mp hsame))]
    have hlt : h - c < spec.elementNum := by
      refine lt_of_le_of_ne (by omega) (fun heq => hidx ?_)
      rw [show h = c + spec.elementNum by omega, Nat.add_mod_right]
    have hused :
      (((RingPtr.ofPos spec h).index - (RingPtr.ofPos spec c).raw + RingPtr.bufSize spec) &&&
        RingPtr.bufSizeMask spec).toNat = h - c := by
      refine Nat.ModEq.eq_of_lt_of_lt (RingPtr.used_modEq hch) ?_ hlt
      rw [RingPtr.and_mask_toNat _ (RingPtr.bufSizeMask_toNat spec)]
      exact Nat.mod_lt _ hpos
    rw [UInt32.toNat_sub_of_le _ _ (by
      rw [UInt32.le_iff_toNat_le, hused, RingPtr.bufSize_toNat]; exact hlt.le), hused,
      RingPtr.bufSize_toNat]
    omega

/-! ## The invariant -/

/-- The descriptors `pushed` are published; the cached tail is the card's tail of some earlier
time. -/
structure ProducerInv (pushed : List β) (cached : ℕ) (s : ProducerState spec β) : Prop where
  head : s.ring.cachedHead = .ofPos spec pushed.length
  tail : s.ring.cachedHwTail = .ofPos spec cached
  csrHead : s.csr.head = (RingPtr.ofPos spec pushed.length).raw
  csrTail : s.csr.tail = (RingPtr.ofPos spec s.consumed.length).raw
  stale : cached ≤ s.consumed.length
  read : s.consumed <+: pushed
  bounded : pushed.length ≤ cached + spec.elementNum
  window : Window s.ring.buffer pushed s.consumed.length pushed.length

namespace ProducerInv

variable {pushed : List β} {cached : ℕ} {s : ProducerState spec β}

lemma new (buffer : Fin spec.elementNum → β) : ProducerInv [] 0 (ProducerState.new buffer) where
  head := RingPtr.zero_eq_ofPos
  tail := RingPtr.zero_eq_ofPos
  csrHead := by rw [List.length_nil, ← RingPtr.zero_eq_ofPos]; exact UInt32.zero_and.symm
  csrTail := by
    rw [show (ProducerState.new buffer).consumed.length = 0 from rfl, ← RingPtr.zero_eq_ofPos]
    exact UInt32.zero_and.symm
  stale := le_refl 0
  read := List.prefix_refl []
  bounded := Nat.zero_le _
  window := fun p _ hp => absurd hp (Nat.not_lt_zero p)

lemma available (h : ProducerInv pushed cached s) :
    s.available.toNat + (pushed.length - cached) = spec.elementNum :=
  available_toNat h.head h.tail (h.stale.trans h.read.length_le) h.bounded

/-- A card step keeps the invariant and the driver's own fields. -/
lemma card (h : ProducerInv pushed cached s) (e : CardStep) :
    ProducerInv pushed cached (e.run s) := by
  cases e with
  | access ok => exact { h with }
  | consume =>
    simp only [CardStep.run, CardStep.consume1, h.csrHead, h.csrTail, RingPtr.new_raw]
    have hle := h.read.length_le
    have hbound := h.bounded
    have hstale := h.stale
    split
    · exact h
    · rename_i hne
      rw [RingPtr.hasSameRaw_iff, eq_comm, RingPtr.ofPos_inj_of_le hle (by omega)] at hne
      have hslot := h.window s.consumed.length le_rfl (by omega)
      refine { head := h.head, tail := h.tail, csrHead := rfl, csrTail := ?_, stale := ?_,
               read := ?_, bounded := h.bounded, window := ?_ }
      · rw [RingPtr.wrappingAdd_ofPos, List.length_append]
        rfl
      · rw [List.length_append]
        omega
      · rw [RingPtr.slot_ofPos]
        obtain ⟨rest, rfl⟩ := h.read
        rw [List.getElem?_append_right le_rfl, Nat.sub_self] at hslot
        obtain ⟨b, rest', rfl⟩ : ∃ b rest', rest = b :: rest' := by
          cases rest with
          | nil => simp at hslot
          | cons b rest' => exact ⟨b, rest', rfl⟩
        rw [List.getElem?_cons_zero, Option.some_inj] at hslot
        rw [← hslot]
        exact ⟨rest', by simp⟩
      · exact h.window.mono (by rw [List.length_append]; omega) le_rfl

/-- The card reads the next descriptor if there is one. -/
lemma consume_length (h : ProducerInv pushed cached s) (hlt : s.consumed.length < pushed.length) :
    (CardStep.consume.run s).consumed.length = s.consumed.length + 1 := by
  have hbound := h.bounded
  have hstale := h.stale
  simp only [CardStep.run, CardStep.consume1, h.csrHead, h.csrTail, RingPtr.new_raw]
  rw [if_neg, List.length_append]
  · rfl
  · rw [RingPtr.hasSameRaw_iff, eq_comm, RingPtr.ofPos_inj_of_le hlt.le (by omega)]
    omega

/-- The driver wrote a slot beyond the published head. -/
lemma writeSlot (h : ProducerInv pushed cached s) {p : ℕ} (hp : pushed.length ≤ p)
    (hpn : p < cached + spec.elementNum) (b : β) :
    ProducerInv pushed cached (s.writeSlot (.ofPos spec p) b) where
  head := h.head
  tail := h.tail
  csrHead := h.csrHead
  csrTail := h.csrTail
  stale := h.stale
  read := h.read
  bounded := h.bounded
  window := by
    have hstale := h.stale
    rw [ProducerState.writeSlot, RingPtr.slot_ofPos]
    exact h.window.write hp (by omega) b

/-- Reading the tail CSR makes the cached tail current. -/
lemma readTail (h : ProducerInv pushed cached s) (hok : s.csr.ok = true) :
    ProducerInv pushed s.consumed.length s.readTail.2 := by
  have hbound := h.bounded
  have hstale := h.stale
  rw [ProducerState.readTail, if_pos hok]
  exact { h with
    tail := by dsimp only; rw [h.csrTail, RingPtr.new_raw]
    stale := le_rfl
    bounded := by omega }

end ProducerInv

/-! ## Safety of the calls -/

/-- The descriptors `pushed` are published. -/
def Published (pushed : List β) (s : ProducerState spec β) : Prop := ∃ c, ProducerInv pushed c s

/-- There is room for `bytes`, and the first `i` of them are in their slots. -/
def Writing (pushed bytes : List β) (i : ℕ) (s : ProducerState spec β) : Prop :=
  ∃ c, ProducerInv pushed c s ∧ pushed.length + bytes.length ≤ c + spec.elementNum ∧
    Window s.ring.buffer (pushed ++ bytes) s.consumed.length (pushed.length + i)

/-- What the card may do in one step. -/
abbrev cardRely : ProducerState spec β → ProducerState spec β → Prop := Session.Rely CardStep.run

variable {s : ProducerState spec β}

lemma Writing.published {pushed bytes : List β} {i : ℕ}
    (h : Writing pushed bytes i s) : Published pushed s := by
  obtain ⟨c, hc, -⟩ := h
  exact ⟨c, hc⟩

lemma CardStep.run_ring (e : CardStep) (s : ProducerState spec β) :
    (e.run s).ring = s.ring ∧ s.consumed.length ≤ (e.run s).consumed.length := by
  cases e with
  | access ok => exact ⟨rfl, le_rfl⟩
  | consume =>
    simp only [CardStep.run, CardStep.consume1]
    split
    · exact ⟨rfl, le_rfl⟩
    · exact ⟨rfl, by rw [List.length_append]; omega⟩

lemma stable_published (pushed : List β) :
    Prog.Stable cardRely (Published pushed : ProducerState spec β → Prop) := by
  rintro s _ ⟨e, rfl⟩ ⟨c, hc⟩
  exact ⟨c, hc.card e⟩

lemma stable_writing (pushed bytes : List β) (i : ℕ) :
    Prog.Stable cardRely (Writing pushed bytes i : ProducerState spec β → Prop) := by
  rintro s _ ⟨e, rfl⟩ ⟨c, hc, hroom, hw⟩
  obtain ⟨hring, hle⟩ := e.run_ring s
  refine ⟨c, hc.card e, hroom, ?_⟩
  rw [hring]
  exact hw.mono hle le_rfl

namespace ProducerRing

variable {pushed : List β} {s : ProducerState spec β}

/-- The room that the driver computes is there. -/
lemma writing_of_available {cached : ℕ} (h : ProducerInv pushed cached s) {bytes : List β}
    (hlen : bytes.length ≤ s.available.toNat) : Writing pushed bytes 0 s := by
  have havai := h.available
  have hbound := h.bounded
  have hstale := h.stale.trans h.read.length_le
  exact ⟨cached, h, by omega, h.window.append le_rfl bytes⟩

lemma reserve_safe (hs : Published pushed s) (bytes : List β) :
    (reserve bytes.length).Safe cardRely (Published pushed)
      (fun r s => Published pushed s ∧ (r = .ok true → Writing pushed bytes 0 s)) s := by
  refine Prog.Safe.act (Published pushed) (stable_published pushed) (fun _ h => h) ?_ hs
  rintro s ⟨c, hc⟩
  simp only [Prog.bind, id_eq]
  split
  · -- the cached tail leaves too little: read it, and look again
    refine Prog.Safe.act (Published pushed) (stable_published pushed) (fun _ h => h) ?_ ⟨c, hc⟩
    rintro s ⟨c, hc⟩
    simp only [Prog.bind]
    by_cases hok : s.csr.ok = true
    · have hread := hc.readTail hok
      simp only [ProducerState.readTail, if_pos hok] at hread ⊢
      refine Prog.Safe.act (Published pushed) (stable_published pushed) (fun _ h => h) ?_ ⟨_, hread⟩
      rintro s ⟨c, hc⟩
      refine ⟨⟨c, hc⟩, fun hroom => writing_of_available hc ?_⟩
      simpa using hroom
    · simp only [ProducerState.readTail, if_neg hok]
      exact ⟨⟨c, hc⟩, nofun⟩
  · rename_i hroom
    exact ⟨⟨c, hc⟩, fun _ => writing_of_available hc (not_lt.mp hroom)⟩

/-- The loop over the descriptors: `i` of them are in their slots already. -/
lemma writeFrom_safe {bytes rest : List β} {i : ℕ} (hrest : bytes.drop i = rest)
    (hi : i + rest.length = bytes.length) (hs : Writing pushed bytes i s) :
    (writeFrom (.ofPos spec pushed.length) rest (UInt32.ofNat i)).Safe cardRely (Published pushed)
      (fun _ => Writing pushed bytes bytes.length) s := by
  induction rest generalizing i s with
  | nil =>
    obtain rfl : i = bytes.length := hi
    exact hs
  | cons b rest ih =>
    refine Prog.Safe.act (Writing pushed bytes i) (stable_writing pushed bytes i)
      (fun _ h => h.published) ?_ hs
    rintro s ⟨c, hc, hroom, hw⟩
    rw [List.length_cons] at hi
    have hstale := hc.stale
    have hlen := hc.read.length_le
    have hN := spec.elementNum_lt
    have hget : bytes[i]? = some b := by
      rw [← Nat.add_zero i, ← List.getElem?_drop, hrest, List.getElem?_cons_zero]
    have hptr : (RingPtr.ofPos spec pushed.length).wrappingAdd (UInt32.ofNat i) =
        .ofPos spec (pushed.length + i) := by
      rw [RingPtr.wrappingAdd_ofPos, UInt32.toNat_ofNat', Nat.mod_eq_of_lt (by omega)]
    rw [hptr, show UInt32.ofNat i + 1 = UInt32.ofNat (i + 1) from (UInt32.ofNat_add i 1).symm]
    refine ih ?_ (by omega) ⟨c, hc.writeSlot (by omega) (by omega) b, hroom, ?_⟩
    · rw [← List.drop_drop, hrest, List.drop_one, List.tail_cons]
    · rw [ProducerState.writeSlot, RingPtr.slot_ofPos]
      refine hw.push (by omega) ?_
      rw [List.getElem?_append_right (by omega), Nat.add_sub_cancel_left, hget]

/-- The descriptors in their slots are published with one CSR write. -/
lemma writeHead_published {bytes : List β} (h : Writing pushed bytes bytes.length s)
    (hok : s.csr.ok = true) : Published (pushed ++ bytes)
      (s.writeHead (.ofPos spec (pushed.length + bytes.length))).2 := by
  obtain ⟨c, hc, hroom, hw⟩ := h
  rw [ProducerState.writeHead, if_pos hok]
  refine ⟨c, { hc with head := ?_, csrHead := ?_, read := ?_, bounded := ?_, window := ?_ }⟩
  · rw [List.length_append]
  · rw [List.length_append]
  · exact hc.read.trans (List.prefix_append pushed bytes)
  · rwa [List.length_append]
  · rwa [List.length_append]

lemma commit_safe {bytes : List β} (hs : Writing pushed bytes 0 s) :
    (commit bytes).Safe cardRely (Published pushed)
      (fun r => Published (match r with | .ok _ => pushed ++ bytes | .error _ => pushed)) s := by
  refine Prog.Safe.act (Writing pushed bytes 0) (stable_writing pushed bytes 0)
    (fun _ h => h.published) ?_ hs
  intro s hs
  have hhead : s.ring.cachedHead = .ofPos spec pushed.length := by
    obtain ⟨c, hc, -⟩ := hs
    exact hc.head
  simp only [Prog.bind, hhead, id_eq]
  refine Prog.Safe.bind ?_ (writeFrom_safe (i := 0) List.drop_zero (Nat.zero_add _) hs)
  intro _ s hs
  refine Prog.Safe.act (Writing pushed bytes bytes.length) (stable_writing pushed bytes _)
    (fun _ h => h.published) ?_ hs
  intro s hs
  have hptr : (RingPtr.ofPos spec pushed.length).wrappingAdd (UInt32.ofNat bytes.length) =
      .ofPos spec (pushed.length + bytes.length) := by
    obtain ⟨c, hc, hroom, -⟩ := hs
    have hstale := hc.stale
    have hlen := hc.read.length_le
    have hN := spec.elementNum_lt
    rw [RingPtr.wrappingAdd_ofPos, UInt32.toNat_ofNat', Nat.mod_eq_of_lt (by omega)]
  rw [hptr]
  by_cases hok : s.csr.ok = true
  · have hpub := writeHead_published hs hok
    simp only [ProducerState.writeHead, if_pos hok] at hpub ⊢
    exact hpub
  · simp only [ProducerState.writeHead, if_neg hok]
    exact hs.published

variable (toBytes : α → β)

lemma tryPushAtomic_safe (hs : Published pushed s) (elements : List α) :
    (tryPushAtomic toBytes elements).Safe cardRely (Published pushed)
      (fun r => Published (if r = .ok true then pushed ++ elements.map toBytes else pushed)) s := by
  have hreserve := reserve_safe hs (elements.map toBytes)
  rw [List.length_map] at hreserve
  refine hreserve.tryBind (fun _ _ h => h.1) (fun room s h => ?_)
  cases room with
  | false => exact h.1
  | true => exact (commit_safe (h.2 rfl)).tryBind (fun _ _ h => h) (fun _ _ h => h)

lemma length_batchOf (count : UInt32) (writer : UInt32 → α) :
    (batchOf toBytes count writer).length = count.toNat := by
  rw [batchOf, List.length_map, List.length_range]

lemma batchWrite_safe (hs : Published pushed s) (count : UInt32) (writer : UInt32 → α) :
    (batchWrite toBytes count writer).Safe cardRely (Published pushed)
      (fun r s => (r.toOption.getD 0 = 0 ∧ Published pushed s) ∨
        (r = .ok count ∧ Published (pushed ++ batchOf toBytes count writer) s)) s := by
  rw [batchWrite]
  split
  · exact Or.inl ⟨rfl, hs⟩
  split
  · exact Or.inl ⟨rfl, hs⟩
  have hreserve := reserve_safe hs (batchOf toBytes count writer)
  rw [length_batchOf] at hreserve
  refine hreserve.tryBind (fun _ _ h => Or.inl ⟨rfl, h.1⟩) (fun room s h => ?_)
  cases room with
  | false => exact Or.inl ⟨rfl, h.1⟩
  | true =>
    exact (commit_safe (h.2 rfl)).tryBind (fun _ _ h => Or.inl ⟨rfl, h⟩)
      (fun _ _ h => Or.inr ⟨rfl, h⟩)

end ProducerRing

/-- **A call pushes all of its descriptors or none**, and returns which. -/
lemma PushCall.body_safe (toBytes : α → β) {pushed : List β}
    (hs : Published pushed s) (c : PushCall α) :
    (c.body toBytes).Safe cardRely (Published pushed) (fun r s =>
      (r.count (c.bytes toBytes).length = 0 ∧ Published pushed s) ∨
      (r.count (c.bytes toBytes).length = (c.bytes toBytes).length ∧
        Published (pushed ++ c.bytes toBytes) s)) s := by
  cases c with
  | tryPushAtomic elements =>
    refine Prog.Safe.bind (fun r s h => ?_) (ProducerRing.tryPushAtomic_safe toBytes hs elements)
    rcases r with e | _ | _
    · exact Or.inl ⟨rfl, h⟩
    · exact Or.inl ⟨rfl, h⟩
    · exact Or.inr ⟨rfl, h⟩
  | batchWrite count writer =>
    refine Prog.Safe.bind (fun r s h => ?_)
      (ProducerRing.batchWrite_safe toBytes hs count writer)
    rcases h with ⟨h0, h⟩ | ⟨rfl, h⟩
    · refine Or.inl ⟨?_, h⟩
      cases r with
      | error e => rfl
      | ok n => exact congrArg UInt32.toNat h0
    · exact Or.inr ⟨(ProducerRing.length_batchOf toBytes count writer).symm, h⟩

/-! ## Runs -/

lemma pushedBy_snoc (toBytes : α → β) (done : List (PushCall α × PushReturn)) (c : PushCall α)
    (r : PushReturn) : pushedBy toBytes (done ++ [(c, r)]) =
      pushedBy toBytes done ++ (c.bytes toBytes).take (r.count (c.bytes toBytes).length) := by
  rw [pushedBy, pushedBy, List.flatMap_append, List.flatMap_singleton]

/-- The call pushed all of its descriptors or none, by its return value. -/
def AllOrNothing (toBytes : α → β) (d : PushCall α × PushReturn) : Prop :=
  d.2.count (d.1.bytes toBytes).length = 0 ∨
    d.2.count (d.1.bytes toBytes).length = (d.1.bytes toBytes).length

/-- What the calls report as pushed is published, and each pushed all or nothing. -/
def PushAccounts (toBytes : α → β) (done : List (PushCall α × PushReturn))
    (s : ProducerState spec β) : Prop :=
  Published (pushedBy toBytes done) s ∧ ∀ d ∈ done, AllOrNothing toBytes d

lemma run_published (toBytes : α → β) (buffer : Fin spec.elementNum → β)
    (acts : List (SessionAction (PushCall α) CardStep)) :
    PushAccounts toBytes (ProducerSession.run toBytes buffer acts).done
      (ProducerSession.run toBytes buffer acts).shared := by
  suffices h : Session.Sound CardStep.run (PushAccounts toBytes) (PushAccounts toBytes)
      (ProducerSession.run toBytes buffer acts) from Session.inv_of_sound h (fun _ _ h => h)
  refine Session.run_sound ?_ ?_ ?_ acts
  · rintro done s s' hrely ⟨hpub, hall⟩
    exact ⟨stable_published _ s s' hrely hpub, hall⟩
  · rintro c done s ⟨hpub, hall⟩
    refine (c.body_safe toBytes hpub).mono (fun s h => ⟨h, hall⟩) (fun r s h => ?_)
    have hdone : AllOrNothing toBytes (c, r) → ∀ d ∈ done ++ [(c, r)], AllOrNothing toBytes d := by
      intro hr d hd
      rcases List.mem_append.mp hd with hd | hd
      · exact hall d hd
      · rwa [List.mem_singleton.mp hd]
    rw [PushAccounts, pushedBy_snoc]
    rcases h with ⟨hcount, h⟩ | ⟨hcount, h⟩
    · rw [hcount, List.take_zero, List.append_nil]
      exact ⟨h, hdone (Or.inl hcount)⟩
    · rw [hcount, List.take_length]
      exact ⟨h, hdone (Or.inr hcount)⟩
  · exact ⟨⟨0, .new buffer⟩, by simp⟩

/-- The card, left alone, reads everything that is published. -/
lemma ProducerInv.drain {pushed : List β} {cached : ℕ}
    (h : ProducerInv pushed cached s) (k : ℕ) (hk : s.consumed.length + k = pushed.length) :
    (CardStep.consume.run^[k] s).consumed = pushed := by
  induction k generalizing s with
  | zero => exact h.read.eq_of_length hk
  | succ k ih =>
    rw [Function.iterate_succ_apply]
    refine ih (h.card .consume) ?_
    rw [h.consume_length (by omega)]
    omega

/-- **The producer ring is a bounded FIFO.**  Take any interleaving of pushes with steps of the
card, and let `pushed` be what the calls report as pushed.  What the card has read is the start of
it, and left alone the card reads exactly the rest; every call pushed all or nothing; a descriptor
that the card has yet to read stays in its slot whatever happens next; and `available` is the size
of the ring less what is unread by the cached tail, which is where the card's tail once was. -/
theorem producerRing_fifo (toBytes : α → β) (buffer : Fin spec.elementNum → β)
    (acts : List (SessionAction (PushCall α) CardStep)) :
    let s := ProducerSession.run toBytes buffer acts
    let pushed := pushedBy toBytes s.done
    s.shared.consumed <+: pushed ∧
    (CardStep.consume.run^[pushed.length - s.shared.consumed.length] s.shared).consumed = pushed ∧
    (∀ d ∈ s.done, AllOrNothing toBytes d) ∧
    (∀ more, let s' := ProducerSession.run toBytes buffer (acts ++ more)
      ∀ p, s.shared.consumed.length ≤ p → s'.shared.consumed.length ≤ p → p < pushed.length →
        s'.shared.ring.buffer (slotOf spec.elementNum p) =
          s.shared.ring.buffer (slotOf spec.elementNum p)) ∧
    ∃ cached ≤ s.shared.consumed.length,
      s.shared.ring.cachedHwTail = .ofPos spec cached ∧
      s.shared.available.toNat + (pushed.length - cached) = spec.elementNum := by
  intro s pushed
  obtain ⟨⟨cached, h⟩, hall⟩ := run_published toBytes buffer acts
  refine ⟨h.read, h.drain _ (Nat.add_sub_cancel' h.read.length_le), hall, ?_, cached, h.stale,
    h.tail, h.available⟩
  intro more s' p hp hp' hlt
  obtain ⟨⟨cached', h'⟩, -⟩ := run_published toBytes buffer (acts ++ more)
  have hdone : s.done <+: s'.done := by
    simp only [s', ProducerSession.run, Session.run_append]
    exact Session.run_done _ _ _ more
  have hpre : pushed <+: pushedBy toBytes s'.done := by
    obtain ⟨rest, hrest⟩ := hdone
    simp only [pushed, pushedBy, ← hrest, List.flatMap_append]
    exact List.prefix_append _ _
  have hslot := h.window p hp hlt
  have hslot' := h'.window p hp' (hlt.trans_le hpre.length_le)
  obtain ⟨rest, hrest⟩ := hpre
  rw [← hrest, List.getElem?_append_left hlt, hslot, Option.some_inj] at hslot'
  exact hslot'.symm

/-- Two pushes of two and of one descriptor into a ring of two, the second after the card has read
one descriptor and the head has wrapped. -/
def wrappedPushes : List (SessionAction (PushCall ℕ) CardStep) :=
  [.call (.tryPushAtomic [1, 2]), .step, .step, .step, .step, .step, .env .consume,
   .call (.tryPushAtomic [3]), .step, .step, .step, .step, .step, .step]

theorem producerRing_fifo_wrapped :
    let s := ProducerSession.run id (fun _ : Fin pairSpec.elementNum => 0) wrappedPushes
    pushedBy id s.done = [1, 2, 3] ∧ s.shared.consumed = [1] ∧ s.shared.consumed <+: [1, 2, 3] :=
  ⟨by decide +kernel, by decide +kernel,
    (producerRing_fifo id (fun _ : Fin pairSpec.elementNum => 0) wrappedPushes).1⟩

end OpenRdma
