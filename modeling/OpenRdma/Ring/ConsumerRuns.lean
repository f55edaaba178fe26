import Mathlib.Data.List.ReduceOption
import OpenRdma.Ring.ConsumerRing

/-!
# The consumer ring delivers what the card wrote

`ConsumerInv` states over positions what the ring holds: the descriptors from the driver's tail on
are in their slots, and every other slot is zero — this is what makes the valid bit mean that a
descriptor is there.  `Taken` and `Taking` add which elements the driver has popped.

**`tryPop_delivers`**: in every interleaving the popped elements are the first ones that the card
started, each popped once and with all its descriptors; and a complete element is popped by the next
call.
-/

namespace OpenRdma

variable {spec : RingSpec} {α β : Type} [FromRingBytes α β]

/-- The descriptors of some elements. -/
def descriptorsOf (es : List (CardElement spec α)) : List β := es.flatMap CardElement.bytes

lemma descriptorsOf_append (es fs : List (CardElement spec α)) :
    descriptorsOf (es ++ fs) = descriptorsOf es ++ descriptorsOf fs := List.flatMap_append

lemma descriptorsOf_singleton (e : CardElement spec α) : descriptorsOf [e] = e.bytes :=
  List.flatMap_singleton _ _

/-- The ring, with the driver's tail at position `t`. -/
structure ConsumerInv (t : ℕ) (s : ConsumerState spec α) : Prop where
  tail : s.ring.cachedTail = .ofPos spec t
  head : s.csr.head = (RingPtr.ofPos spec s.written.length).raw
  published : ∃ pub ≤ t, s.csr.tail = (RingPtr.ofPos spec pub).raw ∧
    s.written.length ≤ pub + spec.elementNum
  le : t ≤ s.written.length
  stream : s.written ++ s.pending.toList = descriptorsOf s.elements
  window : Window s.ring.buffer s.written t s.written.length
  free : ∀ p, s.written.length ≤ p → p < t + spec.elementNum →
    s.ring.buffer (slotOf spec.elementNum p) = FromRingBytes.zeroed α

namespace ConsumerInv

variable {t : ℕ} {s : ConsumerState spec α}

lemma new : ConsumerInv 0 (ConsumerState.new : ConsumerState spec α) where
  tail := RingPtr.zero_eq_ofPos
  head := by
    rw [show (ConsumerState.new : ConsumerState spec α).written.length = 0 from rfl,
      ← RingPtr.zero_eq_ofPos]
    exact UInt32.zero_and.symm
  published := ⟨0, le_rfl, by rw [← RingPtr.zero_eq_ofPos]; exact UInt32.zero_and.symm,
    Nat.zero_le _⟩
  le := le_rfl
  stream := rfl
  window := fun p _ hp => absurd hp (Nat.not_lt_zero p)
  free := fun _ _ _ => rfl

/-! ## The card's steps -/

variable (h : ConsumerInv t s)

include h

/-- The slot that the card takes for free is free. -/
lemma room (hroom : CardWrite.hasRoom s = true) :
    ∃ pub ≤ t, s.csr.tail = (RingPtr.ofPos spec pub).raw ∧
      s.written.length < pub + spec.elementNum := by
  obtain ⟨pub, hpub, htail, hbound⟩ := h.published
  have hle := h.le
  rw [CardWrite.hasRoom, decide_eq_true_iff, h.head, htail, RingPtr.new_raw, RingPtr.new_raw,
    RingPtr.wrappingSub_ofPos (by omega) hbound] at hroom
  exact ⟨pub, hpub, htail, by omega⟩

/-- The card writes a descriptor; which element it belongs to is said by `hstream`. -/
lemma write (hroom : CardWrite.hasRoom s = true) (b : β) {es : List (CardElement spec α)}
    {pending : Option β} (hstream : s.written ++ [b] ++ pending.toList = descriptorsOf es) :
    ConsumerInv t { CardWrite.writeDesc b s with elements := es, pending := pending } := by
  obtain ⟨pub, hpub, htail, hlt⟩ := h.room hroom
  have hle := h.le
  have hslot :
      (RingPtr.new s.csr.head : RingPtr spec).slot = slotOf spec.elementNum s.written.length := by
    rw [h.head, RingPtr.new_raw, RingPtr.slot_ofPos]
  have hlen : (s.written ++ [b]).length = s.written.length + 1 := by
    rw [List.length_append, List.length_singleton]
  refine { tail := h.tail, head := ?_, published := ⟨pub, hpub, htail, ?_⟩, le := ?_,
           stream := hstream, window := ?_, free := ?_ }
  · simp only [CardWrite.writeDesc, h.head, RingPtr.new_raw, RingPtr.wrappingAdd_ofPos, hlen]
    rfl
  · simp only [CardWrite.writeDesc, hlen]
    omega
  · simp only [CardWrite.writeDesc, hlen]
    omega
  · simp only [CardWrite.writeDesc, hslot, hlen]
    refine (h.window.append le_rfl [b]).push (by omega) ?_
    rw [List.getElem?_append_right le_rfl, Nat.sub_self, List.getElem?_cons_zero]
  · simp only [CardWrite.writeDesc, hslot, hlen]
    intro p hp hpt
    rw [Function.update_of_ne (slotOf_ne (by omega) (by omega)).symm]
    exact h.free p (by omega) hpt

/-- **A card step keeps the invariant**; elements and descriptors are only added. -/
lemma card (e : CardWrite spec α) :
    ConsumerInv t (e.run s) ∧ s.elements <+: (e.run s).elements ∧
      s.written.length ≤ (e.run s).written.length := by
  have hsame : ConsumerInv t s ∧ s.elements <+: s.elements ∧ s.written.length ≤ s.written.length :=
    ⟨h, List.prefix_refl _, le_rfl⟩
  have hlen : ∀ b : β, s.written.length ≤ (s.written ++ [b]).length := fun b => by
    rw [List.length_append]
    omega
  cases e with
  | access ok => exact ⟨{ h with }, List.prefix_refl _, le_rfl⟩
  | start e =>
    simp only [CardWrite.run]
    split
    · rename_i hcond
      rw [Bool.and_eq_true, Option.isNone_iff_eq_none] at hcond
      refine ⟨h.write hcond.1 e.first ?_, List.prefix_append _ _, hlen _⟩
      have hstream := h.stream
      rw [hcond.2, Option.toList_none, List.append_nil] at hstream
      rw [descriptorsOf_append, ← hstream, descriptorsOf_singleton, List.append_assoc]
      rfl
    · exact hsame
  | second =>
    simp only [CardWrite.run]
    split
    · rename_i b hpending
      split
      · rename_i hroom
        refine ⟨h.write hroom b ?_, List.prefix_refl _, hlen b⟩
        have hstream := h.stream
        rw [hpending] at hstream
        rw [Option.toList_none, List.append_nil]
        exact hstream
      · exact hsame
    · exact hsame

/-! ## The driver's steps -/

lemma read_written (i : UInt32) (hi : t + i.toNat < s.written.length) :
    s.written[t + i.toNat]? = some (s.read i) := by
  rw [ConsumerState.read, h.tail, RingPtr.wrappingAdd_ofPos, RingPtr.slot_ofPos]
  exact h.window _ (Nat.le_add_right _ _) hi

lemma read_free (i : UInt32) (hi : s.written.length ≤ t + i.toNat)
    (hN : i.toNat < spec.elementNum) : s.read i = FromRingBytes.zeroed α := by
  rw [ConsumerState.read, h.tail, RingPtr.wrappingAdd_ofPos, RingPtr.slot_ofPos]
  exact h.free _ hi (by omega)

/-- A descriptor is taken: its slot is zero again. -/
lemma zeroAndAdvance (hlt : t < s.written.length) : ConsumerInv (t + 1) s.zeroAndAdvance := by
  obtain ⟨pub, hpub, htail, hbound⟩ := h.published
  have hslot : s.ring.cachedTail.slot = slotOf spec.elementNum t := by
    rw [h.tail, RingPtr.slot_ofPos]
  refine { tail := ?_, head := h.head, published := ⟨pub, by omega, htail, hbound⟩, le := hlt,
           stream := h.stream, window := ?_, free := ?_ }
  · rw [ConsumerState.zeroAndAdvance, h.tail, RingPtr.wrappingAdd_ofPos]
    rfl
  · intro p hp hlt
    simp only [ConsumerState.zeroAndAdvance, hslot] at hlt ⊢
    rw [Function.update_of_ne (slotOf_ne (by omega) (by omega)).symm]
    exact h.window p (by omega) hlt
  · intro p hp hpt
    simp only [ConsumerState.zeroAndAdvance, hslot] at hp ⊢
    rcases Nat.lt_or_ge p (t + spec.elementNum) with hlt | hge
    · rw [Function.update_of_ne (slotOf_ne (by omega) (by omega)).symm]
      exact h.free p hp hlt
    · obtain rfl : p = t + spec.elementNum := by omega
      rw [show slotOf spec.elementNum (t + spec.elementNum) = slotOf spec.elementNum t from
        slotOf_eq_iff.mpr (Nat.add_mod_right _ _), Function.update_self]

lemma writeTail : ConsumerInv t s.writeTail.2 := by
  obtain ⟨pub, hpub, htail, hbound⟩ := h.published
  rw [ConsumerState.writeTail]
  split
  · exact { h with
      published := ⟨t, le_rfl, by dsimp only; rw [h.tail], by dsimp only; omega⟩ }
  · exact h

/-- The descriptors of an element that the card has started, as far as they are written. -/
lemma written_element {taken : List (CardElement spec α)}
    {e : CardElement spec α} (hpre : taken ++ [e] <+: s.elements) {i : ℕ}
    (hi : (descriptorsOf taken).length + i < s.written.length) (hie : i < e.bytes.length) :
    s.written[(descriptorsOf taken).length + i]? = e.bytes[i]? := by
  obtain ⟨rest, hrest⟩ := hpre
  have hstream := h.stream
  rw [← hrest, descriptorsOf_append, descriptorsOf_append, descriptorsOf_singleton] at hstream
  calc s.written[(descriptorsOf taken).length + i]?
      = (s.written ++ s.pending.toList)[(descriptorsOf taken).length + i]? :=
        (List.getElem?_append_left hi).symm
    _ = e.bytes[i]? := by
        rw [hstream, List.append_assoc, List.getElem?_append_right (Nat.le_add_right _ _),
          Nat.add_sub_cancel_left, List.getElem?_append_left hie]

end ConsumerInv

/-! ## Safety of `try_pop` -/

/-- The driver has popped the elements `taken` and is between two calls. -/
def Taken (taken : List (CardElement spec α)) (s : ConsumerState spec α) : Prop :=
  taken <+: s.elements ∧ ConsumerInv (descriptorsOf taken).length s

/-- The next element is `e`; `n` of its descriptors are there, and `i` of them taken. -/
def Taking (taken : List (CardElement spec α)) (e : CardElement spec α) (n i : ℕ)
    (s : ConsumerState spec α) : Prop :=
  taken ++ [e] <+: s.elements ∧ ConsumerInv ((descriptorsOf taken).length + i) s ∧
    (descriptorsOf taken).length + n ≤ s.written.length

/-- What the card may do in one step. -/
abbrev cardWrites : ConsumerState spec α → ConsumerState spec α → Prop := Session.Rely CardWrite.run

lemma stable_taken (taken : List (CardElement spec α)) : Prog.Stable cardWrites (Taken taken) := by
  rintro s _ ⟨e, rfl⟩ ⟨hpre, h⟩
  obtain ⟨h', hel, -⟩ := h.card e
  exact ⟨hpre.trans hel, h'⟩

lemma stable_taking (taken : List (CardElement spec α)) (e : CardElement spec α) (n i : ℕ) :
    Prog.Stable cardWrites (Taking taken e n i) := by
  rintro s _ ⟨c, rfl⟩ ⟨hpre, h, hn⟩
  obtain ⟨h', hel, hlen⟩ := h.card c
  exact ⟨hpre.trans hel, h', hn.trans hlen⟩

/-- The elements `taken` are still the first ones of the card. -/
def Started (taken : List (CardElement spec α)) (s : ConsumerState spec α) : Prop :=
  taken <+: s.elements

variable {taken : List (CardElement spec α)}

lemma Taking.started {e : CardElement spec α} {n i : ℕ}
    {s : ConsumerState spec α} (h : Taking taken e n i s) : Started taken s :=
  (List.prefix_append taken [e]).trans h.1

namespace ConsumerRing

variable {taken : List (CardElement spec α)} {e : CardElement spec α} {s : ConsumerState spec α}

/-- What is at the tail: the first descriptor of the next element, or nothing. -/
lemma read_first (hs : Taken taken s) :
    (∃ e, Taking taken e 1 0 s ∧ s.read 0 = e.first) ∨ s.read 0 = FromRingBytes.zeroed α := by
  obtain ⟨⟨rest, hrest⟩, h⟩ := hs
  have hle := h.le
  have hstream := congrArg List.length h.stream
  rw [← hrest, descriptorsOf_append, List.length_append, List.length_append] at hstream
  rcases Nat.lt_or_ge (descriptorsOf taken).length s.written.length with hlt | hge
  · left
    cases rest with
    | nil =>
      rw [show descriptorsOf ([] : List (CardElement spec α)) = [] from rfl, List.length_nil]
        at hstream
      omega
    | cons e rest =>
      have hpre : taken ++ [e] <+: s.elements := ⟨rest, by rw [← hrest]; simp⟩
      have hfirst := h.written_element hpre (i := 0) hlt (Nat.zero_lt_succ _)
      have hread := h.read_written 0 hlt
      rw [show (0 : UInt32).toNat = 0 from rfl, hfirst] at hread
      exact ⟨e, ⟨hpre, h, hlt⟩, (Option.some_inj.mp hread).symm⟩
  · exact Or.inr (h.read_free 0 hge spec.elementNum_pos)

/-- What is after the first descriptor of a two-descriptor element. -/
lemma read_second {b : β} (hb : e.second = some b) (hs : Taking taken e 1 0 s) :
    (Taking taken e e.bytes.length 0 s ∧ s.read 1 = b) ∨ s.read 1 = FromRingBytes.zeroed α := by
  obtain ⟨hpre, h, hn⟩ := hs
  have hbytes : e.bytes = [e.first, b] := by rw [CardElement.bytes, hb]; rfl
  have hfits : 2 ≤ spec.elementNum := by
    have := e.fits
    rw [hb] at this
    exact this
  rcases Nat.lt_or_ge ((descriptorsOf taken).length + 1) s.written.length with hlt | hge
  · left
    have hsecond := h.written_element hpre hlt (by rw [hbytes]; exact Nat.lt_succ_self 1)
    have hread := h.read_written 1 hlt
    rw [hbytes] at hsecond
    rw [show (1 : UInt32).toNat = 1 from rfl, Nat.add_zero, hsecond] at hread
    refine ⟨⟨hpre, h, ?_⟩, (Option.some_inj.mp hread).symm⟩
    rw [hbytes]
    exact hlt
  · exact Or.inr (h.read_free 1 hge hfits)

/-- The next descriptor of a complete element is at the tail. -/
lemma read_next {i : ℕ} (hi : i < e.bytes.length) (hs : Taking taken e e.bytes.length i s) :
    e.bytes[i]? = some (s.read 0) := by
  obtain ⟨hpre, h, hn⟩ := hs
  have hread := h.read_written 0 (show _ + 0 < _ by omega)
  rwa [show (0 : UInt32).toNat = 0 from rfl, Nat.add_zero,
    h.written_element hpre (by omega) hi] at hread

lemma taking_advance {i : ℕ} (hi : i < e.bytes.length) (hs : Taking taken e e.bytes.length i s) :
    Taking taken e e.bytes.length (i + 1) s.zeroAndAdvance := by
  obtain ⟨hpre, h, hn⟩ := hs
  exact ⟨hpre, h.zeroAndAdvance (by omega), hn⟩

/-- One descriptor of a complete element is taken. -/
lemma readAndAdvance_safe {i : ℕ} (hi : i < e.bytes.length)
    (hs : Taking taken e e.bytes.length i s) :
    (readAndAdvance : ConsumerM spec α β).Safe cardWrites (Started taken)
      (fun b s => e.bytes[i]? = some b ∧ Taking taken e e.bytes.length (i + 1) s) s := by
  refine Prog.Safe.act _ (stable_taking taken e _ i) (fun _ h => h.started) ?_ hs
  intro s hs
  have hb := read_next hi hs
  refine Prog.Safe.act _ (stable_taking taken e _ i) (fun _ h => h.started) ?_ hs
  exact fun s hs => ⟨hb, taking_advance hi hs⟩

/-- The call popped `e`, and returned it unless the CSR access failed. -/
def Popped (taken : List (CardElement spec α)) (r : PopReturn α)
    (s : ConsumerState spec α) : Prop :=
  (r = .ok none ∧ Taken taken s) ∨
  ∃ e, (r = .ok (some e.value) ∨ r = .err .failed) ∧ Taken (taken ++ [e]) s

lemma finish_safe (hs : Taking taken e e.bytes.length e.bytes.length s) :
    (finish e.bytes : ConsumerM spec α (PopReturn α)).Safe cardWrites (Started taken)
      (Popped taken) s := by
  refine Prog.Safe.act _ (stable_taking taken e _ _) (fun _ h => h.started) ?_ hs
  rintro s ⟨hpre, h, hn⟩
  have htaken : Taken (taken ++ [e]) s.writeTail.2 := by
    refine ⟨?_, ?_⟩
    · rw [ConsumerState.writeTail]
      split <;> exact hpre
    · rw [descriptorsOf_append, descriptorsOf_singleton, List.length_append]
      exact h.writeTail
  have hvalue : FromRingBytes.fromBytes e.bytes = .ok (some e.value) := e.fromBytes_eq
  by_cases hok : s.csr.ok = true
  · simp only [ConsumerState.writeTail, if_pos hok] at htaken ⊢
    simp only [Prog.bind, hvalue]
    exact Or.inr ⟨e, Or.inl rfl, htaken⟩
  · simp only [ConsumerState.writeTail, if_neg hok] at htaken ⊢
    exact Or.inr ⟨e, Or.inr rfl, htaken⟩

/-- **A call pops the next element or finds none**, and panics in no case. -/
lemma tryPop_safe (hs : Taken taken s) :
    (tryPop : ConsumerM spec α (PopReturn α)).Safe cardWrites (Started taken) (Popped taken) s := by
  refine Prog.Safe.act _ (stable_taken taken) (fun _ h => h.1) ?_ hs
  intro s hs
  simp only [Prog.bind, id_eq]
  rcases read_first hs with ⟨e, hfirst, hread⟩ | hzero
  · simp only [hread, e.first_valid, e.first_hasNext, if_true]
    cases hsecond : e.second with
    | none =>
      have hbytes : e.bytes = [e.first] := by rw [CardElement.bytes, hsecond]; rfl
      have hlen : e.bytes.length = 1 := by rw [hbytes]; rfl
      rw [if_neg (by simp)]
      rw [← hlen] at hfirst
      refine Prog.Safe.bind ?_ (readAndAdvance_safe (by omega) hfirst)
      rintro a s ⟨ha, htaking⟩
      rw [hbytes, List.getElem?_cons_zero, Option.some_inj] at ha
      rw [← ha, ← hbytes]
      exact finish_safe (by rw [hlen] at htaking ⊢; exact htaking)
    | some b =>
      have hbytes : e.bytes = [e.first, b] := by rw [CardElement.bytes, hsecond]; rfl
      have hlen : e.bytes.length = 2 := by rw [hbytes]; rfl
      rw [if_pos (by simp)]
      refine Prog.Safe.act _ (stable_taking taken e 1 0) (fun _ h => h.started) ?_ hfirst
      intro s hs
      simp only [Prog.bind, id_eq]
      rcases read_second hsecond hs with ⟨hall, hread⟩ | hzero
      · simp only [hread, e.second_valid b hsecond, if_true]
        refine Prog.Safe.bind ?_ (readAndAdvance_safe (by omega) hall)
        rintro a s ⟨ha, htaking⟩
        refine Prog.Safe.bind ?_ (readAndAdvance_safe (by omega) htaking)
        rintro c s ⟨hc, htaking⟩
        rw [hbytes] at ha hc
        obtain rfl : e.first = a := Option.some_inj.mp ha
        obtain rfl : b = c := Option.some_inj.mp hc
        rw [← hbytes]
        exact finish_safe (by rw [hlen] at htaking ⊢; exact htaking)
      · -- the second descriptor is not there yet: nothing is taken
        simp only [hzero, FromRingBytes.zeroed_invalid, Bool.false_eq_true, if_false]
        exact Or.inl ⟨rfl, hs.started, hs.2.1⟩
  · simp only [hzero, FromRingBytes.zeroed_invalid, Bool.false_eq_true, if_false]
    exact Or.inl ⟨rfl, hs⟩

lemma finish_exec (s : ConsumerState spec α) :
    ((finish e.bytes : ConsumerM spec α (PopReturn α)).exec s).1 =
      if s.csr.ok then .ok (some e.value) else .err .failed := by
  have hvalue : FromRingBytes.fromBytes e.bytes = .ok (some e.value) := e.fromBytes_eq
  rw [finish, Prog.exec_bind]
  simp only [Prog.atomic, Prog.exec, ConsumerState.writeTail]
  by_cases hok : s.csr.ok = true
  · simp only [if_pos hok, hvalue, Prog.exec]
  · simp only [if_neg hok, Prog.exec]

/-- **A complete element is popped** by a call that runs undisturbed. -/
lemma tryPop_exec (hs : Taking taken e e.bytes.length 0 s) :
    ((tryPop : ConsumerM spec α (PopReturn α)).exec s).1 =
      if s.csr.ok then .ok (some e.value) else .err .failed := by
  have hpos : 0 < e.bytes.length := Nat.zero_lt_succ _
  have hfirst : s.read 0 = e.first := (Option.some_inj.mp (read_next hpos hs)).symm
  have hadvance := taking_advance hpos hs
  have hexec : ∀ s : ConsumerState spec α,
      (readAndAdvance : ConsumerM spec α β).exec s = (s.read 0, s.zeroAndAdvance) := fun _ => rfl
  rw [tryPop, Prog.exec_bind]
  simp only [Prog.get, Prog.exec, id_eq, hfirst, e.first_valid, e.first_hasNext, if_true]
  cases hsecond : e.second with
  | none =>
    have hbytes : e.bytes = [e.first] := by rw [CardElement.bytes, hsecond]; rfl
    rw [if_neg (by simp), Prog.exec_bind, hexec, hfirst, ← hbytes]
    exact finish_exec s.zeroAndAdvance
  | some b =>
    have hbytes : e.bytes = [e.first, b] := by rw [CardElement.bytes, hsecond]; rfl
    have hone : 1 < e.bytes.length := by rw [hbytes]; exact Nat.lt_succ_self 1
    have hnext : s.zeroAndAdvance.read 0 = b := by
      have hread := read_next hone hadvance
      rw [hbytes] at hread
      exact (Option.some_inj.mp hread).symm
    have hpeek : s.read 1 = b := by
      obtain ⟨hpre, h, hn⟩ := hs
      have hread := h.read_written 1 (show _ + 1 < _ by omega)
      rw [show (1 : UInt32).toNat = 1 from rfl, Nat.add_zero,
        h.written_element hpre (by omega) hone, hbytes] at hread
      exact (Option.some_inj.mp hread).symm
    rw [if_pos (by simp), Prog.exec_bind]
    simp only [Prog.exec, id_eq, hpeek, e.second_valid b hsecond, if_true]
    rw [Prog.exec_bind, Prog.exec_bind, hexec, hexec, hfirst, hnext, ← hbytes]
    exact finish_exec s.zeroAndAdvance.zeroAndAdvance

end ConsumerRing

/-! ## Runs -/

/-- What a call that popped an element did with it: returned it, or lost it to a failed CSR
write. -/
def PopReturn.outcome : PopReturn α → Option (Option α)
  | .ok (some v) => some (some v)
  | .err _ => some none
  | .ok none => none
  | .panic _ => none

lemma PopReturn.outcome_eq_none {r : PopReturn α} (h : r.outcome = some none) :
    ∃ x, r = .err x := by
  rcases r with (_ | v) | x | p
  · cases h
  · cases h
  · exact ⟨x, rfl⟩
  · cases h

/-- The outcomes of the calls that popped an element. -/
def popsOf (done : List (Unit × PopReturn α)) : List (Option α) := done.filterMap (·.2.outcome)

/-- The elements that the calls returned. -/
def returnedBy (done : List (Unit × PopReturn α)) : List α := (popsOf done).reduceOption

/-- The element was returned, or the CSR access failed. -/
def Delivered (o : Option α) (e : CardElement spec α) : Prop := o = some e.value ∨ o = none

/-- The calls popped the elements `taken`, and none of them panicked. -/
def PopAccounts (done : List (Unit × PopReturn α)) (taken : List (CardElement spec α)) : Prop :=
  List.Forall₂ Delivered (popsOf done) taken ∧ ∀ d ∈ done, ∀ p, d.2 ≠ .panic p

lemma PopAccounts.snoc {done : List (Unit × PopReturn α)} (h : PopAccounts done taken)
    {r : PopReturn α} {s : ConsumerState spec α} (hr : ConsumerRing.Popped taken r s) :
    ∃ taken', Taken taken' s ∧ PopAccounts (done ++ [((), r)]) taken' := by
  have hpanic : (∀ p, r ≠ .panic p) → ∀ d ∈ done ++ [((), r)], ∀ p, d.2 ≠ .panic p := by
    intro hr d hd
    rcases List.mem_append.mp hd with hd | hd
    · exact h.2 d hd
    · rwa [List.mem_singleton.mp hd]
  rcases hr with ⟨rfl, hs⟩ | ⟨e, hr, hs⟩
  · refine ⟨taken, hs, ?_, hpanic nofun⟩
    rw [popsOf, List.filterMap_append]
    exact (List.append_nil (popsOf done)).symm ▸ h.1
  · refine ⟨taken ++ [e], hs, ?_, hpanic ?_⟩
    · rw [popsOf, List.filterMap_append]
      refine List.rel_append h.1 ?_
      rcases hr with rfl | rfl
      · exact .cons (Or.inl rfl) .nil
      · exact .cons (Or.inr rfl) .nil
    · rcases hr with rfl | rfl <;> exact nofun

/-- Between two calls of a run. -/
def PopIdle (done : List (Unit × PopReturn α)) (s : ConsumerState spec α) : Prop :=
  ∃ taken, Taken taken s ∧ PopAccounts done taken

/-- At any time of a run. -/
def PopInv (done : List (Unit × PopReturn α)) (s : ConsumerState spec α) : Prop :=
  ∃ taken, Started taken s ∧ PopAccounts done taken

lemma run_popped (acts : List (SessionAction Unit (CardWrite spec α))) :
    Session.Sound CardWrite.run PopIdle PopInv (ConsumerSession.run acts) := by
  refine Session.run_sound ?_ ?_ ?_ acts
  · rintro done s s' hrely ⟨taken, hs, hacc⟩
    exact ⟨taken, stable_taken taken s s' hrely hs, hacc⟩
  · rintro ⟨⟩ done s ⟨taken, hs, hacc⟩
    exact (ConsumerRing.tryPop_safe hs).mono (fun _ h => ⟨taken, h, hacc⟩)
      (fun _ _ h => hacc.snoc h)
  · exact ⟨[], ⟨List.nil_prefix, .new⟩, .nil, nofun⟩

/-- If no CSR access failed, the elements that were popped were returned. -/
lemma returned_eq {outcomes : List (Option α)} (h : List.Forall₂ Delivered outcomes taken)
    (hok : none ∉ outcomes) : outcomes.reduceOption = taken.map CardElement.value := by
  induction h with
  | nil => rfl
  | cons hd _ ih =>
    rw [List.mem_cons, not_or] at hok
    rcases hd with rfl | rfl
    · rw [List.reduceOption_cons_of_some, ih hok.2, List.map_cons]
    · exact absurd rfl hok.1

/-- **The driver gets what the card wrote.**  Take any interleaving of `try_pop` calls with writes
of the card.  No call panics; the calls that popped something popped the first elements that the
card started, in order and once each, and returned them as they were written unless the CSR access
failed.  Between calls, the tail is behind exactly the descriptors of these elements, and if all
descriptors of the next one are written, a call returns it. -/
theorem tryPop_delivers (acts : List (SessionAction Unit (CardWrite spec α))) :
    let s := ConsumerSession.run acts
    (∀ d ∈ s.done, ∀ p, d.2 ≠ .panic p) ∧
    ∃ taken, taken <+: s.shared.elements ∧
      List.Forall₂ Delivered (popsOf s.done) taken ∧
      ((∀ d ∈ s.done, ∀ x, d.2 ≠ .err x) → returnedBy s.done = taken.map CardElement.value) ∧
      (s.running = none →
        s.shared.ring.cachedTail = .ofPos spec (descriptorsOf taken).length ∧
        ∀ e, taken ++ [e] <+: s.shared.elements →
          (descriptorsOf (taken ++ [e])).length ≤ s.shared.written.length →
          (ConsumerRing.tryPop.exec s.shared).1 =
            if s.shared.csr.ok then .ok (some e.value) else .err .failed) := by
  intro s
  have hsound := run_popped acts
  have hreturned : ∀ taken :
    List (CardElement spec α), List.Forall₂ Delivered (popsOf s.done) taken →
      (∀ d ∈ s.done, ∀ x, d.2 ≠ .err x) → returnedBy s.done = taken.map CardElement.value := by
    intro taken hacc hok
    refine returned_eq hacc (fun hnone => ?_)
    obtain ⟨d, hd, hout⟩ := List.mem_filterMap.mp hnone
    obtain ⟨x, hx⟩ := PopReturn.outcome_eq_none hout
    exact hok d hd x hx
  rcases hrun : s.running with _ | r
  · obtain ⟨taken, ⟨hpre, h⟩, hacc, hpanic⟩ := Session.idle_of_sound hsound hrun
    refine ⟨hpanic, taken, hpre, hacc, hreturned taken hacc, fun _ => ⟨h.tail, ?_⟩⟩
    intro e he hlen
    rw [descriptorsOf_append, descriptorsOf_singleton, List.length_append] at hlen
    exact ConsumerRing.tryPop_exec ⟨he, h, hlen⟩
  · obtain ⟨taken, hpre, hacc, hpanic⟩ := Session.inv_of_sound hsound
      (fun _ _ ⟨taken, h, hacc⟩ => ⟨taken, h.1, hacc⟩)
    exact ⟨hpanic, taken, hpre, hacc, hreturned taken hacc, nofun⟩

/-- A read request, in two descriptors. -/
def readReport : CardElement pairSpec MetaReportQueueDesc where
  first := ⟨0, 0, 0, 0xc00c000000000000⟩
  second := some ⟨0, 0, 1, 0x800c000000000000⟩
  value := .readPacketInfo ⟨0, 0, 0, 0xc00c000000000000⟩ ⟨0, 0, 1, 0x800c000000000000⟩
  first_valid := by decide
  first_hasNext := by decide
  second_valid := by decide
  fromBytes_eq := rfl
  fits := by decide

/-- An acknowledgement, in one. -/
def ackReport : CardElement pairSpec MetaReportQueueDesc where
  first := ⟨0, 0, 0, 0x8011000000000000⟩
  second := none
  value := .ack ⟨0, 0, 0, 0x8011000000000000⟩
  first_valid := by decide
  first_hasNext := by decide
  second_valid := by decide
  fromBytes_eq := rfl
  fits := by decide

/-- An acknowledgement, then a read request whose first half is polled before the second is written,
in a ring of two. -/
def splitReports : List (SessionAction Unit (CardWrite pairSpec MetaReportQueueDesc)) :=
  [.env (.start ackReport), .call (), .step, .step, .step, .step,
   .env (.start readReport), .call (), .step, .step,
   .env .second, .call (), .step, .step, .step, .step, .step, .step, .step]

theorem tryPop_delivers_split :
    let s := ConsumerSession.run splitReports
    returnedBy s.done = [ackReport.value, readReport.value] ∧ s.done.length = 3 ∧
    ∀ d ∈ s.done, ∀ p, d.2 ≠ .panic p := by
  refine ⟨by decide +kernel, by decide +kernel, ?_⟩
  have h := tryPop_delivers splitReports
  exact h.1

end OpenRdma
