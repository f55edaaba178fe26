import OpenRdma.Ring.ProducerRuns

/-!
# When a push finds room

`tryPushAtomic` refuses a push by the tail that it knows.  `RoomFor` says what the card's own
pointers leave, and the lemmas relate the two under interference.
-/

namespace OpenRdma

variable {spec : RingSpec} {α β : Type}

/-- By the card's own tail, `len` more descriptors fit. -/
def ProducerState.RoomFor (len : ℕ) (s : ProducerState spec β) : Prop :=
  ((RingPtr.new s.csr.head : RingPtr spec).wrappingSub (.new s.csr.tail)).toNat + len ≤
    spec.elementNum

instance (len : ℕ) (s : ProducerState spec β) : Decidable (s.RoomFor len) :=
  inferInstanceAs (Decidable (_ ≤ _))

namespace ProducerInv

variable {pushed : List β} {cached len : ℕ} {s : ProducerState spec β}

lemma roomFor_iff (h : ProducerInv pushed cached s) :
    s.RoomFor len ↔ pushed.length + len ≤ s.consumed.length + spec.elementNum := by
  have hle := h.read.length_le
  have hbound := h.bounded
  have hstale := h.stale
  have hpos := spec.elementNum_pos
  rw [ProducerState.RoomFor, h.csrHead, h.csrTail, RingPtr.new_raw, RingPtr.new_raw,
    RingPtr.wrappingSub_ofPos hle (by omega)]
  omega

/-- What the driver knows is at most what there is. -/
lemma roomFor_of_available (h : ProducerInv pushed cached s) (hlen : len ≤ s.available.toNat) :
    s.RoomFor len := by
  have havai := h.available
  have hstale := h.stale
  have hle := h.read.length_le
  rw [h.roomFor_iff]
  omega

/-- With the tail just read it is all of it. -/
lemma available_of_roomFor (h : ProducerInv pushed cached s) (hread : cached = s.consumed.length)
    (hroom : s.RoomFor len) : len ≤ s.available.toNat := by
  have havai := h.available
  have hle := h.read.length_le
  rw [h.roomFor_iff] at hroom
  omega

end ProducerInv

namespace ProducerRing

variable {pushed : List β} {len : ℕ} {s : ProducerState spec β}

/-- Reading the tail does not change what the card has. -/
lemma roomFor_readTail : s.readTail.2.RoomFor len ↔ s.RoomFor len := by
  rw [ProducerState.readTail]
  split <;> rfl

/-- The driver's own view of the ring does not change while the card acts. -/
lemma stable_available (P : UInt32 → Prop) :
    Prog.Stable cardRely fun s : ProducerState spec β => P s.available := by
  rintro s _ ⟨e, rfl⟩ h
  rwa [ProducerState.available, (e.run_ring s).1]

lemma stable_roomFor (pushed : List β) (len : ℕ) :
    Prog.Stable cardRely fun s : ProducerState spec β => Published pushed s ∧ s.RoomFor len := by
  rintro s _ ⟨e, rfl⟩ ⟨⟨c, hc⟩, hroom⟩
  refine ⟨⟨c, hc.card e⟩, ?_⟩
  have hmono := (e.run_ring s).2
  rw [hc.roomFor_iff] at hroom
  rw [(hc.card e).roomFor_iff]
  omega

lemma reserve_room (hs : Published pushed s) (hroom : s.RoomFor len) :
    (reserve len).Safe cardRely (fun _ => True) (fun r _ => r ≠ .ok false) s := by
  refine Prog.Safe.act _ (stable_roomFor pushed len) (fun _ _ => trivial) ?_ ⟨hs, hroom⟩
  rintro s hs
  simp only [Prog.bind, id_eq]
  split
  · refine Prog.Safe.act _ (stable_roomFor pushed len) (fun _ _ => trivial) ?_ hs
    rintro s ⟨⟨c, hc⟩, hroom⟩
    simp only [Prog.bind]
    by_cases hok : s.csr.ok = true
    · have hread := hc.readTail hok
      have hroom := roomFor_readTail.mpr hroom
      simp only [ProducerState.readTail, if_pos hok] at hread hroom ⊢
      refine Prog.Safe.act _ (stable_available (len ≤ ·.toNat)) (fun _ _ => trivial) ?_
        (hread.available_of_roomFor rfl hroom)
      intro s hs
      simpa [Prog.Safe, Prog.bind] using hs
    · simp only [ProducerState.readTail, if_neg hok]
      rintro ⟨⟩
  · rintro ⟨⟩

/-- The card's steps that free no room for `len` descriptors. -/
def fullRely (len : ℕ) (s s' : ProducerState spec β) : Prop := cardRely s s' ∧ ¬ s'.RoomFor len

lemma stable_full (pushed : List β) (len : ℕ) :
    Prog.Stable (fullRely len) fun s : ProducerState spec β => Published pushed s ∧
    ¬ s.RoomFor len :=
  fun s s' h hs => ⟨stable_published pushed s s' h.1 hs.1, h.2⟩

lemma reserve_full (hs : Published pushed s) (hroom : ¬ s.RoomFor len) :
    (reserve len).Safe (fullRely len) (fun _ => True) (fun r _ => r ≠ .ok true) s := by
  refine Prog.Safe.act _ (stable_full pushed len) (fun _ _ => trivial) ?_ ⟨hs, hroom⟩
  rintro s ⟨⟨c, hc⟩, hroom⟩
  simp only [Prog.bind, id_eq]
  rw [if_pos (not_le.mp fun hle => hroom (hc.roomFor_of_available hle))]
  refine Prog.Safe.act _ (stable_full pushed len) (fun _ _ => trivial) ?_ ⟨⟨c, hc⟩, hroom⟩
  rintro s ⟨⟨c, hc⟩, hroom⟩
  simp only [Prog.bind]
  by_cases hok : s.csr.ok = true
  · have hread := hc.readTail hok
    have hfull : ¬ s.readTail.2.RoomFor len := fun h => hroom (roomFor_readTail.mp h)
    simp only [ProducerState.readTail, if_pos hok] at hread hfull ⊢
    refine Prog.Safe.act _ (stable_full pushed len) (fun _ _ => trivial) ?_ ⟨⟨_, hread⟩, hfull⟩
    rintro s ⟨⟨c, hc⟩, hroom⟩
    simpa [Prog.Safe, Prog.bind] using fun hle => hroom (hc.roomFor_of_available hle)
  · simp only [ProducerState.readTail, if_neg hok]
    rintro ⟨⟩

/-- The card's steps after which CSR accesses succeed. -/
def okRely (s s' : ProducerState spec β) : Prop := cardRely s s' ∧ s'.csr.ok = true

lemma stable_ok : Prog.Stable okRely fun s : ProducerState spec β => s.csr.ok = true :=
  fun _ _ h _ => h.2

/-- The call returned normally, and accesses still succeed. -/
def Normal {γ : Type} (r : Except CsrError γ) (s : ProducerState spec β) : Prop :=
  (∃ a, r = .ok a) ∧ s.csr.ok = true

lemma reserve_normal (hs : s.csr.ok = true) :
    (reserve len).Safe okRely (fun s => s.csr.ok = true) Normal s := by
  refine Prog.Safe.act _ stable_ok (fun _ h => h) ?_ hs
  intro s hs
  simp only [Prog.bind, id_eq]
  split
  · refine Prog.Safe.act _ stable_ok (fun _ h => h) ?_ hs
    intro s hs
    simp only [Prog.bind, ProducerState.readTail, if_pos hs]
    refine Prog.Safe.act _ stable_ok (fun _ h => h) ?_ hs
    exact fun s hs => ⟨⟨_, rfl⟩, hs⟩
  · exact ⟨⟨_, rfl⟩, hs⟩

lemma writeFrom_normal (start : RingPtr spec) (bytes : List β) (i : UInt32) (hs : s.csr.ok = true) :
    (writeFrom start bytes i).Safe okRely (fun s => s.csr.ok = true)
    (fun _ s => s.csr.ok = true) s := by
  induction bytes generalizing i s with
  | nil => exact hs
  | cons b bytes ih =>
    refine Prog.Safe.act _ stable_ok (fun _ h => h) ?_ hs
    exact fun s hs => ih (i + 1) (by exact hs)

lemma commit_normal (bytes : List β) (hs : s.csr.ok = true) :
    (commit bytes).Safe okRely (fun s => s.csr.ok = true) Normal s := by
  refine Prog.Safe.act _ stable_ok (fun _ h => h) (fun s hs => ?_) hs
  simp only [Prog.bind, id_eq]
  refine Prog.Safe.bind (fun _ s hs => ?_) (writeFrom_normal _ bytes 0 hs)
  refine Prog.Safe.act _ stable_ok (fun _ h => h) (fun s hs => ?_) hs
  simp only [ProducerState.writeHead, if_pos hs]
  exact ⟨⟨_, rfl⟩, hs⟩

/-! ## What the driver leaves alone -/

lemma readTail_consumed (s : ProducerState spec β) : s.readTail.2.consumed = s.consumed := by
  rw [ProducerState.readTail]
  split <;> rfl

lemma writeHead_consumed (p : RingPtr spec) (s : ProducerState spec β) :
    (s.writeHead p).2.consumed = s.consumed := by
  rw [ProducerState.writeHead]
  split <;> rfl

lemma reserve_keeps : (reserve len : ProducerM spec β _).Keeps ProducerState.consumed := by
  refine (Prog.Keeps.get _).bind fun avai => ?_
  split
  · exact (Prog.Keeps.atomic readTail_consumed).tryBind fun _ =>
      (Prog.Keeps.get _).bind fun _ => trivial
  · trivial

lemma writeFrom_keeps (start : RingPtr spec) (bytes : List β) (i : UInt32) :
    (writeFrom start bytes i).Keeps ProducerState.consumed := by
  induction bytes generalizing i with
  | nil => trivial
  | cons b bytes ih => exact ⟨fun _ => rfl, fun _ => ih (i + 1)⟩

lemma commit_keeps (bytes : List β) :
    (commit bytes : ProducerM spec β _).Keeps ProducerState.consumed :=
  (Prog.Keeps.get _).bind fun start =>
    (writeFrom_keeps start bytes 0).bind fun _ => .atomic (writeHead_consumed _)

variable (toBytes : α → β)

lemma tryPushAtomic_room (elements : List α) (hs : Published pushed s)
    (hroom : s.RoomFor elements.length) : (tryPushAtomic toBytes elements).Safe cardRely
      (fun _ => True) (fun r _ => r ≠ .ok false) s := by
  refine (reserve_room hs hroom).tryBind (fun _ _ _ => nofun) (fun room s h => ?_)
  cases room with
  | false => exact absurd rfl h
  | true =>
    exact (Prog.Safe.trivial _ s).tryBind (fun _ _ _ => nofun) (fun _ _ _ => nofun)

lemma tryPushAtomic_full (elements : List α) (hs : Published pushed s)
    (hroom : ¬ s.RoomFor elements.length) : (tryPushAtomic toBytes elements).Safe
      (fullRely elements.length) (fun _ => True) (fun r _ => r ≠ .ok true) s := by
  refine (reserve_full hs hroom).tryBind (fun _ _ _ => nofun) (fun room s h => ?_)
  cases room with
  | false => rintro ⟨⟩
  | true => exact absurd rfl h

lemma tryPushAtomic_normal (elements : List α) (hs : s.csr.ok = true) :
    (tryPushAtomic toBytes elements).Safe okRely (fun s => s.csr.ok = true) Normal s := by
  refine (reserve_normal hs).tryBind (fun e s h => ?_) (fun room s h => ?_)
  · obtain ⟨⟨_, h⟩, -⟩ := h
    cases h
  cases room with
  | false => exact ⟨⟨_, rfl⟩, h.2⟩
  | true =>
    refine (commit_normal _ h.2).tryBind (fun e s h => ?_) (fun _ s h => ⟨⟨_, rfl⟩, h.2⟩)
    obtain ⟨⟨_, h⟩, -⟩ := h
    cases h

/-- The driver reads nothing in the card's place. -/
lemma tryPushAtomic_keeps (elements : List α) :
    (tryPushAtomic toBytes elements : ProducerM spec β _).Keeps ProducerState.consumed := by
  refine reserve_keeps.tryBind fun room => ?_
  cases room with
  | false => trivial
  | true => exact (commit_keeps _).tryBind fun _ => trivial

end ProducerRing

end OpenRdma
