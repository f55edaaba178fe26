import OpenRdma.Net.FrameTx
import OpenRdma.Ring.ProducerRoom

/-!
# Frames stay intact for one round of the buffer

The frame of position `k` is in slot `k` modulo the number of slots, and only the last round of
frames is sure to be in its slot: `TxInv` says so, and every step keeps it.  The ring of descriptors
is four times as long, so the card may be further behind than that.

* **`frames_intact`** — if the card is never a full round of slots behind when a call begins, all
  unread frames are intact.
-/

namespace OpenRdma

open Function (update update_self update_of_ne)

variable {spec : RingSpec}

/-! ## Slots -/

def frameSlots : ℕ := frameBufLen / frameSlotSize

lemma frameSlots_eq : frameSlots = 1024 := rfl

/-- The offset of the slot of a position. -/
def slotOffset (k : ℕ) : ℕ := frameSlotSize * (k % frameSlots)

lemma slotOffset_succ (k : ℕ) :
    (slotOffset k + frameSlotSize) % frameBufLen = slotOffset (k + 1) := by
  have hlen : frameBufLen = 131072 := rfl
  have hsize : frameSlotSize = 128 := rfl
  rw [slotOffset, slotOffset, frameSlots_eq, hlen, hsize]
  omega

lemma slotOffset_add_le (k : ℕ) : slotOffset k + frameSlotSize ≤ frameBufLen := by
  have hlen : frameBufLen = 131072 := rfl
  have hsize : frameSlotSize = 128 := rfl
  rw [slotOffset, frameSlots_eq, hlen, hsize]
  omega

/-- Different positions within one round have slots apart from each other. -/
lemma slotOffset_apart {k m : ℕ} (hkm : k < m) (hmk : m < k + frameSlots) :
    slotOffset k + frameSlotSize ≤ slotOffset m ∨ slotOffset m + frameSlotSize ≤ slotOffset k := by
  have hsize : frameSlotSize = 128 := rfl
  rw [frameSlots_eq] at hmk
  rw [slotOffset, slotOffset, frameSlots_eq, hsize]
  omega

namespace FrameBuf

/-- A byte outside is written. -/
lemma get_update (buf : FrameBuf) {offset len p : ℕ} (hp : p < offset ∨ offset + len ≤ p)
    (b : UInt8) : FrameBuf.get (update buf p b) offset len = buf.get offset len := by
  refine List.map_congr_left fun i hi => ?_
  have hi := List.mem_range.mp hi
  exact update_of_ne (by omega) _ _

/-- The next byte is written. -/
lemma get_succ (buf : FrameBuf) (offset len : ℕ) (b : UInt8) :
    FrameBuf.get (update buf (offset + len) b) offset (len + 1) =
      buf.get offset len ++ [b] := by
  rw [get, List.range_succ, List.map_append, List.map_singleton, update_self, ← get,
    get_update buf (Or.inr le_rfl)]

end FrameBuf

/-! ## Descriptors -/

/-- The descriptor of the frame at position `k`. -/
def frameDesc (base : UInt64) (k : ℕ) (frame : List UInt8) : Desc :=
  simpleNicTxDesc (base + UInt64.ofNat (slotOffset k)) (UInt32.ofNat frame.length)

lemma txLen_desc (addr : UInt64) (len : UInt32) : (simpleNicTxDesc addr len).txLen = len := by
  rw [Desc.txLen, simpleNicTxDesc, UInt64.toUInt32_or, UInt32.toUInt32_toUInt64]
  exact UInt32.or_zero

lemma txAddr_frameDesc {base : UInt64} {k : ℕ} (h : base.toNat + slotOffset k < 2 ^ 64)
    (frame : List UInt8) : (frameDesc base k frame).txAddr.toNat = base.toNat + slotOffset k := by
  have hle := slotOffset_add_le k
  have hlen : frameBufLen = 131072 := rfl
  rw [Desc.txAddr, frameDesc, simpleNicTxDesc, UInt64.toNat_add, UInt64.toNat_ofNat',
    Nat.mod_eq_of_lt (a := slotOffset k) (by omega), Nat.mod_eq_of_lt h]

def frameDescs (base : UInt64) (frames : List (List UInt8)) : List Desc :=
  frames.mapIdx (frameDesc base)

lemma frameDescs_snoc (base : UInt64) (frames : List (List UInt8)) (frame : List UInt8) :
    frameDescs base (frames ++ [frame]) =
      frameDescs base frames ++ [frameDesc base frames.length frame] :=
  List.mapIdx_concat

/-! ## The invariant -/

/-- The push is safe: it adds the descriptor of the frame, or nothing. -/
def TxPush (base : UInt64) (frames : List (List UInt8)) (data : List UInt8)
    (push : Option (ProducerRing.ProducerM spec Desc (Except CsrError Bool)))
    (inner : ProducerState spec Desc) : Prop :=
  match push with
  | none => Published (frameDescs base frames) inner
  | some p => (∀ r, p ≠ .ret r) ∧ p.Keeps ProducerState.consumed ∧
      p.Safe cardRely (Published (frameDescs base frames)) (fun r => Published
        (if r = .ok true then frameDescs base (frames ++ [data]) else frameDescs base frames)) inner

/-- What a call has done so far. -/
def TxPhaseInv (s : FrameTxQueue spec) : Prop :=
  match s.phase with
  | .idle => s.bufHead = slotOffset s.frames.length ∧
      TxPush s.bufBasePhysAddr s.frames [] none s.inner
  | .copying data i => s.bufHead = slotOffset s.frames.length ∧
      s.Accepts data ∧ s.buf.get s.bufHead i = data.take i ∧ i ≤ data.length ∧
      TxPush s.bufBasePhysAddr s.frames data none s.inner
  | .pushing data desc push => s.bufHead = slotOffset (s.frames.length + 1) ∧
      s.bufBasePhysAddr.toNat + slotOffset s.frames.length < 2 ^ 64 ∧
      data.length ≤ frameSlotSize ∧
      s.buf.get (slotOffset s.frames.length) data.length = data ∧
      desc = frameDesc s.bufBasePhysAddr s.frames.length data ∧
      TxPush s.bufBasePhysAddr s.frames data push s.inner

/-- The frames of the last round are in their slots. -/
structure TxInv (s : FrameTxQueue spec) : Prop where
  phase : TxPhaseInv s
  small : ∀ frame ∈ s.frames, frame.length ≤ frameSlotSize
  fits : ∀ k < s.frames.length, s.bufBasePhysAddr.toNat + slotOffset k < 2 ^ 64
  kept : ∀ k frame, s.frames[k]? = some frame → s.started ≤ k + frameSlots →
    s.buf.get (slotOffset k) frame.length = frame

namespace TxPush

variable {base : UInt64} {frames : List (List UInt8)} {data : List UInt8}
  {push : Option (ProducerRing.ProducerM spec Desc (Except CsrError Bool))}
  {inner : ProducerState spec Desc}

lemma published (h : TxPush base frames data push inner) :
    Published (frameDescs base frames) inner := by
  rcases push with _ | p
  · exact h
  · cases p with
    | ret r => exact absurd rfl (h.1 r)
    | act f k => exact (h.2.2 inner .refl).1

lemma card (h : TxPush base frames data push inner) (e : CardStep) :
    TxPush base frames data push (e.run inner) := by
  rcases push with _ | p
  · exact stable_published _ _ _ ⟨e, rfl⟩ h
  · exact ⟨h.1, h.2.1, h.2.2.rely_step (fun _ => stable_published _) ⟨e, rfl⟩⟩

/-- The next action of the push. -/
lemma advance (h : TxPush base frames data push inner) :
    let rest := Prog.advance (ProducerRing.tryPushAtomic id
      [frameDesc base frames.length data]) push inner
    rest.1.Safe cardRely (Published (frameDescs base frames)) (fun r => Published
        (if r = .ok true then frameDescs base (frames ++ [data]) else frameDescs base frames))
          rest.2 ∧
      rest.1.Keeps ProducerState.consumed ∧ rest.2.consumed = inner.consumed := by
  have hrun : ∀ p, push = some p → (∀ r, p ≠ .ret r) ∧ p.Keeps ProducerState.consumed ∧
      p.Safe cardRely (Published (frameDescs base frames)) (fun r => Published
        (if r = .ok true then frameDescs base (frames ++ [data]) else frameDescs base frames))
          inner := by
    rintro p rfl
    exact h
  refine ⟨Prog.Safe.advance (fun p hp => (hrun p hp).2.2) (fun r hr => (hrun _ hr).1 r rfl) ?_,
    Prog.Keeps.advance (ProducerRing.tryPushAtomic_keeps id _) (fun p hp => (hrun p hp).2.1) inner⟩
  rintro rfl
  rw [frameDescs_snoc]
  have hsafe := ProducerRing.tryPushAtomic_safe id h [frameDesc base frames.length data]
  rwa [List.map_id] at hsafe

end TxPush

namespace TxInv

variable {s : FrameTxQueue spec}

lemma new (slots : Fin spec.elementNum → Desc) (buf : FrameBuf) (base : UInt64) :
    TxInv (FrameTxQueue.new slots buf base) where
  phase := ⟨rfl, 0, .new slots⟩
  small := fun _ h => absurd h List.not_mem_nil
  fits := fun k h => absurd h (Nat.not_lt_zero k)
  kept := fun _ _ h => by cases h

variable (h : TxInv s)

include h

lemma published : Published (frameDescs s.bufBasePhysAddr s.frames) s.inner := by
  have hphase := h.phase
  rw [TxPhaseInv] at hphase
  split at hphase
  · exact hphase.2.published
  · exact hphase.2.2.2.2.published
  · exact hphase.2.2.2.2.2.published

lemma card (e : CardStep) : TxInv (s.step (.card e)) := by
  refine { phase := ?_, small := h.small, fits := h.fits, kept := h.kept }
  have hphase := h.phase
  simp only [TxPhaseInv, FrameTxQueue.step] at hphase ⊢
  split at hphase
  · exact ⟨hphase.1, hphase.2.card e⟩
  · obtain ⟨hhead, hacc, hget, hle, hpush⟩ := hphase
    exact ⟨hhead, hacc, hget, hle, hpush.card e⟩
  · obtain ⟨hhead, hfits, hsmall, hget, hdesc, hpush⟩ := hphase
    exact ⟨hhead, hfits, hsmall, hget, hdesc, hpush.card e⟩

/-- A call begins: of the frames in their slots, the oldest is no longer sure to be. -/
lemma send (data : List UInt8) : TxInv (s.send data) := by
  rw [FrameTxQueue.send]
  split
  · rename_i hidle
    have hphase := h.phase
    simp only [TxPhaseInv, hidle] at hphase
    split
    · exact h
    split
    · rename_i hacc
      refine { phase := ⟨hphase.1, hacc, rfl, Nat.zero_le _, hphase.2⟩, small := h.small,
               fits := h.fits, kept := fun k frame hk hround => h.kept k frame hk ?_ }
      simp only [FrameTxQueue.started, hidle] at hround ⊢
      omega
    · exact { h with }
  · exact h

/-- A byte is copied, to a slot that none of the frames of the last round is in. -/
lemma copyByte {data : List UInt8} {i : ℕ} (hcopy : s.phase = .copying data i)
    {b : UInt8} (hb : data[i]? = some b) :
    TxInv { s with
      buf := update s.buf (s.bufHead + i) b, phase := .copying data (i + 1) } := by
  have hphase := h.phase
  simp only [TxPhaseInv, hcopy] at hphase
  obtain ⟨hhead, hacc, hget, -, hpush⟩ := hphase
  obtain ⟨hi, rfl⟩ := List.getElem?_eq_some_iff.mp hb
  have hstarted : s.started = s.frames.length + 1 := by rw [FrameTxQueue.started, hcopy]
  refine { phase := ⟨hhead, hacc, ?_, hi, hpush⟩, small := h.small, fits := h.fits,
           kept := fun k frame hk hround => ?_ }
  · rw [FrameBuf.get_succ, hget, List.take_concat_get' data i hi]
  · have hlt : k < s.frames.length := (List.getElem?_eq_some_iff.mp hk).1
    have hframe := h.small frame (List.mem_of_getElem? hk)
    have hround : s.frames.length + 1 ≤ k + frameSlots := hround
    have hdata := hacc.1
    have hapart := slotOffset_apart hlt (by omega)
    rw [FrameBuf.get_update _ (by rw [hhead]; omega)]
    exact h.kept k frame hk (by rw [hstarted]; exact hround)

/-- All bytes are copied. -/
lemma copied {data : List UInt8} {i : ℕ} (hcopy : s.phase = .copying data i)
    (hb : data[i]? = none) : TxInv { s with
      bufHead := (s.bufHead + frameSlotSize) % frameBufLen
      phase := .pushing data (simpleNicTxDesc (s.bufBasePhysAddr + UInt64.ofNat s.bufHead)
        (UInt32.ofNat data.length)) none } := by
  have hphase := h.phase
  simp only [TxPhaseInv, hcopy] at hphase
  obtain ⟨hhead, hacc, hget, hi, hpush⟩ := hphase
  obtain rfl : i = data.length := le_antisymm hi (List.getElem?_eq_none_iff.mp hb)
  have hstarted : s.started = s.frames.length + 1 := by rw [FrameTxQueue.started, hcopy]
  rw [hhead] at hget
  rw [List.take_length] at hget
  refine { h with
    phase := ⟨?_, hhead ▸ hacc.2.1, hacc.1, hget, ?_, hpush⟩
    kept := fun k frame hk hround => h.kept k frame hk (by rw [hstarted]; exact hround) }
  · rw [hhead]
    exact slotOffset_succ _
  · rw [hhead, frameDesc]

lemma push {data : List UInt8} {desc : Desc}
    {push : Option (ProducerRing.ProducerM spec Desc (Except CsrError Bool))}
    (hpushing : s.phase = .pushing data desc push) :
    let rest := Prog.advance (ProducerRing.tryPushAtomic id [desc]) push s.inner
    TxInv ({ s with inner := rest.2 }.resume data desc rest.1) ∧
      rest.2.consumed = s.inner.consumed := by
  have hphase := h.phase
  simp only [TxPhaseInv, hpushing] at hphase
  obtain ⟨hhead, hfits, hsmall, hget, rfl, hpush⟩ := hphase
  have hstarted : s.started = s.frames.length + 1 := by rw [FrameTxQueue.started, hpushing]
  obtain ⟨hsafe, hkeeps, hconsumed⟩ := hpush.advance
  generalize Prog.advance (ProducerRing.tryPushAtomic id
    [frameDesc s.bufBasePhysAddr s.frames.length data]) push s.inner = a at hsafe hkeeps hconsumed ⊢
  obtain ⟨p, inner⟩ := a
  refine ⟨?_, hconsumed⟩
  have hkept : ∀ k frame, s.frames[k]? = some frame → s.frames.length + 1 ≤ k + frameSlots →
      s.buf.get (slotOffset k) frame.length = frame := by
    rw [← hstarted]
    exact h.kept
  rcases p with (e | _ | _) | ⟨f, k⟩
  · exact { phase := ⟨hhead, hfits, hsmall, hget, rfl, hsafe⟩, small := h.small, fits := h.fits,
            kept := hkept }
  · exact { phase := ⟨hhead, hfits, hsmall, hget, rfl, hsafe⟩, small := h.small, fits := h.fits,
            kept := hkept }
  · -- the frame joins those that are in their slots
    refine { phase := ⟨?_, hsafe⟩, small := ?_, fits := ?_, kept := ?_ }
    · rw [FrameTxQueue.resume, List.length_append]
      exact hhead
    · intro frame hframe
      rcases List.mem_append.mp hframe with hframe | hframe
      · exact h.small frame hframe
      · rwa [List.mem_singleton.mp hframe]
    · intro k hk
      rw [FrameTxQueue.resume, List.length_append, List.length_singleton] at hk
      rcases Nat.lt_succ_iff_lt_or_eq.mp hk with hk | rfl
      · exact h.fits k hk
      · exact hfits
    · intro k frame hk hround
      have hround : s.frames.length + 1 ≤ k + frameSlots := by
        simpa [FrameTxQueue.resume, FrameTxQueue.started] using hround
      have hmem : (s.frames ++ [data])[k]? = some frame := hk
      rcases Nat.lt_or_ge k s.frames.length with hlt | hge
      · rw [List.getElem?_append_left hlt] at hmem
        exact hkept k frame hmem hround
      · rw [List.getElem?_append_right hge, List.getElem?_singleton] at hmem
        split at hmem
        · obtain rfl : k = s.frames.length := by omega
          obtain rfl := Option.some_inj.mp hmem
          exact hget
        · cases hmem
  · exact { phase := ⟨hhead, hfits, hsmall, hget, rfl, nofun, hkeeps, hsafe⟩, small := h.small,
            fits := h.fits, kept := hkept }

lemma work : TxInv s.work := by
  rw [FrameTxQueue.work]
  split
  · exact h
  split
  · exact h
  · rename_i hcopy
    split
    · rename_i hb
      exact h.copyByte hcopy hb
    · rename_i hb
      exact h.copied hcopy hb
  · rename_i hpushing
    exact (h.push hpushing).1

lemma step (a : TxAction) : TxInv (s.step a) := by
  cases a with
  | send data => exact h.send data
  | work => exact h.work
  | card e => exact h.card e

lemma run (acts : List TxAction) : TxInv (s.run acts) := by
  induction acts using List.reverseRecOn with
  | nil => exact h
  | append_singleton acts a ih =>
    rw [FrameTxQueue.run_snoc]
    exact ih.step a

end TxInv

namespace FrameTxQueue

variable {s : FrameTxQueue spec}

/-- Whenever a call begins, the card has less than a round of slots to read. -/
def Prompt (s : FrameTxQueue spec) (acts : List TxAction) : Prop :=
  ∀ pre data, pre ++ [.send data] <+: acts → (s.run pre).phase = .idle →
    (s.run pre).frames.length < (s.run pre).inner.consumed.length + frameSlots

lemma consumed_step (h : TxInv s) (a : TxAction) :
    s.inner.consumed.length ≤ (s.step a).inner.consumed.length := by
  cases a with
  | send data =>
    simp only [step, send]
    split
    · split
      · exact le_rfl
      · split <;> exact le_rfl
    · exact le_rfl
  | work =>
    simp only [step, work]
    split
    · exact le_rfl
    split
    · exact le_rfl
    · split <;> exact le_rfl
    · rename_i data desc push hpushing
      have hconsumed := (h.push hpushing).2
      refine le_of_eq ?_
      rw [← hconsumed]
      rcases Prog.advance (ProducerRing.tryPushAtomic id [desc]) push s.inner with
        ⟨(e | _ | _) | ⟨f, k⟩, inner⟩ <;> rfl
  | card e => exact (e.run_ring s.inner).2

/-- A call in progress is not begun again, and its frame counts from its beginning. -/
lemma started_step (s : FrameTxQueue spec) (a : TxAction) :
    (s.step a).started = s.started ∨ (∃ data, a = .send data) ∧ s.phase = .idle ∧
      (s.step a).started = s.frames.length + 1 := by
  cases a with
  | send data =>
    simp only [step, send]
    split
    · rename_i hidle
      split
      · exact Or.inl rfl
      split
      · exact Or.inr ⟨⟨data, rfl⟩, hidle, rfl⟩
      · exact Or.inl rfl
    · exact Or.inl rfl
  | work =>
    left
    simp only [step, work]
    split
    · rfl
    split
    · rfl
    · rename_i hcopy
      split <;> simp only [started, hcopy]
    · rename_i data desc push hpushing
      rcases Prog.advance (ProducerRing.tryPushAtomic id [desc]) push s.inner with
        ⟨(e | _ | _) | ⟨f, k⟩, inner⟩ <;> simp [started, resume, hpushing]
  | card e => exact Or.inl rfl

lemma started_le {acts : List TxAction} (h : TxInv s) (hprompt : s.Prompt acts)
    (hs : s.started ≤ s.inner.consumed.length + frameSlots) :
    (s.run acts).started ≤ (s.run acts).inner.consumed.length + frameSlots := by
  induction acts using List.reverseRecOn with
  | nil => exact hs
  | append_singleton acts a ih =>
    have ih := ih fun pre data hpre => hprompt pre data (hpre.trans (List.prefix_append _ _))
    have hmono := consumed_step (h.run acts) a
    rw [run_snoc]
    rcases started_step (s.run acts) a with heq | ⟨⟨data, rfl⟩, hidle, heq⟩
    · omega
    · have hlt := hprompt acts data (List.prefix_refl _) hidle
      omega

/-- What an unread descriptor points to is the slot of its position. -/
lemma framesIntact_iff (h : TxInv s) : s.FramesIntact ↔
    ∀ k frame, s.frames[k]? = some frame → s.inner.consumed.length ≤ k →
      s.buf.get (slotOffset k) frame.length = frame := by
  refine forall_congr' fun k => forall_congr' fun frame => forall_congr' fun hk =>
    forall_congr' fun hread => ?_
  obtain ⟨c, hc⟩ := h.published
  have hlt := (List.getElem?_eq_some_iff.mp hk).1
  have hsmall := h.small frame (List.mem_of_getElem? hk)
  have hsize : frameSlotSize = 128 := rfl
  have hslot := hc.window k hread (by rwa [frameDescs, List.length_mapIdx])
  rw [frameDescs, List.getElem?_mapIdx, hk, Option.map_some, Option.some_inj] at hslot
  dsimp only
  rw [← hslot, txAddr_frameDesc (h.fits k hlt), frameDesc, txLen_desc, UInt32.toNat_ofNat',
    Nat.mod_eq_of_lt (by omega), Nat.add_sub_cancel_left]
  exact and_iff_right (Nat.le_add_right _ _)

end FrameTxQueue

/-- **Unread frames are intact** as long as the card is never a round of slots behind when a call
begins: whatever the calls and the card do in between, the bytes that an unread descriptor points to
are those of the frame it was made for. -/
theorem frames_intact (slots : Fin spec.elementNum → Desc) (buf : FrameBuf) (base : UInt64)
    (acts : List TxAction) (hprompt : (FrameTxQueue.new slots buf base).Prompt acts) :
    ((FrameTxQueue.new slots buf base).run acts).FramesIntact := by
  have hnew := TxInv.new slots buf base
  have hstarted := FrameTxQueue.started_le hnew hprompt (Nat.zero_le _)
  rw [FrameTxQueue.framesIntact_iff (hnew.run acts)]
  exact fun k frame hk hread => (hnew.run acts).kept k frame hk (by omega)

/-- Two frames of two bytes; the card reads the first descriptor while the second frame is
copied. -/
def twoFrames : List TxAction :=
  [.send [1, 2], .work, .work, .work, .work, .work, .work, .work, .work, .send [3, 4], .work,
   .card .consume, .work, .work, .work, .work, .work, .work, .work]

theorem frames_intact_two :
    let s :=
      (FrameTxQueue.new (fun _ : Fin simpleNicTxSpec.elementNum => .zeroed) (fun _ => 0) 0).run
      twoFrames
    s.frames = [[1, 2], [3, 4]] ∧ s.inner.consumed.length = 1 ∧ s.FramesIntact := by
  refine ⟨by decide +kernel, by decide +kernel, frames_intact _ _ _ twoFrames ?_⟩
  intro pre data hpre _
  have hfew : ∀ pre ∈ twoFrames.inits, ((FrameTxQueue.new
      (fun _ : Fin simpleNicTxSpec.elementNum => .zeroed) (fun _ => 0) 0).run pre).frames.length ≤
        2 := by
    decide +kernel
  have hle := hfew pre ((List.mem_inits _ _).mpr ((List.prefix_append _ _).trans hpre))
  have hslots := frameSlots_eq
  omega

/-! ## A run that overwrites -/

namespace FrameTxQueue

/-- One-byte frames are sent, and the card reads nothing. -/
def Unread (a : TxAction) : Prop := a = .work ∨ ∃ b, a = .send [b]

/-- The queue gets from one state to another in this way. -/
abbrev Later : FrameTxQueue spec → FrameTxQueue spec → Prop :=
  Relation.ReflTransGen fun s t => ∃ a, Unread a ∧ t = s.step a

lemma Later.exists_run {s t : FrameTxQueue spec} (h : Later s t) :
    ∃ acts, (∀ a ∈ acts, Unread a) ∧ s.run acts = t := by
  induction h with
  | refl => exact ⟨[], by simp, rfl⟩
  | tail _ hstep ih =>
    obtain ⟨a, ha, rfl⟩ := hstep
    obtain ⟨acts, hacts, rfl⟩ := ih
    refine ⟨acts ++ [a], ?_, run_snoc _ _ _⟩
    intro b hb
    rcases List.mem_append.mp hb with hb | hb
    · exact hacts b hb
    · rwa [List.mem_singleton.mp hb]

variable {s : FrameTxQueue spec}

/-- The push is taken to its end. -/
lemma later_resume (hp : s.panicked = false) (data : List UInt8)
    (desc : Desc) (p : ProducerRing.ProducerM spec Desc (Except CsrError Bool))
    (inner : ProducerState spec Desc) :
    Later ({ s with inner }.resume data desc p)
      ({ s with inner := (p.exec inner).2 }.resume data desc (.ret (p.exec inner).1)) := by
  induction p generalizing inner with
  | ret r => exact .refl
  | act f k ih =>
    refine Relation.ReflTransGen.head ⟨.work, Or.inl rfl, ?_⟩ (ih inner (f inner))
    simp only [step, work, resume, hp, Prog.advance, Bool.false_eq_true, if_false]

/-- The queue is between two calls and works. -/
structure Ready (s : FrameTxQueue spec) : Prop where
  inv : TxInv s
  idle : s.phase = .idle
  alive : s.panicked = false
  ok : s.inner.csr.ok = true

/-- With an address space that starts at 0, a frame of one byte is accepted; there is room for it if
the card is not a whole ring behind. -/
lemma accepts_of_ready (h : Ready s) (hbase : s.bufBasePhysAddr = 0)
    {b : UInt8} (hlen : s.frames.length + 1 ≤ s.inner.consumed.length + spec.elementNum) :
    s.Accepts [b] ∧ s.inner.RoomFor 1 := by
  have hphase := h.inv.phase
  simp only [TxPhaseInv, h.idle] at hphase
  have hle := slotOffset_add_le s.frames.length
  have hbuf : frameBufLen = 131072 := rfl
  have hsize : frameSlotSize = 128 := rfl
  refine ⟨⟨?_, ?_, ?_⟩, ?_⟩
  · rw [List.length_singleton, hsize]
    decide
  · rw [hbase, hphase.1]
    change 0 + _ < _
    omega
  · rw [hphase.1, List.length_singleton]
    omega
  · obtain ⟨c, hc⟩ := h.inv.published
    rwa [hc.roomFor_iff, frameDescs, List.length_mapIdx]

/-- The result of a push for which there is room. -/
lemma exec_push {pushed : List Desc} {inner : ProducerState spec Desc}
    (hpub : Published pushed inner) (hok : inner.csr.ok = true) (hroom : inner.RoomFor 1)
    (desc : Desc) :
    ∃ inner', (ProducerRing.tryPushAtomic id [desc]).exec inner = (.ok true, inner') ∧
      inner'.csr.ok = true ∧ inner'.consumed = inner.consumed := by
  have hconsumed := (ProducerRing.tryPushAtomic_keeps id [desc]).exec inner
  have hne := (ProducerRing.tryPushAtomic_room id [desc] hpub hroom).exec
  obtain ⟨⟨b, hb⟩, hok'⟩ := (ProducerRing.tryPushAtomic_normal id [desc] hok).exec
  rw [hb] at hne
  cases b with
  | false => exact absurd rfl hne
  | true => exact ⟨_, Prod.ext hb rfl, hok', hconsumed⟩

/-- A frame of one byte is in its slot, and its descriptor is to be pushed. -/
def copied (s : FrameTxQueue spec) (b : UInt8) (desc : Desc) : FrameTxQueue spec :=
  { s with
    buf := update s.buf s.bufHead b
    bufHead := (s.bufHead + frameSlotSize) % frameBufLen
    phase := .pushing [b] desc none }

lemma later_copied (h : Ready s) {b : UInt8} (hacc : s.Accepts [b]) :
    ∃ desc, Later s (s.copied b desc) := by
  have hsend : s.step (.send [b]) = { s with phase := .copying [b] 0 } := by
    simp only [step, send, h.idle, h.alive, Bool.false_eq_true, if_false, if_pos hacc]
  refine ⟨simpleNicTxDesc (s.bufBasePhysAddr + UInt64.ofNat s.bufHead) (UInt32.ofNat [b].length),
    .head ⟨.send [b], Or.inr ⟨b, rfl⟩, hsend.symm⟩ (.head ⟨.work, Or.inl rfl, rfl⟩
      (.single ⟨.work, Or.inl rfl, ?_⟩))⟩
  simp only [step, work, h.alive, Bool.false_eq_true, if_false, List.getElem?_cons_zero,
    Nat.add_zero, Nat.zero_add, List.getElem?_cons_succ, List.getElem?_nil]
  rw [copied, h.alive]

/-- A frame of one byte is sent. -/
lemma later_sent (h : Ready s) {b : UInt8} (hacc : s.Accepts [b]) (hroom : s.inner.RoomFor 1) :
    ∃ t, Later s t ∧ Ready t ∧ t.frames = s.frames ++ [[b]] ∧
      t.inner.consumed = s.inner.consumed ∧ t.bufBasePhysAddr = s.bufBasePhysAddr := by
  obtain ⟨desc, hcopied⟩ := later_copied h hacc
  obtain ⟨inner', hexec, hok, hconsumed⟩ := exec_push h.inv.published h.ok hroom desc
  have hpush := later_resume (s := s.copied b desc) h.alive [b] desc
    (ProducerRing.tryPushAtomic id [desc]) s.inner
  rw [hexec] at hpush
  have hlater : Later s
      { s.copied b desc with inner := inner', phase := .idle, frames := s.frames ++ [[b]] } := by
    refine hcopied.trans (.head ⟨.work, Or.inl rfl, ?_⟩ hpush)
    simp [step, work, h.alive, copied, Prog.advance]
  obtain ⟨acts, -, hrun⟩ := Later.exists_run hlater
  exact ⟨_, hlater, ⟨hrun ▸ h.inv.run acts, rfl, h.alive, hok⟩, rfl, hconsumed, rfl⟩

/-- `m` frames of one byte are in the ring, and the card has read nothing. -/
lemma later_filled (slots : Fin spec.elementNum → Desc) (b : UInt8) {m : ℕ}
    (hm : m ≤ spec.elementNum) :
    ∃ t, Later (new slots (fun _ => 0) 0) t ∧ Ready t ∧ t.frames = List.replicate m [b] ∧
      t.inner.consumed = [] ∧ t.bufBasePhysAddr = 0 := by
  induction m with
  | zero => exact ⟨_, .refl, ⟨.new slots _ 0, rfl, rfl, rfl⟩, rfl, rfl, rfl⟩
  | succ m ih =>
    obtain ⟨s, hlater, hready, hframes, hconsumed, hbase⟩ := ih (by omega)
    obtain ⟨hacc, hroom⟩ := accepts_of_ready hready hbase (b := b) (by
      rw [hframes, hconsumed, List.length_replicate, List.length_nil, Nat.zero_add]
      exact hm)
    obtain ⟨t, hsent, hready', hframes', hconsumed', hbase'⟩ := later_sent hready hacc hroom
    refine ⟨t, hlater.trans hsent, hready', ?_, hconsumed'.trans hconsumed, hbase'.trans hbase⟩
    rw [hframes', hframes, List.replicate_succ']

end FrameTxQueue

/-- **A frame is overwritten** while its descriptor is unread.  The buffer has 1024 slots: the frame
after 1024 unread ones goes to the slot of the first. -/
theorem frame_overwritten : ∃ acts, (∀ a ∈ acts, FrameTxQueue.Unread a) ∧
    ¬ ((FrameTxQueue.new (fun _ : Fin simpleNicTxSpec.elementNum => .zeroed) (fun _ => 0) 0).run
      acts).FramesIntact := by
  have hN : simpleNicTxSpec.elementNum = 4096 := rfl
  obtain ⟨s, hlater, hready, hframes, hconsumed, hbase⟩ := FrameTxQueue.later_filled
    (fun _ : Fin simpleNicTxSpec.elementNum => Desc.zeroed) 1 (m := 1024) (by omega)
  obtain ⟨hacc, hroom⟩ := FrameTxQueue.accepts_of_ready hready hbase (b := 2) (by
    rw [hframes, hconsumed, List.length_replicate, hN]
    decide)
  obtain ⟨t, hsent, hready', hframes', hconsumed', hbase'⟩ :=
    FrameTxQueue.later_sent hready hacc hroom
  obtain ⟨acts, hacts, rfl⟩ := FrameTxQueue.Later.exists_run (hlater.trans hsent)
  refine ⟨acts, hacts, fun hintact => ?_⟩
  rw [FrameTxQueue.framesIntact_iff hready'.inv, hframes', hframes] at hintact
  have hfirst := hintact 0 [1] rfl (by rw [hconsumed', hconsumed]; exact le_rfl)
  have hget : (List.replicate 1024 [(1 : UInt8)] ++ [[2]])[1024]? = some [2] := by
    rw [List.getElem?_append_right (by rw [List.length_replicate]), List.length_replicate]
    rfl
  have hlast := hready'.inv.kept 1024 [2] (by rwa [hframes', hframes]) (by
    rw [FrameTxQueue.started, hready'.idle, hframes', hframes, frameSlots_eq]
    dsimp only
    rw [List.length_append, List.length_replicate, List.length_singleton]
    omega)
  rw [show slotOffset 1024 = slotOffset 0 from rfl] at hlast
  exact absurd (hfirst.symm.trans hlast) (by decide)

end OpenRdma
