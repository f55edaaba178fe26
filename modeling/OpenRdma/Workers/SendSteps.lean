import Mathlib.Data.List.ReduceOption
import OpenRdma.Ring.ProducerRoom
import OpenRdma.Workers.Send

/-!
# The send worker, step by step

`SendWorkerInv` relates the worker to the list of chunks that it has written, and `SendWorkerStep`
says what a step does to that list and to the chunks that are still `waiting`: none is lost or
doubled, and under `Orderly` none overtakes another.

* **`run_writes`** — the same for whole runs.
-/

namespace OpenRdma

variable {spec : RingSpec}

/-- The descriptors of chunks, as they are in the ring. -/
def WrChunk.bytes (wr : WrChunk) : List Desc := wr.descs.map SendQueueDesc.toBytes

def bytesOf (wrs : List WrChunk) : List Desc := wrs.flatMap WrChunk.bytes

lemma bytesOf_snoc (wrs : List WrChunk) (wr : WrChunk) :
    bytesOf (wrs ++ [wr]) = bytesOf wrs ++ wr.descs.map SendQueueDesc.toBytes := by
  rw [bytesOf, bytesOf, List.flatMap_append, List.flatMap_singleton, WrChunk.bytes]

namespace SendWorker

/-- The chunks that are not written yet, in the order in which the worker will try them.  As long as
no chunk of the batch was put back, the local deque comes after the batch, and before it
afterwards. -/
def waiting (s : SendWorker spec) : List WrChunk :=
  s.retVal.reduceOption ++
    (if s.putBack = 0 then s.wrs.reduceOption ++ s.localQueue
      else s.localQueue ++ s.wrs.reduceOption) ++ s.injector

lemma waiting_perm (s : SendWorker spec) :
    s.waiting.Perm
      (s.wrs.reduceOption ++ s.localQueue ++ (s.retVal.reduceOption ++ s.injector)) := by
  rw [waiting, List.append_assoc]
  refine (List.perm_append_comm_assoc _ _ _).trans (List.Perm.append_right _ ?_)
  split
  · exact List.Perm.refl _
  · exact List.perm_append_comm

/-- While a batch has chunks to try: as long as none of them was put back, there is room for a pair
or the local deque is empty; from then on there is no room. -/
def Orderly (s : SendWorker spec) : Prop :=
  s.wrs.reduceOption ≠ [] →
    if s.putBack = 0 then s.sq.RoomFor 2 ∨ s.localQueue = [] else ¬ s.sq.RoomFor 2

instance (s : SendWorker spec) : Decidable s.Orderly := by
  unfold Orderly
  infer_instance

/-! ## The push -/

/-- The push that the worker is in is safe. -/
def PushSafe (rely : ProducerState spec Desc → ProducerState spec Desc → Prop)
    (inv : ProducerState spec Desc → Prop)
    (post : Except CsrError Bool → ProducerState spec Desc → Prop) (s : SendWorker spec) : Prop :=
  ∀ p, s.push = some p → p.Safe rely inv post s.sq

section Push

variable {rely : ProducerState spec Desc → ProducerState spec Desc → Prop}
  {inv : ProducerState spec Desc → Prop}
  {post : Except CsrError Bool → ProducerState spec Desc → Prop} {s : SendWorker spec}

/-- What is left of the push after its next action is safe, if the push is safe from its start. -/
lemma PushSafe.advance (h : s.PushSafe rely inv post) {wr : WrChunk}
    (hstart : s.push = none →
      (ProducerRing.tryPushAtomic SendQueueDesc.toBytes wr.descs).Safe rely inv post s.sq)
    (hret : ∀ r, s.push ≠ some (.ret r)) :
    (s.advance wr).1.Safe rely inv post (s.advance wr).2 :=
  Prog.Safe.advance h hret hstart

lemma PushSafe.card (h : s.PushSafe rely inv post) (hpost : ∀ r, Prog.Stable rely (post r))
    {sq : ProducerState spec Desc} (hsq : rely s.sq sq) : PushSafe rely inv post { s with sq } :=
  fun p hp => (h p hp).rely_step hpost hsq

end Push

end SendWorker

/-- The chunks `written` are in the ring, or have been.  The push that the worker is in is for the
first chunk of the batch and adds it, or nothing. -/
structure SendWorkerInv (written : List WrChunk) (s : SendWorker spec) : Prop where
  batch : s.wrs = [] ∨ s.retVal = []
  idle : s.push = none → Published (bytesOf written) s.sq
  started : ∀ r, s.push ≠ some (.ret r)
  first : s.push ≠ none → ∃ wr rest, s.wrs = some wr :: rest
  pushing : ∀ wr rest, s.wrs = some wr :: rest → s.PushSafe cardRely (Published (bytesOf written))
    fun r => Published (if r = .ok true then bytesOf (written ++ [wr]) else bytesOf written)

/-- What the order of a push rests on: with chunks in the local deque it is not refused, unless one
of the batch was put back, and then it is. -/
structure SendInOrder (s : SendWorker spec) : Prop where
  room : s.putBack = 0 → s.localQueue ≠ [] →
    s.PushSafe cardRely (fun _ => True) fun r _ => r ≠ .ok false
  full : s.putBack ≠ 0 →
    s.PushSafe (ProducerRing.fullRely 2) (fun _ => True) fun r _ => r ≠ .ok true

namespace SendWorkerInv

variable {written : List WrChunk} {s : SendWorker spec}

lemma published (h : SendWorkerInv written s) : Published (bytesOf written) s.sq := by
  rcases hpush : s.push with _ | p
  · exact h.idle hpush
  · obtain ⟨wr, rest, hwrs⟩ := h.first (by rw [hpush]; exact nofun)
    have hsafe := h.pushing wr rest hwrs p hpush
    cases p with
    | ret r => exact absurd hpush (h.started r)
    | act f k => exact (hsafe s.sq .refl).1

/-- The worker is in no push. -/
lemma of_idle (hpub : Published (bytesOf written) s.sq) (hpush : s.push = none)
    (hbatch : s.wrs = [] ∨ s.retVal = []) : SendWorkerInv written s where
  batch := hbatch
  idle := fun _ => hpub
  started := fun r hr => by rw [hpush] at hr; cases hr
  first := fun h => absurd hpush h
  pushing := fun _ _ _ p hp => by rw [hpush] at hp; cases hp

lemma new (buffer : Fin spec.elementNum → Desc) : SendWorkerInv [] (SendWorker.new buffer) :=
  of_idle ⟨0, .new buffer⟩ rfl (Or.inl rfl)

lemma card (h : SendWorkerInv written s) (e : CardStep) :
    SendWorkerInv written { s with sq := e.run s.sq } where
  batch := h.batch
  idle := fun hpush => stable_published _ _ _ ⟨e, rfl⟩ (h.idle hpush)
  started := h.started
  first := h.first
  pushing := fun wr rest hwrs =>
    (h.pushing wr rest hwrs).card (fun _ => stable_published _) ⟨e, rfl⟩

/-- The worker is in a push only for a chunk. -/
lemma push_none (h : SendWorkerInv written s) (hwrs : ∀ wr rest, s.wrs ≠ some wr :: rest) :
    s.push = none := by
  by_contra hpush
  obtain ⟨wr, rest, hcons⟩ := h.first hpush
  exact hwrs wr rest hcons

/-- The push for the first chunk goes on. -/
lemma advance (h : SendWorkerInv written s) {wr : WrChunk} {rest : List (Option WrChunk)}
    (hwrs : s.wrs = some wr :: rest) :
    (s.advance wr).1.Safe cardRely (Published (bytesOf written))
      (fun r => Published (if r = .ok true then bytesOf (written ++ [wr]) else bytesOf written))
      (s.advance wr).2 := by
  refine (h.pushing wr rest hwrs).advance (fun hpush => ?_) h.started
  rw [bytesOf_snoc]
  exact ProducerRing.tryPushAtomic_safe _ (h.idle hpush) wr.descs

end SendWorkerInv

lemma SendInOrder.of_idle {s : SendWorker spec} (hpush : s.push = none) : SendInOrder s where
  room := fun _ _ p hp => by rw [hpush] at hp; cases hp
  full := fun _ p hp => by rw [hpush] at hp; cases hp

/-! ## Steps -/

/-- What a step does to the chunks that are written and waiting. -/
structure SendWorkerStep (written : List WrChunk) (s : SendWorker spec)
    (sent written' : List WrChunk)
    (s' : SendWorker spec) : Prop where
  inv : SendWorkerInv written' s'
  grows : written <+: written'
  perm : (written' ++ s'.waiting).Perm (written ++ s.waiting ++ sent)
  order : SendInOrder s → s.Orderly → s'.Orderly →
    SendInOrder s' ∧ written' ++ s'.waiting = written ++ s.waiting ++ sent

namespace SendWorkerStep

variable {written : List WrChunk} {s : SendWorker spec}

/-- A step that writes no chunk and moves none past another. -/
lemma same {s' : SendWorker spec} {sent : List WrChunk} (hinv : SendWorkerInv written s')
    (hwaiting : s'.waiting = s.waiting ++ sent)
    (horder : SendInOrder s → s.Orderly → s'.Orderly → SendInOrder s') :
    SendWorkerStep written s sent written s' where
  inv := hinv
  grows := List.prefix_refl written
  perm := by rw [hwaiting, List.append_assoc]
  order := fun h ho ho' => ⟨horder h ho ho', by rw [hwaiting, List.append_assoc]⟩

lemma waiting_collect (hwrs : s.wrs = []) (wqe : Option WrChunk) :
    (s.collect wqe).waiting =
      s.retVal.reduceOption ++ wqe.toList ++ s.localQueue ++ s.injector := by
  have hsnoc : (s.retVal ++ [wqe]).reduceOption = s.retVal.reduceOption ++ wqe.toList := by
    rw [List.reduceOption_append]
    cases wqe <;> rfl
  simp only [SendWorker.collect]
  split
  · simp [SendWorker.waiting, ← hsnoc]
  · simp [SendWorker.waiting, hwrs, hsnoc]

lemma collect {t : SendWorker spec} (hpub : Published (bytesOf written) t.sq)
    (hpush : t.push = none) (hwrs : t.wrs = []) (wqe : Option WrChunk)
    (hwaiting : t.retVal.reduceOption ++ wqe.toList ++ t.localQueue ++ t.injector = s.waiting) :
    SendWorkerStep written s [] written (t.collect wqe) := by
  have hnone : (t.collect wqe).push = none := by
    simp only [SendWorker.collect]
    split <;> exact hpush
  refine same ?_ ?_ (fun _ _ _ => .of_idle hnone)
  · simp only [SendWorker.collect]
    split
    · exact .of_idle hpub hpush (Or.inr rfl)
    · exact .of_idle hpub hpush (Or.inl hwrs)
  · rw [waiting_collect hwrs, hwaiting, List.append_nil]

variable (h : SendWorkerInv written s)

include h

lemma send (wr : WrChunk) : SendWorkerStep written s [wr] written (s.step (.send wr)) := by
  refine same { h with } ?_ (fun hord _ _ => { hord with })
  rw [SendWorker.step, SendWorker.waiting, SendWorker.waiting, List.append_assoc _ s.injector]

/-- A push is in progress only for a chunk of the batch. -/
lemma wrs_ne_nil {p : ProducerRing.ProducerM spec Desc (Except CsrError Bool)}
    (hp : s.push = some p) : s.wrs.reduceOption ≠ [] := by
  obtain ⟨wr, rest, hwrs⟩ := h.first (by rw [hp]; exact nofun)
  rw [hwrs, List.reduceOption_cons_of_some]
  exact List.cons_ne_nil _ _

lemma card (e : CardStep) : SendWorkerStep written s [] written (s.step (.card e)) := by
  refine same (h.card e) (List.append_nil _).symm (fun hord _ ho' => ?_)
  refine { room := fun h0 hne => (hord.room h0 hne).card (fun _ _ _ _ h => h) ⟨e, rfl⟩,
           full := fun h0 p hp => ?_ }
  have hfull := ho' (wrs_ne_nil (h.card e) hp)
  rw [if_neg h0] at hfull
  exact (hord.full h0).card (fun _ _ _ _ h => h) ⟨⟨e, rfl⟩, hfull⟩ p hp

/-! ### Polling -/

/-- A pop takes the chunk that has waited longest. -/
lemma pollNext (hwrs : s.wrs = []) (n : ℕ) :
    SendWorkerStep written s [] written (s.pollNext n) := by
  have hpush : s.push = none :=
    h.push_none (fun wr rest hcons => by rw [hwrs] at hcons; cases hcons)
  have hpub := h.idle hpush
  have hwaiting : s.waiting = s.retVal.reduceOption ++ s.localQueue ++ s.injector := by
    simp [SendWorker.waiting, hwrs]
  rw [SendWorker.pollNext]
  split
  · rename_i wr rest hlocal
    refine collect (by exact hpub) (by exact hpush) (by exact hwrs) (some wr) ?_
    simp [hwaiting, hlocal]
  · rename_i wr rest hlocal hinjector
    refine collect (by exact hpub) (by exact hpush) (by exact hwrs) (some wr) ?_
    simp [hwaiting, hlocal, hinjector]
  · rename_i hlocal hinjector
    refine collect hpub hpush hwrs none ?_
    simp [hwaiting, hlocal]

/-! ### Processing -/

/-- An empty place of the batch. -/
lemma skip {rest : List (Option WrChunk)}
    (hwrs : s.wrs = none :: rest) : SendWorkerStep written s [] written { s with wrs := rest } := by
  have hpush : s.push = none :=
    h.push_none (fun wr rest hcons => by rw [hwrs] at hcons; cases hcons)
  refine same (.of_idle (h.idle hpush) hpush (Or.inr ?_)) ?_ (fun _ _ _ => .of_idle hpush)
  · exact h.batch.resolve_left (by rw [hwrs]; exact List.cons_ne_nil _ _)
  · simp [SendWorker.waiting, hwrs, List.reduceOption_cons_of_none]

/-- The push goes on, or the chunk is written or put back. -/
lemma push {wr : WrChunk} {rest : List (Option WrChunk)} (hwrs : s.wrs = some wr :: rest) :
    ∃ written', SendWorkerStep written s [] written'
      ({ s with sq := (s.advance wr).2 }.resume wr rest (s.advance wr).1) := by
  have hsafe := h.advance hwrs
  have hret : s.retVal = [] := h.batch.resolve_left (by rw [hwrs]; exact List.cons_ne_nil _ _)
  have hchunks : s.wrs.reduceOption = wr :: rest.reduceOption := by
    rw [hwrs, List.reduceOption_cons_of_some]
  have hroom : SendInOrder s → s.Orderly → s.putBack = 0 → s.localQueue ≠ [] →
      (s.advance wr).1.Safe cardRely (fun _ => True) (fun r _ => r ≠ .ok false)
      (s.advance wr).2 := by
    intro hord ho h0 hne
    refine (hord.room h0 hne).advance (fun hpush => ?_) h.started
    have hr := ho (by rw [hchunks]; exact List.cons_ne_nil _ _)
    rw [if_pos h0] at hr
    exact ProducerRing.tryPushAtomic_room _ _ (h.idle hpush) (hr.resolve_right hne)
  have hfull : SendInOrder s → s.Orderly → s.putBack ≠ 0 →
      (s.advance wr).1.Safe (ProducerRing.fullRely 2) (fun _ => True) (fun r _ => r ≠ .ok true)
        (s.advance wr).2 := by
    intro hord ho h0
    refine (hord.full h0).advance (fun hpush => ?_) h.started
    have hr := ho (by rw [hchunks]; exact List.cons_ne_nil _ _)
    rw [if_neg h0] at hr
    exact ProducerRing.tryPushAtomic_full _ wr.descs (h.idle hpush) hr
  generalize s.advance wr = a at hsafe hroom hfull ⊢
  obtain ⟨p, sq⟩ := a
  rcases p with (e | _ | _) | ⟨f, k⟩
  · exact ⟨written, same (.of_idle hsafe rfl (Or.inr hret)) (List.append_nil _).symm
      (fun _ _ _ => .of_idle rfl)⟩
  · -- no room: the chunk goes behind the local deque
    refine ⟨written, { inv := .of_idle hsafe rfl (Or.inr hret), grows := List.prefix_refl written,
                       perm := ?_, order := ?_ }⟩
    · rw [List.append_nil]
      refine List.Perm.append_left _ ((SendWorker.waiting_perm _).trans ?_)
      refine List.Perm.trans ?_ (SendWorker.waiting_perm s).symm
      rw [hchunks]
      refine List.Perm.append_right _ ?_
      exact (List.perm_append_singleton wr _).symm.trans (by simp [SendWorker.resume]) |>.symm
    · intro hord ho _
      refine ⟨.of_idle rfl, ?_⟩
      by_cases h0 : s.putBack = 0
      · have hlocal : s.localQueue = [] := by
          by_contra hne
          exact hroom hord ho h0 hne rfl
        simp [SendWorker.waiting, SendWorker.resume, h0, hlocal, hret, hchunks]
      · simp [SendWorker.waiting, SendWorker.resume, h0, hret, hchunks]
  · refine ⟨written ++ [wr], { inv := .of_idle hsafe rfl (Or.inr hret),
                               grows := List.prefix_append written [wr], perm := ?_, order := ?_ }⟩
    · rw [List.append_nil, List.append_assoc]
      refine List.Perm.append_left _ ?_
      refine ((SendWorker.waiting_perm _).cons wr).trans ?_
      refine List.Perm.trans ?_ (SendWorker.waiting_perm s).symm
      rw [hchunks]
      exact List.Perm.refl _
    · intro hord ho _
      refine ⟨.of_idle rfl, ?_⟩
      have h0 : s.putBack = 0 := by
        by_contra h0
        exact hfull hord ho h0 rfl
      simp [SendWorker.waiting, SendWorker.resume, h0, hret, hchunks]
  · refine ⟨written, same ?_ (List.append_nil _).symm (fun hord ho _ => ?_)⟩
    · refine { batch := h.batch, idle := nofun, started := nofun, first := fun _ =>
        ⟨wr, rest, hwrs⟩,
               pushing := fun wr' rest' hwrs' p hp => ?_ }
      obtain ⟨rfl, rfl⟩ : wr = wr' ∧ rest = rest' := by simpa [SendWorker.resume, hwrs] using hwrs'
      obtain rfl := Option.some_inj.mp hp
      exact hsafe
    · refine { room := fun h0 hne p hp => ?_, full := fun h0 p hp => ?_ }
      · obtain rfl := Option.some_inj.mp hp
        exact hroom hord ho h0 hne
      · obtain rfl := Option.some_inj.mp hp
        exact hfull hord ho h0

lemma work (n : ℕ) : ∃ written', SendWorkerStep written s [] written' (s.work n) := by
  rw [SendWorker.work]
  split
  · exact ⟨written, same h (List.append_nil _).symm (fun hord _ _ => hord)⟩
  · split
    · rename_i hwrs
      exact ⟨written, pollNext h hwrs n⟩
    · rename_i hwrs
      exact ⟨written, skip h hwrs⟩
    · rename_i hwrs
      exact push h hwrs

lemma step (a : SendAction) : ∃ written', SendWorkerStep written s a.sent written' (s.step a) := by
  cases a with
  | send wr => exact ⟨written, send h wr⟩
  | work n => exact work h n
  | card e => exact ⟨written, card h e⟩

end SendWorkerStep

/-! ## Runs -/

/-- The chunks that the run injects. -/
def injectedBy (acts : List SendAction) : List WrChunk := acts.flatMap SendAction.sent

lemma injectedBy_snoc (acts : List SendAction) (a : SendAction) :
    injectedBy (acts ++ [a]) = injectedBy acts ++ a.sent := by
  rw [injectedBy, injectedBy, List.flatMap_append, List.flatMap_singleton]

/-- Every state of the run is orderly. -/
def OrderlyRun (buffer : Fin spec.elementNum → Desc) (acts : List SendAction) : Prop :=
  ∀ pre ∈ acts.inits, (SendWorker.run buffer pre).Orderly

instance (buffer : Fin spec.elementNum → Desc) (acts : List SendAction) :
    Decidable (OrderlyRun buffer acts) :=
  inferInstanceAs (Decidable (∀ pre ∈ acts.inits, _))

lemma OrderlyRun.of_snoc {buffer : Fin spec.elementNum → Desc} {acts : List SendAction}
    {a : SendAction} (h : OrderlyRun buffer (acts ++ [a])) : OrderlyRun buffer acts :=
  fun pre hpre => h pre ((List.mem_inits _ _).mpr
    (((List.mem_inits _ _).mp hpre).trans (List.prefix_append acts [a])))

lemma OrderlyRun.last {buffer : Fin spec.elementNum → Desc} {acts : List SendAction}
    (h : OrderlyRun buffer acts) : (SendWorker.run buffer acts).Orderly :=
  h acts ((List.mem_inits _ _).mpr (List.prefix_refl acts))

/-- **The chunks of a run** are written once or still waiting, and in order if the run is
orderly. -/
lemma run_writes (buffer : Fin spec.elementNum → Desc) (acts : List SendAction) :
    ∃ written, SendWorkerInv written (SendWorker.run buffer acts) ∧
      (written ++ (SendWorker.run buffer acts).waiting).Perm (injectedBy acts) ∧
      (OrderlyRun buffer acts → SendInOrder (SendWorker.run buffer acts) ∧
        written ++ (SendWorker.run buffer acts).waiting = injectedBy acts) := by
  induction acts using List.reverseRecOn with
  | nil => exact ⟨[], .new buffer, .refl _, fun _ => ⟨.of_idle rfl, rfl⟩⟩
  | append_singleton acts a ih =>
    obtain ⟨written, hinv, hperm, hord⟩ := ih
    obtain ⟨written', hstep⟩ := SendWorkerStep.step hinv a
    rw [SendWorker.run_snoc, injectedBy_snoc]
    refine ⟨written', hstep.inv, hstep.perm.trans (hperm.append_right _), fun ho => ?_⟩
    obtain ⟨hs, heq⟩ := hord ho.of_snoc
    have hlast := ho.last
    rw [SendWorker.run_snoc] at hlast
    obtain ⟨hs', heq'⟩ := hstep.order hs ho.of_snoc.last hlast
    exact ⟨hs', by rw [heq', heq]⟩

end OpenRdma
