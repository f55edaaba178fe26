import OpenRdma.Workers.SendSteps

/-!
# What the send worker writes

**`sendWorker_writes`**: whatever the senders, the worker and the card do, every chunk is written as
one pair of descriptors, once, and nothing that waits is stuck; the chunks are written in the order
in which they were injected as long as the run is orderly.

A chunk that finds the ring full goes behind the chunks that are already in the local deque, and the
rest of its batch is tried before it.  `sendWorker_reorders` is a run in which the card frees the
ring in between.
-/

namespace OpenRdma

variable {spec : RingSpec}

/-! ## The card alone -/

variable {sq : ProducerState spec Desc}

lemma Published.iterate {pushed : List Desc}
    (h : Published pushed sq) (k : ℕ) : Published pushed (CardStep.consume.run^[k] sq) := by
  induction k with
  | zero => exact h
  | succ k ih =>
    rw [Function.iterate_succ_apply']
    exact stable_published _ _ _ ⟨.consume, rfl⟩ ih

lemma consume_ok (sq : ProducerState spec Desc) : (CardStep.consume.run sq).csr.ok = sq.csr.ok := by
  simp only [CardStep.run, CardStep.consume1]
  split <;> rfl

lemma iterate_ok (sq : ProducerState spec Desc) (k : ℕ) :
    (CardStep.consume.run^[k] sq).csr.ok = sq.csr.ok := by
  induction k with
  | zero => rfl
  | succ k ih => rw [Function.iterate_succ_apply', consume_ok, ih]

/-- The card makes room by reading. -/
lemma Published.exists_room {pushed : List Desc} (h : Published pushed sq)
    (hN : 2 ≤ spec.elementNum) : ∃ k, (CardStep.consume.run^[k] sq).RoomFor 2 := by
  obtain ⟨c, hc⟩ := h
  have hdrain := hc.drain _ (Nat.add_sub_cancel' hc.read.length_le)
  refine ⟨pushed.length - sq.consumed.length, ?_⟩
  obtain ⟨c', hc'⟩ := Published.iterate ⟨c, hc⟩ (pushed.length - sq.consumed.length)
  rw [hc'.roomFor_iff, hdrain]
  omega

/-! ## Progress -/

/-- The worker or the card acts, and CSR accesses do not start to fail. -/
def SendAction.Quiet (a : SendAction) : Prop := a.sent = [] ∧ a ≠ .card (.access false)

lemma length_bytesOf (wrs : List WrChunk) : (bytesOf wrs).length = 2 * wrs.length := by
  rw [bytesOf, List.length_flatMap]
  simp [WrChunk.bytes, WrChunk.descs, Nat.mul_comm]

namespace SendWorker

/-- The worker and the card get from one state to another by themselves. -/
abbrev Later : SendWorker spec → SendWorker spec → Prop :=
  Relation.ReflTransGen fun s t => ∃ a : SendAction, a.Quiet ∧ t = s.step a

lemma later_consume (s : SendWorker spec) (k : ℕ) :
    Later s { s with sq := CardStep.consume.run^[k] s.sq } := by
  induction k with
  | zero => exact .refl
  | succ k ih =>
    rw [Function.iterate_succ_apply']
    exact ih.tail ⟨.card .consume, ⟨rfl, nofun⟩, rfl⟩

/-- Such a way, as a list of actions. -/
lemma Later.exists_run {buffer : Fin spec.elementNum → Desc} {acts : List SendAction}
    {t : SendWorker spec} (h : Later (run buffer acts) t) :
    ∃ more, (∀ a ∈ more, a.Quiet) ∧ run buffer (acts ++ more) = t := by
  induction h with
  | refl => exact ⟨[], by simp, by rw [List.append_nil]⟩
  | tail _ hstep ih =>
    obtain ⟨a, ha, rfl⟩ := hstep
    obtain ⟨more, hmore, rfl⟩ := ih
    refine ⟨more ++ [a], ?_, by rw [← List.append_assoc, run_snoc]⟩
    intro b hb
    rcases List.mem_append.mp hb with hb | hb
    · exact hmore b hb
    · rwa [List.mem_singleton.mp hb]

/-- The worker goes through with a push on its own. -/
lemma later_resume {s : SendWorker spec} (hp : s.panicked = false) {wr : WrChunk}
    {rest : List (Option WrChunk)} (hwrs : s.wrs = some wr :: rest)
    (p : ProducerRing.ProducerM spec Desc (Except CsrError Bool)) (sq : ProducerState spec Desc) :
    Later ({ s with sq }.resume wr rest p)
      ({ s with sq := (p.exec sq).2 }.resume wr rest (.ret (p.exec sq).1)) := by
  induction p generalizing sq with
  | ret r => exact .refl
  | act f k ih =>
    refine Relation.ReflTransGen.head ⟨.work 0, ⟨rfl, nofun⟩, ?_⟩ (ih sq (f sq))
    simp only [step, work, resume, hp, hwrs, advance, Prog.advance, Bool.false_eq_true, if_false]

/-- The first chunk of the batch is tried. -/
lemma later_push {s : SendWorker spec} (hp : s.panicked = false) {wr : WrChunk}
    {rest : List (Option WrChunk)} (hwrs : s.wrs = some wr :: rest) :
    Later s ({ s with sq := ((s.advance wr).1.exec (s.advance wr).2).2 }.resume wr rest
      (.ret ((s.advance wr).1.exec (s.advance wr).2).1)) := by
  refine Relation.ReflTransGen.head ⟨.work 0, ⟨rfl, nofun⟩, ?_⟩ (later_resume hp hwrs _ _)
  simp only [step, work, hp, hwrs, Bool.false_eq_true, if_false]

end SendWorker

/-- CSR accesses succeed, and the worker has not panicked. -/
structure SendOk (s : SendWorker spec) : Prop where
  ok : s.sq.csr.ok = true
  alive : s.panicked = false
  normal : s.PushSafe ProducerRing.okRely (fun sq => sq.csr.ok = true) ProducerRing.Normal
  short : s.retVal.length < 16

namespace SendOk

variable {written : List WrChunk} {s : SendWorker spec}

lemma new (buffer : Fin spec.elementNum → Desc) : SendOk (SendWorker.new buffer) where
  ok := rfl
  alive := rfl
  normal := nofun
  short := Nat.succ_pos 15

lemma collect {t : SendWorker spec} (h : SendOk t) (wqe : Option WrChunk) :
    SendOk (t.collect wqe) := by
  have hshort := h.short
  simp only [SendWorker.collect]
  split
  · exact { h with short := Nat.succ_pos 15 }
  · rename_i hlen
    rw [List.length_append, List.length_singleton] at hlen
    exact { h with short := by rw [List.length_append, List.length_singleton]; omega }

lemma advance (h : SendWorkerInv written s) (hok : SendOk s) (wr : WrChunk) :
    (s.advance wr).1.Safe ProducerRing.okRely (fun sq => sq.csr.ok = true) ProducerRing.Normal
      (s.advance wr).2 :=
  hok.normal.advance (fun _ => ProducerRing.tryPushAtomic_normal _ wr.descs hok.ok) h.started

lemma work (h : SendWorkerInv written s) (hok : SendOk s) (n : ℕ) : SendOk (s.work n) := by
  rw [SendWorker.work, if_neg (by rw [hok.alive]; rintro ⟨⟩)]
  split
  · rw [SendWorker.pollNext]
    split
    · refine collect ?_ _
      exact { hok with }
    · refine collect ?_ _
      exact { hok with }
    · exact collect hok _
  · exact { hok with }
  · rename_i wr rest hwrs
    have hsafe := advance h hok wr
    generalize s.advance wr = a at hsafe ⊢
    obtain ⟨p, sq⟩ := a
    rcases p with (e | _ | _) | ⟨f, k⟩
    · obtain ⟨⟨_, hr⟩, -⟩ := hsafe
      cases hr
    · exact { ok := hsafe.2, alive := hok.alive, normal := by rintro p ⟨⟩, short := hok.short }
    · exact { ok := hsafe.2, alive := hok.alive, normal := by rintro p ⟨⟩, short := hok.short }
    · refine { ok := (hsafe sq .refl).1, alive := hok.alive, normal := ?_, short := hok.short }
      rintro p hp
      obtain rfl := Option.some_inj.mp hp
      exact hsafe

lemma step (h : SendWorkerInv written s) (hok : SendOk s) {a : SendAction}
    (ha : a ≠ .card (.access false)) : SendOk (s.step a) := by
  cases a with
  | send wr => exact { hok with }
  | work n => exact work h hok n
  | card e =>
    have hcsr : (e.run s.sq).csr.ok = true := by
      cases e with
      | consume => exact (consume_ok s.sq).trans hok.ok
      | access ok =>
        cases ok with
        | false => exact absurd rfl ha
        | true => rfl
    exact { ok := hcsr, alive := hok.alive, short := hok.short,
            normal := hok.normal.card (fun _ _ _ h hr => ⟨hr.1, h.2⟩) ⟨⟨e, rfl⟩, hcsr⟩ }

end SendOk

/-- What stays true on the way from `s` to `t`. -/
structure SendLater (written : List WrChunk) (s : SendWorker spec) (written' : List WrChunk)
    (t : SendWorker spec) : Prop where
  inv : SendWorkerInv written' t
  ok : SendOk t
  grows : written <+: written'
  perm : (written' ++ t.waiting).Perm (written ++ s.waiting)

namespace SendLater

variable {written : List WrChunk} {s t : SendWorker spec}

lemma of_later (h : SendWorkerInv written s) (hok : SendOk s) (hlater : SendWorker.Later s t) :
    ∃ written', SendLater written s written' t := by
  induction hlater with
  | refl => exact ⟨written, h, hok, List.prefix_refl written, .refl _⟩
  | tail _ hstep ih =>
    obtain ⟨a, ha, rfl⟩ := hstep
    obtain ⟨written', hl⟩ := ih
    obtain ⟨written'', hs⟩ := SendWorkerStep.step hl.inv a
    refine ⟨written'', hs.inv, hl.ok.step hl.inv ha.2, hl.grows.trans hs.grows, ?_⟩
    have hperm := hs.perm
    rw [ha.1, List.append_nil] at hperm
    exact hperm.trans hl.perm

lemma waiting_le {written' : List WrChunk} (h : SendLater written s written' t) :
    t.waiting.length ≤ s.waiting.length := by
  have hlen := h.perm.length_eq
  have hgrows := h.grows.length_le
  simp only [List.length_append] at hlen
  omega

end SendLater

namespace SendWorker

variable {written : List WrChunk} {s : SendWorker spec}

lemma waiting_length (s : SendWorker spec) : s.waiting.length =
    s.wrs.reduceOption.length + s.localQueue.length + s.retVal.reduceOption.length +
      s.injector.length := by
  rw [s.waiting_perm.length_eq]
  simp only [List.length_append]
  omega

/-- The worker comes to the end of the push that it is in. -/
lemma later_idle (h : SendWorkerInv written s) (hok : SendOk s) :
    ∃ t, Later s t ∧ t.push = none := by
  rcases hpush : s.push with _ | p
  · exact ⟨s, .refl, hpush⟩
  · obtain ⟨wr, rest, hwrs⟩ := h.first (by rw [hpush]; exact nofun)
    refine ⟨_, later_push hok.alive hwrs, ?_⟩
    rcases ((s.advance wr).1.exec (s.advance wr).2).1 with e | _ | _ <;> rfl

/-- The card reads until there is room for a pair. -/
lemma later_room (h : SendWorkerInv written s) (hN : 2 ≤ spec.elementNum) (hpush : s.push = none) :
    ∃ t, Later s t ∧ t.push = none ∧ t.sq.RoomFor 2 := by
  obtain ⟨k, hroom⟩ := h.published.exists_room hN
  exact ⟨_, later_consume s k, hpush, hroom⟩

/-- How far the worker is from trying a chunk. -/
def rank (s : SendWorker spec) : ℕ :=
  if s.wrs.reduceOption = [] then 17 + s.wrs.length + (16 - s.retVal.length) else s.wrs.length

/-- A pop brings a batch with a chunk nearer, if there is a chunk. -/
lemma rank_collect {t : SendWorker spec} (hwrs : t.wrs = []) (hshort : t.retVal.length < 16)
    {wqe : Option WrChunk} (hwqe : wqe = none → t.localQueue ++ t.injector = [])
    (hne : (t.collect wqe).waiting ≠ []) : (t.collect wqe).rank < t.rank := by
  have hrank : t.rank = 17 + (16 - t.retVal.length) := by
    rw [rank, hwrs]
    rfl
  rw [hrank]
  rw [SendWorkerStep.waiting_collect hwrs, List.append_assoc] at hne
  simp only [collect]
  split
  · rename_i hlen
    have hchunk : (t.retVal ++ [wqe]).reduceOption ≠ [] := by
      rw [List.reduceOption_append]
      cases wqe with
      | none => simpa [hwqe rfl] using hne
      | some wr => simp [List.reduceOption]
    simp only [rank, if_neg hchunk]
    omega
  · rename_i hlen
    rw [List.length_append, List.length_singleton] at hlen
    simp only [rank, hwrs, List.reduceOption_nil, if_true, List.length_nil, List.length_append,
      List.length_singleton]
    omega

/-- The worker's next action without a chunk to try. -/
lemma work_idle (hok : SendOk s) (hpush : s.push = none) (hwrs : ∀ wr rest, s.wrs ≠ some wr :: rest)
    (hne : (s.work 0).waiting ≠ []) :
    (s.work 0).push = none ∧ (s.work 0).sq = s.sq ∧ (s.work 0).rank < s.rank := by
  have hshort := hok.short
  have hcollect : ∀ (t : SendWorker spec) (wqe : Option WrChunk),
      (t.collect wqe).push = t.push ∧ (t.collect wqe).sq = t.sq := by
    intro t wqe
    simp only [collect]
    split <;> exact ⟨rfl, rfl⟩
  rw [work, if_neg (by rw [hok.alive]; rintro ⟨⟩)] at hne ⊢
  rcases hcases : s.wrs with _ | ⟨_ | wr, rest⟩
  · simp only [hcases] at hne ⊢
    rw [pollNext] at hne ⊢
    split at hne
    · rename_i wr rest hlocal
      refine ⟨(hcollect _ _).1.trans hpush, (hcollect _ _).2, ?_⟩
      exact rank_collect (t := { s with localQueue := rest }) hcases hshort (by rintro ⟨⟩) hne
    · rename_i wr rest hlocal hinjector
      refine ⟨(hcollect _ _).1.trans hpush, (hcollect _ _).2, ?_⟩
      exact rank_collect (t := { s with injector := rest.drop 0, localQueue := rest.take 0 }) hcases
        hshort (by rintro ⟨⟩) hne
    · rename_i hlocal hinjector
      refine ⟨(hcollect _ _).1.trans hpush, (hcollect _ _).2, ?_⟩
      exact rank_collect hcases hshort (fun _ => by rw [hlocal, hinjector]; rfl) hne
  · refine ⟨hpush, rfl, ?_⟩
    simp only [rank, hcases, List.reduceOption_cons_of_none, List.length_cons]
    split <;> omega
  · exact absurd hcases (hwrs wr rest)

/-- With room for a pair the next chunk is written. -/
lemma later_written (h : SendWorkerInv written s) (hok : SendOk s) (hpush : s.push = none)
    (hroom : s.sq.RoomFor 2) (hne : s.waiting ≠ []) :
    ∃ t, Later s t ∧ t.waiting.length < s.waiting.length := by
  induction hk : s.rank using Nat.strong_induction_on generalizing s written with
  | _ k ih =>
    by_cases hwrs : ∃ wr rest, s.wrs = some wr :: rest
    · obtain ⟨wr, rest, hwrs⟩ := hwrs
      have hpost := (ProducerRing.tryPushAtomic_room SendQueueDesc.toBytes wr.descs
        (h.idle hpush) hroom).exec
      have hnormal := (hok.advance h wr).exec
      have hlater := later_push hok.alive hwrs
      have hadv : s.advance wr =
          (ProducerRing.tryPushAtomic SendQueueDesc.toBytes wr.descs, s.sq) := by
        rw [advance, hpush]
        rfl
      rw [hadv] at hlater hnormal
      refine ⟨_, hlater, ?_⟩
      rcases hr : ((ProducerRing.tryPushAtomic SendQueueDesc.toBytes wr.descs).exec s.sq).1 with
        e | _ | _
      · obtain ⟨⟨_, hr'⟩, -⟩ := hnormal
        rw [hr] at hr'
        cases hr'
      · exact absurd hr hpost
      · rw [waiting_length, waiting_length, hwrs, List.reduceOption_cons_of_some, List.length_cons]
        simp only [resume]
        omega
    · push Not at hwrs
      have hwork : Later s (s.work 0) := .single ⟨.work 0, ⟨rfl, by rintro ⟨⟩⟩, rfl⟩
      obtain ⟨written', hl⟩ := SendLater.of_later h hok hwork
      by_cases hlt : (s.work 0).waiting.length < s.waiting.length
      · exact ⟨_, hwork, hlt⟩
      · have hne' : (s.work 0).waiting ≠ [] := by
          rw [← List.length_pos_iff] at hne ⊢
          omega
        obtain ⟨hpush', hsq, hrank⟩ := work_idle hok hpush hwrs hne'
        obtain ⟨t, hlater, ht⟩ := ih _ (hk ▸ hrank) hl.inv hl.ok hpush' (hsq ▸ hroom) hne' rfl
        exact ⟨t, hwork.trans hlater, ht.trans_le hl.waiting_le⟩

/-- **Nothing is stuck**: the worker and the card can write all that is waiting. -/
lemma later_done (h : SendWorkerInv written s) (hok : SendOk s) (hN : 2 ≤ spec.elementNum) :
    ∃ t, Later s t ∧ t.waiting = [] := by
  induction hk : s.waiting.length using Nat.strong_induction_on generalizing s written with
  | _ k ih =>
    by_cases hne : s.waiting = []
    · exact ⟨s, .refl, hne⟩
    obtain ⟨t₁, h₁, hpush₁⟩ := later_idle h hok
    obtain ⟨written₁, hl₁⟩ := SendLater.of_later h hok h₁
    obtain ⟨t₂, h₂, hpush₂, hroom₂⟩ := later_room hl₁.inv hN hpush₁
    obtain ⟨written₂, hl₂⟩ := SendLater.of_later hl₁.inv hl₁.ok h₂
    have hle := hl₂.waiting_le.trans hl₁.waiting_le
    by_cases hne₂ : t₂.waiting = []
    · exact ⟨t₂, h₁.trans h₂, hne₂⟩
    obtain ⟨t₃, h₃, hlt⟩ := later_written hl₂.inv hl₂.ok hpush₂ hroom₂ hne₂
    obtain ⟨written₃, hl₃⟩ := SendLater.of_later hl₂.inv hl₂.ok h₃
    obtain ⟨t, ht, hdone⟩ := ih _ (hk ▸ hlt.trans_le hle) hl₃.inv hl₃.ok rfl
    exact ⟨t, ((h₁.trans h₂).trans h₃).trans ht, hdone⟩

end SendWorker

lemma run_ok (buffer : Fin spec.elementNum → Desc) {acts : List SendAction}
    (hacts : ∀ a ∈ acts, a ≠ .card (.access false)) : SendOk (SendWorker.run buffer acts) := by
  induction acts using List.reverseRecOn with
  | nil => exact .new buffer
  | append_singleton acts a ih =>
    obtain ⟨written, hinv, -⟩ := run_writes buffer acts
    rw [SendWorker.run_snoc]
    exact (ih fun b hb => hacts b (List.mem_append_left _ hb)).step hinv (hacts a (by simp))

/-! ## The result -/

/-- The ring has been given the descriptors of these chunks: they are what the card reads if it is
left alone. -/
def Holds (written : List WrChunk) (sq : ProducerState spec Desc) : Prop :=
  (∀ k, (CardStep.consume.run^[k] sq).consumed <+: bytesOf written) ∧
    ∃ k, (CardStep.consume.run^[k] sq).consumed = bytesOf written

lemma Published.holds {written : List WrChunk}
    (h : Published (bytesOf written) sq) : Holds written sq := by
  refine ⟨fun k => ?_, ?_⟩
  · obtain ⟨c, hc⟩ := h.iterate k
    exact hc.read
  · obtain ⟨c, hc⟩ := h
    exact ⟨_, hc.drain _ (Nat.add_sub_cancel' hc.read.length_le)⟩

lemma Holds.bytes_eq {written written' : List WrChunk}
    (h : Holds written sq) (h' : Holds written' sq) : bytesOf written = bytesOf written' := by
  obtain ⟨hpre, k, hk⟩ := h
  obtain ⟨hpre', k', hk'⟩ := h'
  have hle := hpre' k
  have hge := hpre k'
  rw [hk] at hle
  rw [hk'] at hge
  exact hle.eq_of_length (le_antisymm hle.length_le hge.length_le)

/-- **The send worker writes every chunk once**, as an adjacent pair of descriptors, or still has it
waiting; if CSR accesses succeed, all that waits can be written.  In an orderly run the chunks are
written in the order in which they were injected. -/
theorem sendWorker_writes (buffer : Fin spec.elementNum → Desc) (acts : List SendAction) :
    let s := SendWorker.run buffer acts
    ∃ written, Holds written s.sq ∧
      (written ++ s.waiting).Perm (injectedBy acts) ∧
      (OrderlyRun buffer acts → written ++ s.waiting = injectedBy acts) ∧
      (2 ≤ spec.elementNum → (∀ a ∈ acts, a ≠ .card (.access false)) →
        ∃ more, (∀ a ∈ more, a.Quiet) ∧ (SendWorker.run buffer (acts ++ more)).waiting = []) := by
  obtain ⟨written, hinv, hperm, hord⟩ := run_writes buffer acts
  refine ⟨written, hinv.published.holds, hperm, fun ho => (hord ho).2, fun hN hacts => ?_⟩
  obtain ⟨t, hlater, hdone⟩ := SendWorker.later_done hinv (run_ok buffer hacts) hN
  obtain ⟨more, hmore, rfl⟩ := hlater.exists_run
  exact ⟨more, hmore, hdone⟩

/-- A chunk with a PSN. -/
def chunkAt (psn : UInt32) : WrChunk := { (default : WrChunk) with psn := ⟨psn⟩ }

/-- Two chunks for a ring of one pair; the second finds it full, alone in its batch, and goes
back. -/
def retriedChunk : List SendAction :=
  .send (chunkAt 0) :: List.replicate 37 (.work 0) ++
    .send (chunkAt 1) :: List.replicate 20 (.work 0) ++
    .card .consume :: .card .consume :: List.replicate 39 (.work 0)

theorem sendWorker_writes_retried :
    (SendWorker.run (fun _ : Fin pairSpec.elementNum => .zeroed) (retriedChunk.take 60)).putBack =
      1 ∧
    ∃ written, Holds written
        (SendWorker.run (fun _ : Fin pairSpec.elementNum => .zeroed) retriedChunk).sq ∧
      written = [chunkAt 0, chunkAt 1] := by
  refine ⟨by decide +kernel, ?_⟩
  obtain ⟨written, hholds, -, horder, -⟩ :=
    sendWorker_writes (fun _ : Fin pairSpec.elementNum => .zeroed) retriedChunk
  have heq := horder (by decide +kernel)
  rw [show (SendWorker.run (fun _ : Fin pairSpec.elementNum => .zeroed) retriedChunk).waiting =
      [] by
    decide +kernel, List.append_nil] at heq
  exact ⟨written, hholds, heq.trans (by decide +kernel)⟩

/-! ## A run that reorders -/

namespace SendWorker

/-- A worker that is polling. -/
def atPoll (sq : ProducerState spec Desc) (putBack : ℕ) (injector localQueue : List WrChunk)
    (retVal : List (Option WrChunk)) : SendWorker spec :=
  { injector, localQueue, retVal, wrs := [], push := none, sq, panicked := false, putBack }

/-- A worker that has yet to go through `wrs`, after all chunks were polled. -/
def atProcess (sq : ProducerState spec Desc) (putBack : ℕ) (localQueue : List WrChunk)
    (wrs : List (Option WrChunk)) : SendWorker spec :=
  { injector := [], localQueue, retVal := [], wrs, push := none, sq, panicked := false, putBack }

/-- With nothing to pop, the batch is filled up. -/
lemma later_poll (sq : ProducerState spec Desc) (p : ℕ) (l : List (Option WrChunk)) {k : ℕ}
    (hk : l.length + (k + 1) = 16) :
    Later (atPoll sq p [] [] l) (atProcess sq 0 [] (l ++ List.replicate (k + 1) none)) := by
  induction k generalizing l with
  | zero =>
    refine .single ⟨.work 0, ⟨rfl, nofun⟩, ?_⟩
    simp [step, work, pollNext, collect, atPoll, atProcess, show l.length = 15 by omega]
  | succ k ih =>
    have hlen : l.length ≠ 15 := by omega
    have hstep : step (atPoll sq p [] [] l) (.work 0) = atPoll sq p [] [] (l ++ [none]) := by
      simp [step, work, pollNext, collect, atPoll, hlen]
    refine .head ⟨.work 0, ⟨rfl, nofun⟩, hstep.symm⟩ ?_
    have happend : l ++ List.replicate (k + 1 + 1) none =
        (l ++ [none]) ++ List.replicate (k + 1) none := by
      simp [List.replicate_succ]
    rw [happend]
    refine ih _ ?_
    rw [List.length_append, List.length_singleton]
    omega

/-- The empty places of a batch are passed over. -/
lemma later_skip (sq : ProducerState spec Desc) (p k : ℕ) :
    Later (atProcess sq p [] (List.replicate k none)) (atPoll sq p [] [] []) := by
  induction k with
  | zero => exact .refl
  | succ k ih =>
    refine .head ⟨.work 0, ⟨rfl, nofun⟩, ?_⟩ ih
    simp [step, work, atProcess, List.replicate_succ]

variable {sq : ProducerState spec Desc} {written : List WrChunk}

/-- The result of a push that the card does not disturb. -/
lemma exec_push (hpub : Published (bytesOf written) sq) (hok : sq.csr.ok = true) (wr : WrChunk) :
    ∃ sq', (ProducerRing.tryPushAtomic SendQueueDesc.toBytes wr.descs).exec sq =
        (.ok (decide (sq.RoomFor 2)), sq') ∧
      Published (if sq.RoomFor 2 then bytesOf (written ++ [wr]) else bytesOf written) sq' ∧
      sq'.csr.ok = true ∧ sq'.consumed = sq.consumed := by
  have hsafe := (ProducerRing.tryPushAtomic_safe SendQueueDesc.toBytes hpub wr.descs).exec
  have hconsumed := (ProducerRing.tryPushAtomic_keeps SendQueueDesc.toBytes wr.descs).exec sq
  obtain ⟨⟨b, hb⟩, hok'⟩ :=
    (ProducerRing.tryPushAtomic_normal SendQueueDesc.toBytes wr.descs hok).exec
  have hroom : b = decide (sq.RoomFor 2) := by
    by_cases hr : sq.RoomFor 2
    · have hne := (ProducerRing.tryPushAtomic_room SendQueueDesc.toBytes wr.descs hpub hr).exec
      rw [hb] at hne
      cases b with
      | false => exact absurd rfl hne
      | true => exact (decide_eq_true hr).symm
    · have hne := (ProducerRing.tryPushAtomic_full SendQueueDesc.toBytes wr.descs hpub hr).exec
      rw [hb] at hne
      cases b with
      | false => exact (decide_eq_false hr).symm
      | true => exact absurd rfl hne
  refine ⟨_, Prod.ext (hb.trans (by rw [hroom])) rfl, ?_, hok', hconsumed⟩
  rw [hb, hroom, ← bytesOf_snoc] at hsafe
  simpa using hsafe

/-- The first chunk of a batch is tried while the card does nothing. -/
lemma later_tried (hpub : Published (bytesOf written) sq) (hok : sq.csr.ok = true) (p : ℕ)
    (localQueue : List WrChunk) (wr : WrChunk) (rest : List (Option WrChunk)) :
    ∃ sq', Later (atProcess sq p localQueue (some wr :: rest))
        (if sq.RoomFor 2 then atProcess sq' p localQueue rest
          else atProcess sq' (p + 1) (localQueue ++ [wr]) rest) ∧
      Published (if sq.RoomFor 2 then bytesOf (written ++ [wr]) else bytesOf written) sq' ∧
      sq'.csr.ok = true ∧ sq'.consumed = sq.consumed := by
  obtain ⟨sq', hexec, hpub', hok', hconsumed⟩ := exec_push hpub hok wr
  refine ⟨sq', ?_, hpub', hok', hconsumed⟩
  have hpush : Later (atProcess sq p localQueue (some wr :: rest)) _ := later_push rfl rfl
  rw [show (atProcess sq p localQueue (some wr :: rest)).advance wr =
    (ProducerRing.tryPushAtomic SendQueueDesc.toBytes wr.descs, sq) from rfl, hexec] at hpush
  by_cases hroom : sq.RoomFor 2
  · rw [decide_eq_true hroom] at hpush
    rw [if_pos hroom]
    exact hpush
  · rw [decide_eq_false hroom] at hpush
    rw [if_neg hroom]
    exact hpush

/-- A chunk is written while the card does nothing. -/
lemma later_fill (hpub : Published (bytesOf written) sq) (hok : sq.csr.ok = true)
    (hroom : sq.RoomFor 2) (wr : WrChunk) (p : ℕ) :
    ∃ sq', Later (atPoll sq p [wr] [] []) (atPoll sq' 0 [] [] []) ∧
      Published (bytesOf (written ++ [wr])) sq' ∧ sq'.csr.ok = true ∧
      sq'.consumed = sq.consumed := by
  obtain ⟨sq', hpush, hpub', hok', hconsumed⟩ :=
    later_tried hpub hok 0 [] wr (List.replicate 15 none)
  rw [if_pos hroom] at hpub' hpush
  refine ⟨sq', ?_, hpub', hok', hconsumed⟩
  have hpoll :
    Later (atPoll sq p [wr] [] []) (atProcess sq 0 [] (some wr :: List.replicate 15 none)) :=
    .head ⟨.work 0, ⟨rfl, by rintro ⟨⟩⟩, rfl⟩ (later_poll sq p [some wr] rfl)
  exact (hpoll.trans hpush).trans (later_skip sq' 0 15)

end SendWorker

/-- Actions that the card does not spoil, and the state they lead to. -/
def Leads (buffer : Fin spec.elementNum → Desc) (injected : List WrChunk)
    (s : SendWorker spec) : Prop :=
  ∃ acts, (∀ a ∈ acts, a ≠ .card (.access false)) ∧ injectedBy acts = injected ∧
    SendWorker.run buffer acts = s

namespace Leads

variable {buffer : Fin spec.elementNum → Desc} {injected : List WrChunk} {s t : SendWorker spec}

lemma send (h : Leads buffer injected s) (wr : WrChunk) :
    Leads buffer (injected ++ [wr]) (s.step (.send wr)) := by
  obtain ⟨acts, hacts, rfl, rfl⟩ := h
  refine ⟨acts ++ [.send wr], ?_, injectedBy_snoc _ _, SendWorker.run_snoc _ _ _⟩
  intro a ha
  rcases List.mem_append.mp ha with ha | ha
  · exact hacts a ha
  · rw [List.mem_singleton.mp ha]
    exact nofun

lemma later (h : Leads buffer injected s) (hlater : SendWorker.Later s t) :
    Leads buffer injected t := by
  obtain ⟨acts, hacts, rfl, rfl⟩ := h
  obtain ⟨more, hmore, rfl⟩ := hlater.exists_run
  refine ⟨acts ++ more, ?_, ?_, rfl⟩
  · intro a ha
    rcases List.mem_append.mp ha with ha | ha
    · exact hacts a ha
    · exact (hmore a ha).2
  · have hnone : injectedBy more = [] := List.flatMap_eq_nil_iff.mpr fun a ha => (hmore a ha).1
    rw [injectedBy, List.flatMap_append, ← injectedBy, ← injectedBy, hnone, List.append_nil]

/-- The ring is filled with `k` chunks while the card does nothing. -/
lemma fill (buffer : Fin spec.elementNum → Desc) (wr : WrChunk) {k : ℕ}
    (hk : 2 * k ≤ spec.elementNum) :
    ∃ sq p, Leads buffer (List.replicate k wr) (.atPoll sq p [] [] []) ∧
      Published (bytesOf (List.replicate k wr)) sq ∧ sq.csr.ok = true ∧ sq.consumed = [] := by
  induction k with
  | zero => exact ⟨.new buffer, 0, ⟨[], by simp, rfl, rfl⟩, ⟨0, .new buffer⟩, rfl, rfl⟩
  | succ k ih =>
    obtain ⟨sq, p, hlead, hpub, hok, hconsumed⟩ := ih (by omega)
    have hroom : sq.RoomFor 2 := by
      obtain ⟨c, hc⟩ := hpub
      rw [hc.roomFor_iff, length_bytesOf, List.length_replicate]
      omega
    obtain ⟨sq', hlater, hpub', hok', hconsumed'⟩ := SendWorker.later_fill hpub hok hroom wr p
    rw [List.replicate_succ']
    exact ⟨sq', 0, (hlead.send wr).later hlater, hpub', hok', hconsumed'.trans hconsumed⟩

end Leads

/-- **A full ring reorders.**  The ring is full when two chunks are polled in one batch.  The first
does not fit and goes to the back of the local deque; the card reads, and the second fits. -/
theorem sendWorker_reorders : ∃ acts : List SendAction,
    (∀ a ∈ acts, a ≠ .card (.access false)) ∧
    ∀ written, Holds written
      (SendWorker.run (fun _ : Fin sendRingSpec.elementNum => .zeroed) acts).sq →
      ¬ written <+: injectedBy acts := by
  have hN : sendRingSpec.elementNum = 4096 := rfl
  obtain ⟨sq, p, hlead, hpub, hok, hconsumed⟩ :=
    Leads.fill (fun _ : Fin sendRingSpec.elementNum => Desc.zeroed) (chunkAt 0) (k := 2048)
      (by omega)
  have hfull : ¬ sq.RoomFor 2 := by
    obtain ⟨c, hc⟩ := hpub
    rw [hc.roomFor_iff, length_bytesOf, List.length_replicate, hconsumed, hN]
    decide
  have hpoll : SendWorker.Later (.atPoll sq p [chunkAt 1, chunkAt 2] [] [])
      (.atProcess sq 0 [] (some (chunkAt 1) :: some (chunkAt 2) :: List.replicate 14 none)) :=
    .head ⟨.work 1, ⟨rfl, nofun⟩, rfl⟩ (.head ⟨.work 0, ⟨rfl, nofun⟩, rfl⟩
      (SendWorker.later_poll sq p [some (chunkAt 1), some (chunkAt 2)] rfl))
  obtain ⟨sq₁, hlater₁, hpub₁, hok₁, -⟩ := SendWorker.later_tried hpub hok 0 [] (chunkAt 1)
    (some (chunkAt 2) :: List.replicate 14 none)
  rw [if_neg hfull] at hlater₁ hpub₁
  obtain ⟨k, hroom⟩ := hpub₁.exists_room (by omega)
  have hread := SendWorker.later_consume
    (.atProcess sq₁ 1 [chunkAt 1] (some (chunkAt 2) :: List.replicate 14 none)) k
  obtain ⟨sq₂, hlater₂, hpub₂, -⟩ := SendWorker.later_tried (hpub₁.iterate k)
    ((iterate_ok sq₁ k).trans hok₁) 1 [chunkAt 1] (chunkAt 2) (List.replicate 14 none)
  rw [if_pos hroom] at hlater₂ hpub₂
  obtain ⟨acts, hacts, hinjected, hrun⟩ := ((hlead.send (chunkAt 1)).send (chunkAt 2)).later
    (((hpoll.trans hlater₁).trans hread).trans hlater₂)
  refine ⟨acts, hacts, fun written hholds hpre => ?_⟩
  rw [hrun] at hholds
  rw [hinjected] at hpre
  have hprefix : bytesOf written <+:
      bytesOf (List.replicate 2048 (chunkAt 0) ++ [chunkAt 1] ++ [chunkAt 2]) := by
    obtain ⟨rest, hrest⟩ := hpre
    rw [← hrest, bytesOf, bytesOf, List.flatMap_append]
    exact List.prefix_append _ _
  rw [hholds.bytes_eq hpub₂.holds, bytesOf_snoc, bytesOf_snoc, bytesOf_snoc, List.append_assoc,
    List.prefix_append_right_inj] at hprefix
  exact absurd hprefix (by decide)

end OpenRdma
