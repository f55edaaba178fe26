import OpenRdma.Verbs.Matching

/-!
# Interleaved matching

Nothing keeps two threads from looking at the same head of the pending requests; both then remove a
request, and the second one removes another request than the one it looked at, or none.  As long as
no thread looks at the queue while another one is in the middle of a turn, the requests go out in
the order in which they were posted, each with the receive that is its due.

* **`matching_in_order`** — for runs in which turns do not overlap; `matching_overlap` shows what
  happens when they do.
-/

namespace OpenRdma

open Function (update update_self update_of_ne)

/-! ## Statement -/

/-- The thread is in the middle of a turn. -/
def MatchSystem.Mid (s : MatchSystem) (t : MatchThread) : Prop :=
  ∃ pc, s.threads t = .busy pc ∧ pc ≠ .peek

/-- No thread starts a turn, with a request to look at, while another one is in the middle of
one. -/
def MatchSystem.Exclusive (s : MatchSystem) (a : MatchAction) : Prop :=
  ∀ t, a = .run t → s.threads t = .busy .peek → s.queues.pending ≠ [] → ∀ t', t' ≠ t → ¬ s.Mid t'

/-- No thread takes a receive for a SEND of another length. -/
def MatchSystem.SameLength (s : MatchSystem) (a : MatchAction) : Prop :=
  ∀ t wr recv, a = .run t → s.threads t = .busy .takeRecv →
    s.queues.pending.head? = some (.send wr) → s.queues.recvs.head? = some recv →
    wr.length = recv.length

/-- Every action of a run satisfies `P` in the state it is taken in. -/
def MatchSystem.AllSteps (qpn : UInt32) (P : MatchSystem → MatchAction → Prop)
    (actions : List MatchAction) : Prop :=
  ∀ done a rest, actions = done ++ a :: rest → P (start.run qpn done) a

/-- The task is the one that the request and the receive call for. -/
def Matched.Valid (m : Matched) : Prop :=
  m.wr.needsRecvWr = m.recv.isSome ∧
    match m.wr, m.recv with
    | .rdma wr, _ => m.task = wr
    | .send wr, some recv => wr.length = recv.length ∧ m.task = .newFromBase wr recv.addr recv.lkey
    | .send _, none => False

/-! ## The invariant -/

namespace MatchPc

/-- The request that a thread holds. -/
@[simp] def send : MatchPc → Option SendWr
  | putBackSend wr _ => some (.send wr)
  | handOver m => some m.wr
  | _ => none

/-- The receive that a thread holds. -/
@[simp] def recv : MatchPc → Option RecvWr
  | takeSend recv => recv
  | putBackSend _ recv | putBackRecv _ recv => some recv
  | handOver m => m.recv
  | _ => none

/-- What a thread has seen of the pending requests is still so. -/
def Consistent (pc : MatchPc) (pending : List SendWr) : Prop :=
  match pc with
  | takeRecv => ∃ wr rest, pending = wr :: rest ∧ wr.needsRecvWr = true
  | takeSend recv => ∃ wr rest, pending = wr :: rest ∧ wr.needsRecvWr = recv.isSome
  | handOver m => m.Valid
  | _ => True

lemma Consistent.append {pc : MatchPc} {pending : List SendWr} (h : pc.Consistent pending)
    (wr : SendWr) : pc.Consistent (pending ++ [wr]) := by
  cases pc with
  | takeRecv | takeSend recv =>
    obtain ⟨w, rest, rfl, hw⟩ := h
    exact ⟨w, rest ++ [wr], rfl, hw⟩
  | handOver m => exact h
  | peek | putBackSend _ _ | putBackRecv _ _ => trivial

end MatchPc

/-- At most one thread, standing at `pc`, is in the middle of a turn. -/
def MatchSystem.Only (s : MatchSystem) (pc : MatchPc) : Prop :=
  (pc = .peek ∧ ∀ t, ¬ s.Mid t) ∨
    (pc ≠ .peek ∧ ∃ t, s.threads t = .busy pc ∧ ∀ t', t' ≠ t → ¬ s.Mid t')

/-- What was posted and what arrived was handed over, is held, or is queued, in this order. -/
structure MatchAccounts (s : MatchSystem) (pc : MatchPc) : Prop where
  valid : ∀ m ∈ s.handed, m.Valid
  consistent : pc.Consistent s.queues.pending
  posted : s.posted = s.handed.map Matched.wr ++ pc.send.toList ++ s.queues.pending
  arrived : s.arrived = s.handed.filterMap Matched.recv ++ pc.recv.toList ++ s.queues.recvs

/-- The thread puts back what it has taken. -/
def MatchPc.PutsBack : MatchPc → Prop
  | putBackSend _ _ | putBackRecv _ _ => True
  | _ => False

/-- A receive was taken for a request of its length. -/
def MatchPc.Agrees (pc : MatchPc) (pending : List SendWr) : Prop :=
  match pc with
  | takeSend (some recv) => ∀ wr, pending.head? = some (.send wr) → wr.length = recv.length
  | putBackSend _ _ | putBackRecv _ _ => False
  | _ => True

/-- **The invariant of matching**; `L` says that the lengths agree throughout. -/
structure MatchInv (qpn : UInt32) (L : Prop) (s : MatchSystem) : Prop where
  accounts : ∃ pc, s.Only pc ∧ MatchAccounts s pc ∧ (L → pc.Agrees s.queues.pending)
  dead : ∀ t msg, s.threads t = .dead msg →
    ¬ L ∧ ∃ i e, t = .receiver i ∧ msg = MatchSystem.recvWorkerPanic qpn e

/-! ## One step -/

/-- Where a thread that is not in the loop would start. -/
@[simp] def MatchNext.pc : MatchNext → MatchPc
  | goto pc => pc
  | _ => .peek

@[simp] def ThreadState.pc : ThreadState → MatchPc
  | busy pc => pc
  | _ => .peek

lemma afterwards_pc (qpn : UInt32) (t : MatchThread) (next : MatchNext) :
    (MatchSystem.afterwards qpn t next).pc = next.pc := by
  cases next with
  | goto pc => rfl
  | panic msg => rfl
  | done ret => cases ret <;> cases t <;> rfl

namespace MatchSystem

variable {s s' : MatchSystem} {t : MatchThread} {st : ThreadState}

lemma mid_iff : s.Mid t ↔ (s.threads t).pc ≠ .peek := by
  unfold Mid
  cases s.threads t with
  | idle => simp [ThreadState.pc]
  | dead msg => simp [ThreadState.pc]
  | busy pc => simp [ThreadState.pc]

/-- A thread that alone may be in the middle of a turn moves on. -/
lemma only_update (h : ∀ t', t' ≠ t → ¬ s.Mid t')
    (hthreads : s'.threads = update s.threads t st) : s'.Only st.pc := by
  have hother : ∀ t', t' ≠ t → ¬ s'.Mid t' := by
    intro t' hne
    rw [mid_iff, hthreads, update_of_ne hne, ← mid_iff]
    exact h t' hne
  by_cases hpc : st.pc = .peek
  · refine .inl ⟨hpc, fun t' => ?_⟩
    by_cases hne : t' = t
    · rw [mid_iff, hthreads, hne, update_self]
      exact not_not.mpr hpc
    · exact hother t' hne
  · refine .inr ⟨hpc, t, ?_, hother⟩
    rw [hthreads, update_self]
    cases st with
    | idle => exact absurd rfl hpc
    | dead msg => exact absurd rfl hpc
    | busy pc => rfl

/-- A thread enters or leaves the loop. -/
lemma Only.between {pc : MatchPc} (h : s.Only pc) (hpeek : (s.threads t).pc = .peek)
    (hthreads : s'.threads = update s.threads t st) (hst : st.pc = .peek) : s'.Only pc := by
  have hmid : ∀ t', s'.Mid t' ↔ s.Mid t' := by
    intro t'
    rw [mid_iff, mid_iff, hthreads]
    by_cases hne : t' = t
    · rw [hne, update_self, hpeek, hst]
    · rw [update_of_ne hne]
  rcases h with ⟨hpc, hnone⟩ | ⟨hpc, t', ht', hother⟩
  · exact .inl ⟨hpc, fun t' => (hmid t').not.mpr (hnone t')⟩
  · refine .inr ⟨hpc, t', ?_, fun t'' hne => (hmid t'').not.mpr (hother t'' hne)⟩
    have hne : t' ≠ t := fun he => by
      rw [← he, ht'] at hpeek
      exact hpc hpeek
    rw [hthreads, update_of_ne hne, ht']

/-- The thread that makes a step is the one in the middle of a turn, or there is none. -/
lemma Only.pc_eq {pc pc' : MatchPc} (h : s.Only pc) (ht : s.threads t = .busy pc')
    (hexcl : pc' = .peek → ∀ t', t' ≠ t → ¬ s.Mid t') : pc = pc' ∧ ∀ t', t' ≠ t → ¬ s.Mid t' := by
  by_cases hpeek : pc' = .peek
  · refine ⟨?_, hexcl hpeek⟩
    rcases h with ⟨hpc, -⟩ | ⟨hpc, t', ht', -⟩
    · rw [hpc, hpeek]
    · have hne : t' ≠ t := fun he => by
        rw [he, ht] at ht'
        injection ht' with heq
        exact hpc (heq ▸ hpeek)
      exact absurd ⟨pc, ht', hpc⟩ (hexcl hpeek t' hne)
  · have hmid : s.Mid t := ⟨pc', ht, hpeek⟩
    rcases h with ⟨-, hnone⟩ | ⟨-, t', ht', hother⟩
    · exact absurd hmid (hnone t)
    · obtain rfl : t = t' := by
        by_contra hne
        exact hother t hne hmid
      rw [ht] at ht'
      injection ht' with heq
      exact ⟨heq.symm, hother⟩

end MatchSystem

variable {qpn : UInt32}

/-- **One access keeps the accounts** and does not panic. -/
lemma MatchAccounts.step {s : MatchSystem} {pc : MatchPc} (h : MatchAccounts s pc)
    {next : MatchNext} {q : MatchQueues} {m : Option Matched}
    (hstep : pc.step qpn s.queues = (next, q, m)) (threads : MatchThread → ThreadState)
    (returned : List (Except RdmaError Unit)) :
    (∀ msg, next ≠ .panic msg) ∧
    MatchAccounts ⟨q, threads, s.handed ++ m.toList, s.posted, s.arrived, returned⟩ next.pc := by
  obtain ⟨⟨pending, recvs⟩, ths, handed, posted, arrived, rets⟩ := s
  obtain ⟨hvalid, hcons, hposted, harrived⟩ := h
  simp only at hvalid hcons hposted harrived hstep
  cases pc with
  | peek =>
    cases pending with
    | nil =>
      cases hstep
      exact ⟨by simp, by simpa using hvalid, trivial, by simpa using hposted,
        by simpa using harrived⟩
    | cons wr pending =>
      cases hwr : wr.needsRecvWr with
      | true =>
        simp only [MatchPc.step, hwr, if_true] at hstep
        cases hstep
        exact ⟨by simp, by simpa using hvalid, ⟨wr, pending, rfl, hwr⟩, by simpa using hposted,
          by simpa using harrived⟩
      | false =>
        simp only [MatchPc.step, hwr] at hstep
        cases hstep
        exact ⟨by simp, by simpa using hvalid, ⟨wr, pending, rfl, hwr⟩, by simpa using hposted,
          by simpa using harrived⟩
  | takeRecv =>
    obtain ⟨wr, rest, rfl, hwr⟩ := hcons
    cases recvs with
    | nil =>
      cases hstep
      exact ⟨by simp, by simpa using hvalid, trivial, by simpa using hposted,
        by simpa using harrived⟩
    | cons recv recvs =>
      cases hstep
      exact ⟨by simp, by simpa using hvalid, ⟨wr, rest, rfl, hwr⟩, by simpa using hposted,
        by simpa using harrived⟩
  | takeSend recv =>
    obtain ⟨wr, rest, rfl, hwr⟩ := hcons
    simp only [MatchPc.step, Prod.mk.injEq] at hstep
    obtain ⟨rfl, rfl, rfl⟩ := hstep
    cases wr with
    | rdma wr =>
      cases recv with
      | none =>
        exact ⟨by simp [matchTaken], by simpa using hvalid, ⟨hwr, rfl⟩,
          by simpa [matchTaken] using hposted, by simpa [matchTaken] using harrived⟩
      | some recv =>
        have hop : wr.opcode = .rdmaWriteWithImm := by
          simpa [SendWr.needsRecvWr] using hwr
        simp only [matchTaken, if_pos hop]
        exact ⟨by simp, by simpa using hvalid, ⟨hwr, rfl⟩, by simpa using hposted,
          by simpa using harrived⟩
    | send wr =>
      cases recv with
      | none => exact absurd hwr (by simp [SendWr.needsRecvWr])
      | some recv =>
        by_cases hlen : wr.length = recv.length
        · simp only [matchTaken, if_neg (not_not.mpr hlen)]
          exact ⟨by simp, by simpa using hvalid, ⟨hwr, hlen, rfl⟩, by simpa using hposted,
            by simpa using harrived⟩
        · simp only [matchTaken, if_pos hlen]
          exact ⟨by simp, by simpa using hvalid, trivial, by simpa using hposted,
            by simpa using harrived⟩
  | putBackSend wr recv | putBackRecv wr recv =>
    cases hstep
    exact ⟨by simp, by simpa using hvalid, trivial, by simpa using hposted, by simpa using harrived⟩
  | handOver m =>
    cases hstep
    refine ⟨by simp, fun m' hm' => ?_, trivial, by simpa using hposted, ?_⟩
    · rcases List.mem_append.mp hm' with hm' | hm'
      · exact hvalid m' hm'
      · rw [List.mem_singleton.mp hm']
        exact hcons
    · rw [harrived]
      cases hrecv : m.recv <;> simp [List.filterMap_append, hrecv]

/-- A thread of a connection dies of an error only. -/
lemma afterwards_eq_dead {t : MatchThread} {next : MatchNext} {msg : String}
    (hpanic : ∀ msg, next ≠ .panic msg) (h : MatchSystem.afterwards qpn t next = .dead msg) :
    (∃ e, next = .done (.error e)) ∧
      ∃ i e, t = .receiver i ∧ msg = MatchSystem.recvWorkerPanic qpn e := by
  cases next with
  | goto pc => exact absurd h (by simp [MatchSystem.afterwards])
  | panic msg => exact absurd rfl (hpanic msg)
  | done ret =>
    cases ret with
    | ok u => cases t <;> exact absurd h (by simp [MatchSystem.afterwards])
    | error e =>
      cases t with
      | sender => exact absurd h (by simp [MatchSystem.afterwards])
      | receiver i =>
        injection h with hmsg
        exact ⟨⟨e, rfl⟩, i, e, rfl, hmsg.symm⟩

/-- Where lengths agree, nothing is put back; and they agree further on if the next receive fits. -/
lemma MatchPc.Agrees.step {pc : MatchPc} {q q' : MatchQueues} (h : pc.Agrees q.pending)
    {next : MatchNext} {m : Option Matched} (hstep : pc.step qpn q = (next, q', m)) :
    (∀ e, next ≠ .done (.error e)) ∧ ¬ next.pc.PutsBack ∧
    ((pc = .takeRecv → ∀ wr recv, q.pending.head? = some (.send wr) →
      q.recvs.head? = some recv → wr.length = recv.length) → next.pc.Agrees q'.pending) := by
  obtain ⟨pending, recvs⟩ := q
  cases pc with
  | peek =>
    cases pending with
    | nil => cases hstep; exact ⟨by simp, id, fun _ => trivial⟩
    | cons wr pending =>
      cases hwr : wr.needsRecvWr <;> simp only [MatchPc.step, hwr] at hstep <;> cases hstep <;>
        exact ⟨by simp, id, fun _ => trivial⟩
  | takeRecv =>
    cases recvs with
    | nil => cases hstep; exact ⟨by simp, id, fun _ => trivial⟩
    | cons recv recvs =>
      cases hstep
      exact ⟨by simp, id, fun hsame wr hwr => hsame rfl wr recv hwr rfl⟩
  | takeSend recv =>
    cases pending with
    | nil => cases hstep; exact ⟨by simp, id, fun _ => trivial⟩
    | cons wr pending =>
      simp only [MatchPc.step, Prod.mk.injEq] at hstep
      obtain ⟨rfl, rfl, rfl⟩ := hstep
      cases wr with
      | rdma wr =>
        cases recv with
        | none => exact ⟨by simp [matchTaken], id, fun _ => trivial⟩
        | some recv =>
          simp only [matchTaken]
          split <;> exact ⟨by simp, id, fun _ => trivial⟩
      | send wr =>
        cases recv with
        | none => exact ⟨by simp [matchTaken], id, fun _ => trivial⟩
        | some recv =>
          have hlen : wr.length = recv.length := h wr rfl
          simp only [matchTaken, if_neg (not_not.mpr hlen)]
          exact ⟨by simp, id, fun _ => trivial⟩
  | putBackSend wr recv => exact absurd h id
  | putBackRecv wr recv => exact absurd h id
  | handOver m => cases hstep; exact ⟨by simp, id, fun _ => trivial⟩

/-- A request posted meanwhile does not matter. -/
lemma MatchPc.Agrees.append {pc : MatchPc} {pending : List SendWr} (h : pc.Agrees pending)
    (hcons : pc.Consistent pending) (wr : SendWr) : pc.Agrees (pending ++ [wr]) := by
  cases pc with
  | takeSend recv =>
    obtain ⟨w, rest, rfl, -⟩ := hcons
    cases recv with
    | none => trivial
    | some recv => exact h
  | putBackSend w recv => exact h
  | putBackRecv w recv => exact h
  | peek | takeRecv | handOver _ => trivial

/-- **One step of the interleaved threads.** -/
theorem MatchInv.step {L : Prop} {s : MatchSystem} (h : MatchInv qpn L s) {a : MatchAction}
    (hexcl : s.Exclusive a) (hsame : L → s.SameLength a) : MatchInv qpn L (s.step qpn a) := by
  obtain ⟨pc, honly, hacc, hagree⟩ := h.accounts
  -- a thread that enters or leaves the loop is not dead
  have hdead : ∀ t st threads', threads' = update s.threads t st →
      (∀ msg, st ≠ .dead msg) → ∀ t' msg, threads' t' = .dead msg →
        ¬ L ∧ ∃ i e, t' = .receiver i ∧ msg = MatchSystem.recvWorkerPanic qpn e := by
    rintro t st _ rfl hst t' msg hd
    by_cases hne : t' = t
    · rw [hne, update_self] at hd
      exact absurd hd (hst msg)
    · rw [update_of_ne hne] at hd
      exact h.dead t' msg hd
  cases a with
  | post wr =>
    simp only [MatchSystem.step]
    split
    · next hidle =>
        split
        · refine ⟨⟨pc, honly.between (by rw [hidle]; rfl) rfl rfl,
            ⟨hacc.valid, hacc.consistent.append wr, ?_, hacc.arrived⟩,
            fun hL => (hagree hL).append hacc.consistent wr⟩, hdead _ _ _ rfl (by simp)⟩
          simp only [hacc.posted, List.append_assoc]
        · exact ⟨⟨pc, honly, ⟨hacc.valid, hacc.consistent, hacc.posted, hacc.arrived⟩, hagree⟩,
            h.dead⟩
    · exact h
  | arrive i recv =>
    simp only [MatchSystem.step]
    split
    · next hidle =>
        refine ⟨⟨pc, honly.between (by rw [hidle]; rfl) rfl rfl,
          ⟨hacc.valid, hacc.consistent, hacc.posted, ?_⟩, hagree⟩, hdead _ _ _ rfl (by simp)⟩
        simp only [hacc.arrived, List.append_assoc]
    · exact h
  | run t =>
    cases ht : s.threads t with
    | idle => simpa only [MatchSystem.step, MatchSystem.runThread, ht] using h
    | dead msg => simpa only [MatchSystem.step, MatchSystem.runThread, ht] using h
    | busy pc' =>
      by_cases hempty : pc' = .peek ∧ s.queues.pending = []
      · -- there is nothing to look at: the thread leaves the loop
        obtain ⟨rfl, hnil⟩ := hempty
        have hstep : MatchPc.peek.step qpn s.queues = (.done (.ok ()), s.queues, none) := by
          rw [MatchPc.step, hnil]
        simp only [MatchSystem.step, MatchSystem.runThread, ht, hstep, Option.toList_none,
          List.append_nil]
        exact ⟨⟨pc, honly.between (by rw [ht]; rfl) rfl (afterwards_pc ..),
          ⟨hacc.valid, hacc.consistent, hacc.posted, hacc.arrived⟩, hagree⟩,
          hdead _ _ _ rfl (by cases t <;> simp [MatchSystem.afterwards])⟩
      obtain ⟨rfl, hother⟩ := honly.pc_eq ht fun hpeek =>
        hexcl t rfl (by rw [ht, hpeek]) fun hnil => hempty ⟨hpeek, hnil⟩
      rcases hstep : pc.step qpn s.queues with ⟨next, q, m⟩
      simp only [MatchSystem.step, MatchSystem.runThread, ht, hstep]
      obtain ⟨hpanic, hacc'⟩ := hacc.step hstep
        (update s.threads t (MatchSystem.afterwards qpn t next))
        (s.returned ++ (MatchSystem.result t next).toList)
      have hag := fun hL => (hagree hL).step hstep
      refine ⟨⟨next.pc, ?_, hacc', fun hL => (hag hL).2.2 fun hpc wr recv =>
        hsame hL t wr recv rfl (by rw [ht, hpc])⟩, fun t' msg hd => ?_⟩
      · rw [← afterwards_pc qpn t next]
        exact MatchSystem.only_update hother rfl
      · simp only at hd
        by_cases hne : t' = t
        · rw [hne, update_self] at hd
          obtain ⟨⟨e, he⟩, hi⟩ := afterwards_eq_dead hpanic hd
          exact ⟨fun hL => (hag hL).1 e he, hne ▸ hi⟩
        · rw [update_of_ne hne] at hd
          exact h.dead t' msg hd

variable {actions : List MatchAction}

lemma MatchSystem.AllSteps.of_append {P : MatchSystem → MatchAction → Prop}
    {a : MatchAction} (h : AllSteps qpn P (actions ++ [a])) :
    AllSteps qpn P actions ∧ P (start.run qpn actions) a := by
  refine ⟨fun done b rest heq => h done b (rest ++ [a]) ?_, h actions a [] rfl⟩
  rw [heq, List.append_assoc]
  rfl

lemma MatchSystem.allSteps_of_getElem? {P : MatchSystem → MatchAction → Prop}
    (h : ∀ k a, actions[k]? = some a → P (start.run qpn (actions.take k)) a) :
    AllSteps qpn P actions := by
  rintro done a rest rfl
  have hk := h done.length a (by simp)
  rwa [List.take_left] at hk

/-- **Every run in which turns do not overlap.** -/
theorem run_matchInv {L : Prop} (hexcl : MatchSystem.AllSteps qpn MatchSystem.Exclusive actions)
    (hsame : L → MatchSystem.AllSteps qpn MatchSystem.SameLength actions) :
    MatchInv qpn L (MatchSystem.start.run qpn actions) := by
  induction actions using List.reverseRecOn with
  | nil =>
    refine ⟨⟨.peek, .inl ⟨rfl, fun t => ?_⟩, ⟨by simp [MatchSystem.run, MatchSystem.start], trivial,
      rfl, rfl⟩, fun _ => trivial⟩,
      fun t msg hd => absurd hd (by simp [MatchSystem.run, MatchSystem.start])⟩
    rw [MatchSystem.mid_iff]
    exact not_not.mpr rfl
  | append_singleton actions a ih =>
    rw [MatchSystem.run_append]
    exact (ih hexcl.of_append.1 fun hL => (hsame hL).of_append.1).step hexcl.of_append.2
      fun hL => (hsame hL).of_append.2

/-- The receives used up, in order, are those of the requests that need one. -/
lemma recvs_of_needs {handed : List Matched} (h : ∀ m ∈ handed, m.Valid) :
    (handed.filter fun m => m.wr.needsRecvWr).map Matched.recv
      = (handed.filterMap Matched.recv).map some := by
  induction handed with
  | nil => rfl
  | cons m handed ih =>
    have hm := (h m List.mem_cons_self).1
    have ih := ih fun m' hm' => h m' (List.mem_cons_of_mem m hm')
    cases hrecv : m.recv with
    | none =>
      rw [hrecv] at hm
      rw [List.filter_cons_of_neg (by simp [hm]), List.filterMap_cons_none hrecv, ih]
    | some recv =>
      rw [hrecv] at hm
      rw [List.filter_cons_of_pos (by simp [hm]), List.filterMap_cons_some hrecv, List.map_cons,
        List.map_cons, ih, hrecv]

/-- **Matching in order.**  In every run of any number of threads in which no thread starts a turn
while another one is in the middle of one: no thread dies of an `unwrap`, an assertion or
unreachable code, and none at all if receives have the lengths of the SENDs they are taken for; the
requests are handed over in the order in which they were posted; the `j`-th one that needs a receive
has the `j`-th receive that arrived; and every receive that arrived was used, is held by a thread,
or is queued. -/
theorem matching_in_order (qpn : UInt32) (actions : List MatchAction)
    (hexcl : MatchSystem.AllSteps qpn MatchSystem.Exclusive actions) :
    let s := MatchSystem.start.run qpn actions
    (∀ t msg, s.threads t = .dead msg →
      ∃ i e, t = .receiver i ∧ msg = MatchSystem.recvWorkerPanic qpn e) ∧
    (MatchSystem.AllSteps qpn MatchSystem.SameLength actions → ∀ t msg, s.threads t ≠ .dead msg) ∧
    s.handed.map Matched.wr <+: s.posted ∧
    (∀ m ∈ s.handed, m.Valid) ∧
    (∀ (j : ℕ) (m : Matched), (s.handed.filter fun m => m.wr.needsRecvWr)[j]? = some m →
      m.recv.isSome ∧ m.recv = s.arrived[j]?) ∧
    ∃ held : Option RecvWr,
      s.arrived = s.handed.filterMap Matched.recv ++ held.toList ++ s.queues.recvs ∧
      ∀ recv ∈ held, ∃ t pc, s.threads t = .busy pc ∧ pc.recv = some recv := by
  intro s
  have hinv : MatchInv qpn (MatchSystem.AllSteps qpn MatchSystem.SameLength actions) s :=
    run_matchInv hexcl id
  obtain ⟨pc, honly, hacc, -⟩ := hinv.accounts
  refine ⟨fun t msg hd => (hinv.dead t msg hd).2, fun hL t msg hd => (hinv.dead t msg hd).1 hL, ?_,
    hacc.valid, fun j m hj => ?_, pc.recv, hacc.arrived, fun recv hrecv => ?_⟩
  · rw [hacc.posted, List.append_assoc]
    exact List.prefix_append _ _
  · have hmap : ((s.handed.filterMap Matched.recv).map some)[j]? = some m.recv := by
      rw [← recvs_of_needs hacc.valid, List.getElem?_map, hj]
      rfl
    rw [List.getElem?_map] at hmap
    obtain ⟨recv, hget, hsome⟩ := Option.map_eq_some_iff.mp hmap
    rw [← hsome]
    refine ⟨rfl, ?_⟩
    rw [hacc.arrived, List.append_assoc,
      List.getElem?_append_left (List.getElem?_eq_some_iff.mp hget).1, hget]
  · rcases honly with ⟨rfl, -⟩ | ⟨-, t, ht, -⟩
    · exact absurd hrecv (by simp)
    · exact ⟨t, pc, ht, hrecv⟩

/-- A SEND is posted and finds no receive; one arrives and is matched with it. -/
theorem matching_in_order_once :
    let wr : SendWrBase := ⟨7, 0, 0, 64, 0, 0, .send⟩
    let recv : RecvWr := ⟨9, 0x1000, 64, 3⟩
    let s := MatchSystem.start.run 0x100
      [.post (.send wr), .run .sender, .run .sender, .arrive 0 recv, .run (.receiver 0),
        .run (.receiver 0), .run (.receiver 0), .run (.receiver 0)]
    s.handed.map Matched.task = [⟨wr, 0x1000, 3⟩] ∧ s.handed.map Matched.wr <+: s.posted ∧
      ∀ t msg, s.threads t ≠ .dead msg := by
  intro wr recv s
  have hexcl : MatchSystem.AllSteps 0x100 MatchSystem.Exclusive
      [.post (.send wr), .run .sender, .run .sender, .arrive 0 recv, .run (.receiver 0),
        .run (.receiver 0), .run (.receiver 0), .run (.receiver 0)] := by
    refine MatchSystem.allSteps_of_getElem? fun k a hk t ha hpeek _ t' hne => ?_
    rw [MatchSystem.mid_iff, not_not]
    have hlt : k < 8 := (List.getElem?_eq_some_iff.mp hk).1
    rcases t' with _ | _ | i <;> interval_cases k <;> cases hk <;> cases ha <;>
      first | rfl | exact absurd rfl hne
  have hsame : MatchSystem.AllSteps 0x100 MatchSystem.SameLength
      [.post (.send wr), .run .sender, .run .sender, .arrive 0 recv, .run (.receiver 0),
        .run (.receiver 0), .run (.receiver 0), .run (.receiver 0)] := by
    refine MatchSystem.allSteps_of_getElem? fun k a hk t w r ha htake hw hr => ?_
    have hlt : k < 8 := (List.getElem?_eq_some_iff.mp hk).1
    interval_cases k <;> cases hk <;> cases ha <;> cases hw <;> cases hr <;> rfl
  obtain ⟨-, hdead, hprefix, -⟩ := matching_in_order 0x100 _ hexcl
  exact ⟨by decide, hprefix, hdead hsame⟩

/-- **Overlapping turns.**  First, the sender and a connection look at the same write; the sender
removes it, and the connection's `unwrap` finds the queue empty.  Second, the sender and a
connection look at the same SEND, each with a receive of its own: the second request goes out before
the first one, with the first receive. -/
theorem matching_overlap :
    let write : SendWr := .rdma ⟨⟨7, 0, 0, 64, 0, 0, .rdmaWrite⟩, 0, 0⟩
    let first : SendWr := .send ⟨1, 0, 0, 64, 0, 0, .send⟩
    let second : SendWr := .send ⟨2, 0, 0, 64, 0, 0, .send⟩
    let recv₁ : RecvWr := ⟨9, 0x1000, 64, 3⟩
    let recv₂ : RecvWr := ⟨10, 0x2000, 64, 3⟩
    let s := MatchSystem.start.run 0x100
      [.post write, .run .sender, .arrive 0 recv₁, .run (.receiver 0), .run .sender,
        .run (.receiver 0)]
    let s' := MatchSystem.start.run 0x100
      [.post first, .run .sender, .run .sender, .arrive 0 recv₁, .run (.receiver 0),
        .run (.receiver 0), .post second, .run .sender, .arrive 1 recv₂, .run .sender, .run .sender,
        .run (.receiver 0), .run (.receiver 0), .run .sender]
    s.threads (.receiver 0) = .dead "called `Option::unwrap()` on a `None` value" ∧
    s'.posted = [first, second] ∧ s'.arrived = [recv₁, recv₂] ∧
    s'.handed.map (fun m => (m.wr, m.recv)) = [(second, some recv₁), (first, some recv₂)] := by
  decide

end OpenRdma
