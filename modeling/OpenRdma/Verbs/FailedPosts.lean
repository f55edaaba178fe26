import OpenRdma.Verbs.Ctx
import OpenRdma.Verbs.MatchingRuns

/-!
# Failed posts

`post_send` queues its request before it matches, and returns an error of the matching as its own.
So there are two kinds of failed calls.  One whose request finds the queue full has done nothing.
One whose matching meets a SEND and a receive of different lengths has queued its request, which
stays posted and goes out later, with the receives that the other threads take in.

* **`post_send_error_refused`** — in every interleaving, a call that fails without such a step was
  refused, and the run is the one without the call; a request that was queued stays posted.
-/

namespace OpenRdma

namespace MatchSystem

variable {qpn : UInt32} {s : MatchSystem} {k : ℕ} {before : List MatchAction} {wr : SendWr}

/-! ## What the steps keep -/

lemma run_append_list (qpn : UInt32) (s : MatchSystem) (as bs : List MatchAction) :
    s.run qpn (as ++ bs) = (s.run qpn as).run qpn bs := List.foldl_append

/-- What every step only adds to, a run only adds to. -/
lemma prefix_run {α : Type} {f : MatchSystem → List α} (h : ∀ s a, f s <+: f (step qpn s a))
    (s : MatchSystem) (actions : List MatchAction) : f s <+: f (s.run qpn actions) := by
  induction actions using List.reverseRecOn with
  | nil => exact List.prefix_rfl
  | append_singleton actions a ih =>
    rw [run_append]
    exact ih.trans (h _ a)

/-- A step takes nothing back that was posted or returned. -/
lemma grows_step (s : MatchSystem) (a : MatchAction) :
    s.posted <+: (s.step qpn a).posted ∧ s.returned <+: (s.step qpn a).returned := by
  cases a with
  | post wr =>
    simp only [step]
    split_ifs <;> simp
  | arrive i recv =>
    simp only [step]
    split_ifs <;> simp
  | run t =>
    simp only [step, runThread]
    split <;> simp

/-- No step depends on what was returned. -/
lemma step_with_returned (s : MatchSystem) (returned : List (Except RdmaError Unit))
    (a : MatchAction) : ∃ returned',
      step qpn { s with returned := returned } a = { s.step qpn a with returned := returned' } := by
  cases a with
  | post wr =>
    simp only [step]
    split_ifs <;> exact ⟨_, rfl⟩
  | arrive i recv =>
    simp only [step]
    split_ifs <;> exact ⟨_, rfl⟩
  | run t =>
    simp only [step, runThread]
    cases s.threads t <;> exact ⟨_, rfl⟩

lemma run_with_returned (s : MatchSystem) (returned : List (Except RdmaError Unit))
    (actions : List MatchAction) : ∃ returned',
      run qpn { s with returned := returned } actions
        = { s.run qpn actions with returned := returned' } := by
  induction actions using List.reverseRecOn with
  | nil => exact ⟨returned, rfl⟩
  | append_singleton actions a ih =>
    obtain ⟨returned', ih⟩ := ih
    rw [run_append, run_append, ih]
    exact step_with_returned _ returned' a

/-! ## One call -/

/-- The sender takes a SEND with a receive of another length. -/
def Mismatch (s : MatchSystem) (a : MatchAction) : Prop :=
  a = .run .sender ∧ ∃ wr recv, s.threads .sender = .busy (.takeSend (some recv)) ∧
    s.queues.pending.head? = some (.send wr) ∧ wr.length ≠ recv.length

/-- The call of `post_send` that follows the actions `before` meets no mismatch until it returns. -/
def CallFits (qpn : UInt32) (before : List MatchAction) (wr : SendWr)
    (rest : List MatchAction) : Prop :=
  ∀ done a more, rest = done ++ a :: more →
    (start.run qpn (before ++ .post wr :: done)).returned.length
      = (start.run qpn before).returned.length →
    ¬ (start.run qpn (before ++ .post wr :: done)).Mismatch a

/-- Call number `k` goes on without having met a mismatch, or has returned without an error. -/
def Calling (s : MatchSystem) (k : ℕ) : Prop :=
  (s.returned.length = k ∧ s.threads .sender ≠ .idle ∧ ¬ (s.threads .sender).pc.PutsBack) ∨
    s.returned[k]? = some (.ok ())

/-- One step of the sender. -/
lemma Calling.run_sender (hk : s.returned.length = k) (hbusy : s.threads .sender ≠ .idle)
    (hpc : ¬ (s.threads .sender).pc.PutsBack) (hfits : ¬ s.Mismatch (.run .sender)) :
    (s.runThread qpn .sender).Calling k := by
  cases ht : s.threads .sender with
  | idle => exact absurd ht hbusy
  | dead msg =>
    simp only [runThread, ht]
    exact .inl ⟨hk, hbusy, hpc⟩
  | busy pc =>
    rw [ht] at hpc
    have hagrees : pc.Agrees s.queues.pending := by
      cases pc with
      | takeSend recv =>
        cases recv with
        | none => trivial
        | some recv =>
          intro wr hwr
          by_contra hne
          exact hfits ⟨rfl, wr, recv, ht, hwr, hne⟩
      | putBackSend wr recv => exact absurd trivial hpc
      | putBackRecv wr recv => exact absurd trivial hpc
      | peek | takeRecv | handOver _ => trivial
    rcases hstep : pc.step qpn s.queues with ⟨next, q, m⟩
    obtain ⟨herr, hback, -⟩ := hagrees.step hstep
    simp only [runThread, ht, hstep]
    cases next with
    | goto pc' =>
      refine .inl ⟨by simpa [result] using hk, ?_, ?_⟩
      · simp [afterwards]
      · simpa [afterwards] using hback
    | panic msg =>
      refine .inl ⟨by simpa [result] using hk, ?_, ?_⟩
      · simp [afterwards]
      · simp [afterwards, MatchPc.PutsBack]
    | done ret =>
      cases ret with
      | error e => exact absurd rfl (herr e)
      | ok u =>
        right
        simp [result, ← hk]

/-- A call without a mismatch, one step further. -/
lemma Calling.step (h : s.Calling k) {a : MatchAction}
    (hfits : s.returned.length = k → ¬ s.Mismatch a) : (s.step qpn a).Calling k := by
  rcases h with ⟨hk, hbusy, hpc⟩ | hok
  · cases a with
    | post wr =>
      rw [MatchSystem.step, if_neg hbusy]
      exact .inl ⟨hk, hbusy, hpc⟩
    | arrive i recv =>
      rw [MatchSystem.step]
      split_ifs
      · exact .inl ⟨hk, hbusy, hpc⟩
      · exact .inl ⟨hk, hbusy, hpc⟩
    | run t =>
      cases t with
      | sender => exact .run_sender hk hbusy hpc (hfits hk)
      | receiver i =>
        -- another thread neither moves the sender nor returns for it
        rw [MatchSystem.step, runThread]
        split
        · refine .inl ⟨?_, hbusy, hpc⟩
          simpa [result] using hk
        · exact .inl ⟨hk, hbusy, hpc⟩
  · have hgrows : s.returned <+: (s.step qpn a).returned := (grows_step s a).2
    obtain ⟨added, hadded⟩ := hgrows
    refine .inr ?_
    rw [← hadded, List.getElem?_append_left (List.getElem?_eq_some_iff.mp hok).1, hok]

/-- A request that is queued goes through a call. -/
lemma calling_run (hidle : (start.run qpn before).threads .sender = .idle)
    (hroom : (start.run qpn before).queues.pending.length < pendingSendQueueCapacity)
    {rest : List MatchAction} (hfits : CallFits qpn before wr rest) :
    (start.run qpn (before ++ .post wr :: rest)).Calling
      (start.run qpn before).returned.length := by
  induction rest using List.reverseRecOn with
  | nil =>
    rw [run_append, MatchSystem.step, if_pos hidle, if_pos hroom]
    exact .inl ⟨rfl, by simp, by simp [MatchPc.PutsBack]⟩
  | append_singleton rest a ih =>
    rw [← List.cons_append, ← List.append_assoc, run_append]
    refine (ih fun done b more heq => hfits done b (more ++ [a]) ?_).step (hfits rest a [] rfl)
    rw [heq, List.append_assoc, List.cons_append]

/-- A request that finds the queue full leaves the run as it is without the call. -/
lemma run_of_refused (hidle : (start.run qpn before).threads .sender = .idle)
    (hfull : pendingSendQueueCapacity ≤ (start.run qpn before).queues.pending.length)
    (later : List MatchAction) :
    ∃ returned, start.run qpn (before ++ .post wr :: later)
      = { start.run qpn (before ++ later) with returned := returned } := by
  rw [run_append_list, run_append_list]
  show ∃ returned, run qpn (step qpn _ (.post wr)) later = _
  rw [step, if_pos hidle, if_neg (Nat.not_lt.mpr hfull)]
  exact run_with_returned _ _ later

end MatchSystem

namespace HwDeviceCtx

/-- The request is not even queued: the queue pair is unknown, or its queue is full. -/
def Refuses (ctx : HwDeviceCtx) (qpn : UInt32) : Prop :=
  ∀ pending recvs, ctx.pendingSendQueueTable.getQp qpn = some pending →
    ctx.recvWrQueueTable.getQp qpn = some recvs → pendingSendQueueCapacity ≤ pending.length

lemma postSend_of_refuses {ctx : HwDeviceCtx} {qpn : UInt32} (h : ctx.Refuses qpn) (wr : SendWr) :
    ctx.postSend qpn wr = ⟨ctx, [], .error (.error (pendingSendQueueFull qpn))⟩ := by
  unfold postSend
  split
  · next pending recvs hp hr => rw [if_neg (Nat.not_lt.mpr (h pending recvs hp hr))]
  · rfl

end HwDeviceCtx

/-- **A failed `post_send` has posted nothing, unless it met a length mismatch.**  Take any run of
the sender and of any number of connection threads, interleaved in any way, and a call of
`post_send` in it.  If the call returns an error and the sender has not, in the course of the call,
taken a SEND with a receive of another length, then the request was refused because the queue was
full, and whatever happens later happens as it does without the call: the request is in no queue and
is never handed over.  If there was room, the request stays posted whatever the call returns: in
runs in which turns do not overlap it has its place among the requests handed over, held and
pending.  An unknown queue pair or a full queue leaves the context as it was. -/
theorem post_send_error_refused (qpn : UInt32) (before : List MatchAction) (wr : SendWr)
    (hidle : (MatchSystem.start.run qpn before).threads .sender = .idle) :
    let s := MatchSystem.start.run qpn before
    (∀ rest e, MatchSystem.CallFits qpn before wr rest →
      (MatchSystem.start.run qpn (before ++ .post wr :: rest)).returned[s.returned.length]?
        = some (.error e) →
      pendingSendQueueCapacity ≤ s.queues.pending.length ∧ e = pendingSendQueueFull qpn ∧
      ∀ later, ∃ returned, MatchSystem.start.run qpn (before ++ .post wr :: later)
        = { MatchSystem.start.run qpn (before ++ later) with returned := returned }) ∧
    (s.queues.pending.length < pendingSendQueueCapacity → ∀ rest,
      MatchSystem.AllSteps qpn MatchSystem.Exclusive (before ++ .post wr :: rest) →
      let s' := MatchSystem.start.run qpn (before ++ .post wr :: rest)
      ∃ (held : Option SendWr) (later : List SendWr),
        s'.handed.map Matched.wr ++ held.toList ++ s'.queues.pending = s.posted ++ wr :: later) ∧
    ∀ ctx : HwDeviceCtx, ctx.Refuses qpn →
      ctx.postSend qpn wr = ⟨ctx, [], .error (.error (pendingSendQueueFull qpn))⟩ := by
  intro s
  refine ⟨fun rest e hfits hret => ?_, fun hroom rest hexcl => ?_,
    fun ctx h => HwDeviceCtx.postSend_of_refuses h wr⟩
  · by_cases hroom : s.queues.pending.length < pendingSendQueueCapacity
    · rcases MatchSystem.calling_run hidle hroom hfits with ⟨hk, -⟩ | hok
      · rw [List.getElem?_eq_none hk.le] at hret
        cases hret
      · rw [hok] at hret
        cases hret
    · have hfull := Nat.not_lt.mp hroom
      refine ⟨hfull, ?_, MatchSystem.run_of_refused hidle hfull⟩
      have hpre : s.returned ++ [.error (pendingSendQueueFull qpn)]
          <+: (MatchSystem.start.run qpn (before ++ .post wr :: rest)).returned := by
        rw [MatchSystem.run_append_list]
        refine .trans ?_ (MatchSystem.prefix_run (fun s a => (s.grows_step a).2)
          (s.step qpn (.post wr)) rest)
        rw [MatchSystem.step, if_pos hidle, if_neg hroom]
      obtain ⟨added, hadded⟩ := hpre
      rw [← hadded, List.append_assoc, List.getElem?_append_right le_rfl, Nat.sub_self] at hret
      injection hret with hret
      injection hret with hret
      exact hret.symm
  · obtain ⟨pc, -, hacc, -⟩ := (run_matchInv (L := False) hexcl False.elim).accounts
    have hpre : s.posted ++ [wr]
        <+: (MatchSystem.start.run qpn (before ++ .post wr :: rest)).posted := by
      rw [MatchSystem.run_append_list]
      refine .trans ?_ (MatchSystem.prefix_run (fun s a => (s.grows_step a).1)
        (s.step qpn (.post wr)) rest)
      rw [MatchSystem.step, if_pos hidle, if_pos hroom]
    obtain ⟨later, hlater⟩ := hpre
    exact ⟨pc.send, later, by rw [← hacc.posted, ← hlater, List.append_assoc]; rfl⟩

/-- With 128 requests waiting for a receive, one more is refused; a receive that arrives then is not
for it. -/
theorem post_send_error_refused_full :
    let send : SendWr := .send ⟨1, 0, 0, 64, 0, 0, .send⟩
    let recv : RecvWr := ⟨9, 0x1000, 64, 3⟩
    let before := (List.replicate 128 [MatchAction.post send, .run .sender, .run .sender]).flatten
    pendingSendQueueCapacity ≤ (MatchSystem.start.run 0x100 before).queues.pending.length ∧
    ∃ returned, MatchSystem.start.run 0x100 (before ++ [.post send, .arrive 0 recv])
      = { MatchSystem.start.run 0x100 (before ++ [.arrive 0 recv]) with returned := returned } := by
  intro send recv before
  obtain ⟨hrefused, -⟩ := post_send_error_refused 0x100 before send (by decide +kernel)
  have hcall : MatchSystem.CallFits 0x100 before send [] := fun done a more h => by simp at h
  have hret : (MatchSystem.start.run 0x100 (before ++ [.post send])).returned[128]?
      = some (.error (pendingSendQueueFull 0x100)) := by decide +kernel
  have hcount : (MatchSystem.start.run 0x100 before).returned.length = 128 := by decide +kernel
  obtain ⟨hfull, -, hlater⟩ := hrefused [] _ hcall (by rw [hcount]; exact hret)
  exact ⟨hfull, hlater _⟩

/-- **Failed posts that stay posted.**  A receive of 32 bytes has arrived, and a SEND of 64 bytes is
posted: the call fails, and the SEND stays in the queue; a WRITE posted after it fails because of
the SEND, and stays as well.  With another thread in between, the SEND is even sent after its
`post_send` has failed: while the sender is putting back what it has taken, a receive of 64 bytes
arrives. -/
theorem post_send_error_stays :
    let send : SendWrBase := ⟨1, 0, 0, 64, 0, 0, .send⟩
    let write : SendWr := .rdma ⟨⟨2, 0, 0, 64, 0, 0, .rdmaWrite⟩, 0, 0⟩
    let short : RecvWr := ⟨9, 0x1000, 32, 3⟩
    let long : RecvWr := ⟨10, 0x2000, 64, 3⟩
    let ctx := { HwDeviceCtx.init 1 with recvWrQueueTable := .newWith [short] }
    let first := ctx.postSend 0x100 (.send send)
    let second := first.ctx.postSend 0x100 write
    let s := MatchSystem.start.run 0x100
      [.post (.send send), .run .sender, .arrive 0 short, .run .sender, .run .sender, .run .sender,
        .arrive 1 long, .run (.receiver 1), .run (.receiver 1), .run (.receiver 1)]
    (first.ret.isOk = false ∧
      first.ctx.pendingSendQueueTable.getQp 0x100 = some [.send send]) ∧
    (second.ret.isOk = false ∧
      second.ctx.pendingSendQueueTable.getQp 0x100 = some [.send send, write]) ∧
    s.threads .sender = .busy (.putBackRecv send short) ∧
    (s.run 0x100 [.run .sender]).threads .sender = .idle ∧
    (s.run 0x100 [.run .sender]).returned.map Except.isOk = [false] ∧
    (s.run 0x100 [.run .sender]).handed = [] ∧
    (s.run 0x100 [.run .sender, .run (.receiver 1)]).handed.map Matched.wr = [.send send] := by
  intro send write short long ctx first second s
  refine ⟨⟨?_, ?_⟩, ⟨?_, ?_⟩, ?_, ?_, ?_, ?_, ?_⟩ <;> decide +kernel

end OpenRdma
