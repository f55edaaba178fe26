import OpenRdma.Workers.QpTimeout

/-!
# When the retransmission timer runs

The timer of a queue pair should run exactly while requests of it wait for their acknowledgement.
It is started with every request and stopped with the last acknowledgement; but it is also restarted
with every report of the hardware about the queue pair, whether anything is outstanding or not.

* **`timer_runs_iff`** — `TimerRuns` holds throughout a run exactly if no report comes in for a
  queue pair with nothing outstanding and no count wraps.
-/

namespace OpenRdma

/-! ## Entries of tables -/

namespace QpTable

variable {α : Type} (t : QpTable α) (q : UInt32)

lemma getQp_eq_some {a : α} : t.getQp q = some a ↔ ∃ i, qpnToIndex q = i.val ∧ t.inner i = a := by
  unfold getQp
  split
  · next h =>
      rw [Option.some.injEq]
      refine ⟨fun ha => ⟨⟨_, h⟩, rfl, ha⟩, ?_⟩
      rintro ⟨i, hi, rfl⟩
      exact congrArg t.inner (Fin.ext hi)
  · next h =>
      refine iff_of_false (by simp) ?_
      rintro ⟨i, hi, -⟩
      exact h (hi ▸ i.isLt)

lemma inner_setQp (a : α) (i : Fin maxQpCnt) :
    (t.setQp q a).inner i = if qpnToIndex q = i.val then a else t.inner i := by
  unfold setQp
  split
  · simp [Function.update_apply, Fin.ext_iff, eq_comm]
  · next h => rw [if_neg fun hi : qpnToIndex q = i.val => h (hi ▸ i.isLt)]

lemma inner_mapQpMut (f : α → α) (i : Fin maxQpCnt) :
    (t.mapQpMut q f).inner i = if qpnToIndex q = i.val then f (t.inner i) else t.inner i := by
  unfold mapQpMut
  cases h : t.getQp q with
  | none =>
    have hne : qpnToIndex q ≠ i.val := fun hi => by
      have := (t.getQp_eq_some q).mpr ⟨i, hi, rfl⟩
      exact absurd (h.symm.trans this) (by simp)
    rw [if_neg hne]
  | some a =>
    obtain ⟨j, hj, rfl⟩ := (t.getQp_eq_some q).mp h
    rw [inner_setQp]
    by_cases hi : qpnToIndex q = i.val
    · rw [if_pos hi, if_pos hi, Fin.ext (hj.symm.trans hi)]
    · rw [if_neg hi, if_neg hi]

end QpTable

/-! ## Runs -/

/-- A task or a poll of the timers. -/
inductive AckTimeoutStep where
  | process (now : ℕ) (task : AckTimeoutTask)
  | maintainance (now : ℕ)
deriving DecidableEq, Repr

namespace QpAckTimeoutWorker

def step (build : Build) (w : QpAckTimeoutWorker) : AckTimeoutStep → QpAckTimeoutWorker
  | .process now task => w.process build now task
  | .maintainance now => (w.maintainance now).1

/-- The worker after some tasks and rounds of maintenance, at any times. -/
def run (build : Build) (config : AckTimeoutConfig)
    (steps : List AckTimeoutStep) : QpAckTimeoutWorker :=
  steps.foldl (step build) (new config)

lemma run_append (build : Build) (config : AckTimeoutConfig) (steps : List AckTimeoutStep)
    (s : AckTimeoutStep) :
    run build config (steps ++ [s]) = (run build config steps).step build s := by
  simp [run, List.foldl_append]

end QpAckTimeoutWorker

/-- `is_running`. -/
def TransportTimer.isRunning (t : TransportTimer) : Bool := t.lastStart.isSome

/-- A timer that does not run does not expire, and looking at a timer neither starts nor stops
it. -/
lemma TransportTimer.checkTimeout_running (t : TransportTimer) (now : ℕ) :
    (t.checkTimeout now).2.isRunning = t.isRunning ∧
    ((t.checkTimeout now).1 ≠ .ok → t.isRunning = true) := by
  unfold checkTimeout isRunning
  split
  · next start hstart =>
      split
      · exact ⟨rfl, fun h => absurd rfl h⟩
      · split <;> simp [hstart, reset]
  · exact ⟨rfl, fun h => absurd rfl h⟩

namespace QpAckTimeoutWorker

/-- **The timers that run** are those of the queue pairs with outstanding requests. -/
def TimerRuns (w : QpAckTimeoutWorker) : Prop :=
  ∀ i, (w.timerTable.inner i).isRunning = true ↔ 0 < w.outstandingAckReqCnt.inner i

/-- Only queue pairs with outstanding requests are retransmitted, or run out of retries. -/
structure Quiet (w : QpAckTimeoutWorker) (now : ℕ) : Prop where
  retransmits : ∀ o ∈ (w.maintainance now).2, ∃ qpn c, o = .retransmit (.retransmitAll qpn) ∧
    w.outstandingAckReqCnt.getQp qpn = some c ∧ 0 < c
  retries : ∀ i, ((w.timerTable.inner i).checkTimeout now).1 = .retryLimitExceeded →
    0 < w.outstandingAckReqCnt.inner i
  panics : (w.maintainance now).1.panicked.isSome → w.panicked.isSome ∨
    ∃ i, (w.timerTable.inner i).isRunning = true ∧ 0 < w.outstandingAckReqCnt.inner i

/-- **Checking timers**: none starts or stops, and only those that run expire. -/
lemma checkTimers_running (now : ℕ) (indices : List (Fin maxQpCnt))
    (table : QpTable TransportTimer) :
    (∀ i, ((checkTimers now indices table).state.inner i).isRunning = (table.inner i).isRunning) ∧
    (∀ x ∈ (checkTimers now indices table).items, ∃ i : Fin maxQpCnt,
      x = .retransmitAll (UInt32.ofNat i <<< qpnKeyPartWidth) ∧ (table.inner i).isRunning = true) ∧
    ((checkTimers now indices table).crashed.isSome →
      ∃ i, (table.inner i).isRunning = true) := by
  induction indices generalizing table with
  | nil => exact ⟨fun i => rfl, nofun, nofun⟩
  | cons index rest ih =>
    obtain ⟨hsame, hruns⟩ := (table.inner index).checkTimeout_running now
    rw [checkTimers]
    rcases hcheck : (table.inner index).checkTimeout now with ⟨result, timer⟩
    rw [hcheck] at hsame hruns
    cases result with
    | ok => exact ih table
    | retryLimitExceeded => exact ⟨fun i => rfl, nofun, fun _ => ⟨index, hruns (by simp)⟩⟩
    | timeout =>
      -- the expired timer is reset, and runs on
      have hupdate : ∀ i, ((⟨Function.update table.inner index timer⟩ :
          QpTable TransportTimer).inner i).isRunning = (table.inner i).isRunning := fun i => by
        by_cases hi : i = index
        · subst hi
          simpa using hsame
        · simp [hi]
      obtain ⟨h1, h2, h3⟩ := ih ⟨Function.update table.inner index timer⟩
      refine ⟨fun i => (h1 i).trans (hupdate i), fun x hx => ?_, fun hc => ?_⟩
      · rcases List.mem_cons.mp hx with rfl | hx
        · exact ⟨index, rfl, hruns (by simp)⟩
        · obtain ⟨i, rfl, hi⟩ := h2 x hx
          exact ⟨i, rfl, (hupdate i).symm.trans hi⟩
      · obtain ⟨i, hi⟩ := h3 hc
        exact ⟨i, (hupdate i).symm.trans hi⟩

lemma qpnToIndex_shift (i : Fin maxQpCnt) :
    qpnToIndex (UInt32.ofNat i <<< qpnKeyPartWidth) = i.val := by
  revert i
  decide

variable {w : QpAckTimeoutWorker}

lemma TimerRuns.quiet (h : w.TimerRuns) (now : ℕ) : w.Quiet now := by
  obtain ⟨-, hitems, hcrash⟩ := checkTimers_running now (List.finRange maxQpCnt) w.timerTable
  refine ⟨fun o ho => ?_, fun i hi => ?_, fun hp => ?_⟩
  · unfold maintainance at ho
    split at ho
    · exact absurd ho List.not_mem_nil
    · obtain ⟨x, hx, rfl⟩ := List.mem_map.mp ho
      obtain ⟨i, rfl, hruns⟩ := hitems x hx
      exact ⟨_, _, rfl, (QpTable.getQp_eq_some _ _).mpr ⟨i, qpnToIndex_shift i, rfl⟩,
        (h i).mp hruns⟩
  · exact (h i).mp (((w.timerTable.inner i).checkTimeout_running now).2 (by rw [hi]; simp))
  · unfold maintainance at hp
    split at hp
    · next hdead => exact .inl hdead
    · obtain ⟨i, hi⟩ := hcrash hp
      exact .inr ⟨i, hi, (h i).mp hi⟩

/-! ## One step -/

/-- The step brings no report about a queue pair with nothing outstanding. -/
def MetaOutstanding (w : QpAckTimeoutWorker) (s : AckTimeoutStep) : Prop :=
  ∀ now q c, s = .process now (.recvMeta q) → w.panicked = none →
    w.outstandingAckReqCnt.getQp q = some c → 0 < c

/-- No count wraps with the step: an acknowledgement is one of an outstanding request, unless the
build checks, and the number of requests stays in the range of the count. -/
def CntFits (build : Build) (w : QpAckTimeoutWorker) (s : AckTimeoutStep) : Prop :=
  ∀ now q c, w.panicked = none → w.outstandingAckReqCnt.getQp q = some c →
    (s = .process now (.ack q) → build.sub c 1 ≠ none → 0 < c) ∧
    (s = .process now (.newAckReq q) → build.add c 1 ≠ some 0)

/-- A build that checks lets no count wrap. -/
lemma cntFits_of_checks {build : Build} (h : build.overflowChecks = true) (w : QpAckTimeoutWorker)
    (s : AckTimeoutStep) : CntFits build w s := by
  refine fun now q c _ _ => ⟨fun _ hsub => ?_, fun _ hadd => ?_⟩
  · by_contra hc
    exact hsub (by rw [Build.sub, if_neg (by omega), if_pos h])
  · rw [Build.add] at hadd
    split at hadd
    · exact absurd (Option.some.inj hadd) (Nat.succ_ne_zero c)
    · cases hadd

lemma updateCnt_of_some {q : UInt32} {f : ℕ → Option ℕ} {msg : String}
    {timer : ℕ → TransportTimer → TransportTimer} {i : Fin maxQpCnt} {y : ℕ}
    (hi : qpnToIndex q = i.val) (hy : f (w.outstandingAckReqCnt.inner i) = some y) :
    (w.updateCnt q f msg timer).timerTable.inner i = timer y (w.timerTable.inner i) ∧
    (w.updateCnt q f msg timer).outstandingAckReqCnt.inner i = y := by
  have hq := (w.outstandingAckReqCnt.getQp_eq_some q).mpr ⟨i, hi, rfl⟩
  simp only [updateCnt, hq, hy]
  rw [QpTable.inner_mapQpMut, QpTable.inner_setQp, if_pos hi, if_pos hi]
  exact ⟨rfl, rfl⟩

/-- A count and its timer change together. -/
lemma TimerRuns.updateCnt (h : w.TimerRuns) {q : UInt32} {f : ℕ → Option ℕ}
    {timer : ℕ → TransportTimer → TransportTimer} (msg : String)
    (hf : ∀ x y t, w.outstandingAckReqCnt.getQp q = some x → f x = some y →
      (t.isRunning = true ↔ 0 < x) → ((timer y t).isRunning = true ↔ 0 < y)) :
    (w.updateCnt q f msg timer).TimerRuns := by
  unfold QpAckTimeoutWorker.updateCnt
  split
  · exact h
  · next x hx =>
      split
      · exact h
      · next y hy =>
          obtain ⟨j, hj, rfl⟩ := (QpTable.getQp_eq_some _ _).mp hx
          intro i
          rw [QpTable.inner_mapQpMut, QpTable.inner_setQp]
          by_cases hi : qpnToIndex q = i.val
          · obtain rfl : i = j := Fin.ext (hi.symm.trans hj)
            rw [if_pos hi, if_pos hi]
            exact hf _ y _ hx hy (h i)
          · rw [if_neg hi, if_neg hi]
            exact h i

lemma TimerRuns.maintainance (h : w.TimerRuns) (now : ℕ) : (w.maintainance now).1.TimerRuns := by
  unfold QpAckTimeoutWorker.maintainance
  split
  · exact h
  · intro i
    exact (by rw [(checkTimers_running now (List.finRange maxQpCnt) w.timerTable).1 i] :
      _ ↔ (w.timerTable.inner i).isRunning = true).trans (h i)

/-- **One step.** -/
theorem TimerRuns.step {build : Build} (h : w.TimerRuns) {s : AckTimeoutStep}
    (hmeta : w.MetaOutstanding s) (hcnt : CntFits build w s) : (w.step build s).TimerRuns := by
  cases s with
  | maintainance now => exact h.maintainance now
  | process now task =>
    simp only [QpAckTimeoutWorker.step, process]
    split
    · exact h
    · next halive =>
        have halive : w.panicked = none := by simpa using halive
        cases task with
        | newAckReq q =>
          refine h.updateCnt _ fun x y t hx hy _ => ?_
          have hy' := (hcnt now q x halive hx).2 rfl
          rw [hy] at hy'
          exact iff_of_true rfl (Nat.pos_of_ne_zero fun hzero => hy' (by rw [hzero]))
        | ack q =>
          refine h.updateCnt _ fun x y t hx hy ht => ?_
          have hpos : 1 ≤ x := (hcnt now q x halive hx).1 rfl (by rw [hy]; simp)
          rw [Build.sub, if_pos hpos, Option.some.injEq] at hy
          split
          · next hzero => exact iff_of_false (by simp [TransportTimer.isRunning,
              TransportTimer.stop]) (by omega)
          · rw [ht]
            omega
        | recvMeta q =>
          intro i
          rw [QpTable.inner_mapQpMut]
          by_cases hi : qpnToIndex q = i.val
          · -- the timer ran before the restart
            have hpos := hmeta now q _ rfl halive
              ((QpTable.getQp_eq_some _ _).mpr ⟨i, hi, rfl⟩)
            simpa [hi, TransportTimer.isRunning, TransportTimer.restart] using hpos
          · rw [if_neg hi]
            exact h i

/-- A count that wraps leaves its timer in the wrong state. -/
lemma TimerRuns.cntFits {build : Build} (h : w.TimerRuns)
    {s : AckTimeoutStep} (hstep : (w.step build s).TimerRuns) : CntFits build w s := by
  intro now q c halive hc
  obtain ⟨i, hi, rfl⟩ := (QpTable.getQp_eq_some _ _).mp hc
  have halive : ¬ w.panicked.isSome := by simp [halive]
  refine ⟨?_, ?_⟩
  · rintro rfl hsub
    by_contra hzero
    obtain ⟨y, hy⟩ := Option.ne_none_iff_exists'.mp hsub
    have hle : ¬ 1 ≤ w.outstandingAckReqCnt.inner i := by omega
    -- the count wraps to the top, and the timer stays off
    have htop : y ≠ 0 := by
      rw [Build.sub, if_neg hle] at hy
      split at hy
      · cases hy
      · have := Option.some.inj hy
        omega
    simp only [QpAckTimeoutWorker.step, process, if_neg halive] at hstep
    have hi' := hstep i
    rw [(updateCnt_of_some hi hy).1, (updateCnt_of_some hi hy).2, if_neg htop, h i] at hi'
    omega
  · rintro rfl hadd
    -- the count wraps to zero, and the timer is on
    simp only [QpAckTimeoutWorker.step, process, if_neg halive] at hstep
    have hi' := hstep i
    rw [(updateCnt_of_some hi hadd).1, (updateCnt_of_some hi hadd).2] at hi'
    exact absurd (hi'.mp rfl) (Nat.lt_irrefl 0)

/-- A report starts the timer. -/
lemma isRunning_recvMeta (build : Build) (halive : w.panicked = none)
    (now : ℕ) {q : UInt32} {i : Fin maxQpCnt} (hi : qpnToIndex q = i.val) :
    ((w.step build (.process now (.recvMeta q))).timerTable.inner i).isRunning = true ∧
    (w.step build (.process now (.recvMeta q))).outstandingAckReqCnt = w.outstandingAckReqCnt := by
  simp only [QpAckTimeoutWorker.step, process, halive, Option.isSome_none, Bool.false_eq_true,
    if_false, QpTable.inner_mapQpMut, if_pos hi]
  exact ⟨rfl, trivial⟩

end QpAckTimeoutWorker

open QpAckTimeoutWorker in
/-- **The timer runs for outstanding requests only.**  In a run of any tasks and rounds of
maintenance at any times, the running timers are always those of the queue pairs with outstanding
requests, exactly if no report comes in for a queue pair that has none and no count wraps, which a
build that checks for overflow excludes; and whenever they are, no queue pair with nothing
outstanding is retransmitted or runs out of retries. -/
theorem timer_runs_iff (build : Build) (config : AckTimeoutConfig) (steps : List AckTimeoutStep) :
    ((∀ done rest, steps = done ++ rest → (run build config done).TimerRuns) ↔
      ∀ done s rest, steps = done ++ s :: rest →
        (run build config done).MetaOutstanding s ∧ CntFits build (run build config done) s) ∧
    (build.overflowChecks = true → ∀ w s, CntFits build w s) ∧
    ∀ done rest, steps = done ++ rest → (run build config done).TimerRuns →
      ∀ now, (run build config done).Quiet now := by
  refine ⟨⟨?_, ?_⟩, fun h => cntFits_of_checks h, fun done rest _ h now => h.quiet now⟩
  · intro hruns done s rest hsteps
    have hafter := hruns (done ++ [s]) rest (by simpa using hsteps)
    rw [run_append] at hafter
    refine ⟨?_, (hruns done (s :: rest) hsteps).cntFits hafter⟩
    rintro now q c rfl halive hc
    obtain ⟨i, hi, rfl⟩ := (QpTable.getQp_eq_some _ _).mp hc
    obtain ⟨hrunning, hcount⟩ := isRunning_recvMeta build halive now hi
    rw [← hcount]
    exact (hafter i).mp hrunning
  · intro hfits done
    induction done using List.reverseRecOn with
    | nil =>
      intro rest _ i
      simp [run, QpAckTimeoutWorker.new, QpTable.newWith, TransportTimer.new,
        TransportTimer.isRunning]
    | append_singleton done s ih =>
      intro rest hsteps
      rw [run_append]
      rw [List.append_assoc] at hsteps
      exact (ih _ hsteps).step (hfits done s rest hsteps).1 (hfits done s rest hsteps).2

/-- **A report on an idle queue pair.**  The queue pair has sent nothing; the hardware reports a
packet that it received.  The timer starts, expires, and everything outstanding is to be
retransmitted; then it expires again with no retries left, which ends the worker. -/
theorem timer_runs_idle :
    let w := QpAckTimeoutWorker.run ⟨true, true⟩ ⟨14, 1⟩ [.process 0 (.recvMeta 0x100)]
    let later := (w.maintainance 0x4000000).1
    w.outstandingAckReqCnt.getQp 0x100 = some 0 ∧
    (w.timerTable.getQp 0x100).map TransportTimer.isRunning = some true ∧
    (w.maintainance 0x4000000).2 = [.retransmit (.retransmitAll 0x100)] ∧
    (later.maintainance 0x8000000).1.panicked =
      some "not yet implemented: handle retry failures" := by
  intro w later
  refine ⟨?_, ?_, ?_, ?_⟩ <;> decide +kernel

end OpenRdma
