import OpenRdma.Tx.EvPathManager

/-!
# When a path comes back

A path that is assumed bad should come back only when a probe of it was answered, or when its entry
was configured anew.  The manager lets it come back in one more way: congestion feedback for a
packet that was under way when the path was condemned turns the entry to `skip`, and a skip ends by
itself.

A deadline, on the other hand, should stay over once it is over.  It is compared with the counter on
a circle of sixteen bits, so half a turn after it was reached it counts as not reached again, for as
long as the next half turn.

* `stays_bad` — the step lemma; **`condemned_not_selected`**, with the run `lateEcnRun` that shows
  why it needs its condition.
* `timeReached_after` — when a deadline counts as over; **`deadline_passed_iff`**, with
  `deadline_passed_is_lost` for a run in which a path is not probed.
-/

namespace OpenRdma

namespace EvPathManager

variable {m m' : EvPathManager} {l : PathLabel} {i : BitVec 5}

/-! ## Condemned paths -/

/-- What may bring a condemned path back: its entry is configured, or the answer to its outstanding
probe is applied. -/
def clears (m : EvPathManager) (l : PathLabel) (i : BitVec 5) : Bool :=
  match l with
  | .applyEntryConfig => m.entryConfigQ.first.any fun cfg => cfg.flatIndex == i
  | .applyFeedback => m.feedbackQ.first.any fun feedback =>
    feedback.flatIndex == i && (feedback.kind == .probeGood || feedback.kind == .probeSkip)
      && (m.entries i).generation == feedback.generation && m.matchingProbe feedback
  | _ => false

/-- Congestion feedback for the path that an entry holds, which is assumed bad already, is about to
be applied. -/
def lateSkip (m : EvPathManager) (l : PathLabel) (i : BitVec 5) : Bool :=
  match l with
  | .applyFeedback => m.feedbackQ.first.any fun feedback =>
    feedback.flatIndex == i
      && (feedback.kind == .ecn || feedback.kind == .skipOnce || feedback.kind == .trimmed)
      && m.current feedback && (m.entries i).state == .assumedBad
  | _ => false

/-- The entries that were assumed bad at some time and have not been cleared since. -/
def condemned (m : EvPathManager) (l : PathLabel) (before : BitVec 5 → Bool)
    (i : BitVec 5) : Bool :=
  match m.step l with
  | some m' => (m'.entries i).state == .assumedBad || (before i && !m.clears l i)
  | none => before i

/-- The manager with the condemned entries. -/
def healthStep : EvPathManager × (BitVec 5 → Bool) → PathLabel →
    Option (EvPathManager × (BitVec 5 → Bool)) :=
  watched step condemned

lemma learn_of_ne {feedback : MrcPathFeedback} (h : i ≠ feedback.flatIndex) :
    (m.learn feedback).entries i = m.entries i := by
  unfold learn
  dsimp only
  split <;> (try split) <;> simp [setOutstanding, setDeadline, setState, h]

/-- Feedback that is not about congestion takes a bad path out of its state only as the answer to
its probe. -/
lemma learn_bad {feedback : MrcPathFeedback} (hi : feedback.flatIndex = i)
    (hbad : (m.entries i).state = .assumedBad)
    (hskip : ¬(feedback.kind = .ecn ∨ feedback.kind = .skipOnce ∨ feedback.kind = .trimmed))
    (hprobe : feedback.kind = .probeGood ∨ feedback.kind = .probeSkip →
      m.matchingProbe feedback = false) :
    ((m.learn feedback).entries i).state = .assumedBad := by
  cases hkind : feedback.kind with
  | ecn => exact absurd (.inl hkind) hskip
  | skipOnce => exact absurd (.inr (.inl hkind)) hskip
  | trimmed => exact absurd (.inr (.inr hkind)) hskip
  | alwaysSkip | timeout => simp [learn, hkind, setOutstanding, setDeadline, setState, hi]
  | probeGood => simp [learn, hkind, hprobe (.inl hkind), hbad]
  | probeSkip => simp [learn, hkind, hprobe (.inr hkind), hbad]
  | clean => simp [learn, hkind, hbad]

/-- **A path assumed bad stays so**, unless its entry is configured, its probe answered or late
congestion feedback applied. -/
lemma stays_bad (hs : m.step l = some m') (hbad : (m.entries i).state = .assumedBad)
    (hclears : m.clears l i = false) (hlate : m.lateSkip l i = false) :
    (m'.entries i).state = .assumedBad := by
  cases l with
  | tick | commitSelection path | setAdminPortMask mask =>
    cases hs
    exact hbad
  | applyPolicy =>
    obtain ⟨⟨cfg, q⟩, -, hs⟩ := bind_eq_some.1 hs
    obtain ⟨-, hs⟩ := guard_bind_eq_some.1 hs
    cases hs
    exact hbad
  | applyPortStatus | probeOut =>
    obtain ⟨⟨status, q⟩, -, hs⟩ := bind_eq_some.1 hs
    cases hs
    exact hbad
  | entryConfigIn x | policyConfigIn x | portStatusIn x | feedbackIn x =>
    obtain ⟨q, -, hs⟩ := bind_eq_some.1 hs
    cases hs
    exact hbad
  | applyEntryConfig =>
    obtain ⟨cfg, q, entry, hdeq, rfl⟩ := applyEntryConfig_eq_some hs
    simp only [clears, Fifo.first_of_deq hdeq, Option.any_some, beq_eq_false_iff_ne,
      ne_eq] at hclears
    simpa [setOutstanding, setDeadline, Ne.symm hclears] using hbad
  | applyFeedback =>
    obtain ⟨feedback, q, hdeq, rfl⟩ := applyFeedback_eq_some hs
    simp only [clears, lateSkip, Fifo.first_of_deq hdeq, Option.any_some] at hclears hlate
    by_cases hcurrent : m.current feedback = true
    · rw [if_pos hcurrent]
      by_cases hi : feedback.flatIndex = i
      · subst hi
        have hgen : (m.entries feedback.flatIndex).generation = feedback.generation := by
          simp only [current, Bool.and_eq_true, beq_iff_eq] at hcurrent
          exact hcurrent.1.1.2
        refine learn_bad rfl hbad ?_ ?_
        · simpa [hcurrent, hbad, and_assoc] using hlate
        · intro hkind
          show m.matchingProbe feedback = false
          simpa [hgen, hkind] using hclears
      · rw [learn_of_ne (Ne.symm hi)]
        exact hbad
    · rw [if_neg hcurrent]
      exact hbad
  | scanEntry =>
    rcases scanEntry_eq_some hs with ⟨hskip, -, rfl⟩ | ⟨-, -, q, -, rfl⟩ | rfl
    · have hne : i ≠ m.scanCursor := by
        rintro rfl
        simp [isIn, hbad] at hskip
      simpa [setState, hne] using hbad
    · exact hbad
    · exact hbad

/-- **A condemned path is not selected.**  Take an entry, and a run in which no congestion feedback
for the path it holds is applied while that path is assumed bad; other entries may get such
feedback.  If the entry has been assumed bad, and since then neither configured nor cleared by the
answer to its outstanding probe, it is not the one that `resolve` selects, for whatever profile and
channels. -/
theorem condemned_not_selected {labels : List PathLabel} {bad : BitVec 5 → Bool}
    (hfire : fire healthStep (initial, fun _ => false) labels = some (m, bad))
    (hlate : Meets healthStep (fun s l => s.1.lateSkip l i = false)
      (initial, fun _ => false) labels)
    (hbad : bad i = true) (profileId : TxEvProfileId) (available allowed : BitVec 4)
    {path : MrcResolvedPath}
    (hpath : (m.resolve profileId available allowed).selected = some path) :
    path.flatIndex ≠ i := by
  have hinv : bad i = true → (m.entries i).state = .assumedBad := by
    refine fire_rule_meets (P := fun s => s.2 i = true → (s.1.entries i).state = .assumedBad) ?_
      (fun hi => absurd hi Bool.false_ne_true) hlate hfire
    rintro ⟨m, bad⟩ l ⟨m', bad'⟩ hinv hlate hs hi
    obtain ⟨hs, hobs⟩ := watched_eq_some.1 hs
    dsimp only at hs hobs hi ⊢
    simp only [hobs, condemned, hs, Bool.or_eq_true, Bool.and_eq_true, beq_iff_eq,
      Bool.not_eq_true'] at hi
    rcases hi with hnow | ⟨hbefore, hclears⟩
    · exact hnow
    · exact stays_bad hs (hinv hbefore) hclears hlate
  rintro rfl
  have hgood := resolve_selected hpath
  rw [hinv hbad] at hgood
  cases hgood

/-- A path of profile zero, on channel zero. -/
def samplePath (index : BitVec 3) : MrcEvEntryConfig := ⟨0, index, true, true, 7, 0⟩

/-- Feedback about the first path, which was configured once. -/
def sampleFeedback (kind : MrcPathFeedbackKind) : MrcPathFeedback := ⟨0, 0, 1, kind, 0⟩

/-- Two paths are configured, and a packet on the first times out. -/
def timeoutRun : List PathLabel :=
  [.entryConfigIn (samplePath 0), .entryConfigIn (samplePath 1), .scanEntry, .tick,
    .applyEntryConfig, .tick, .applyEntryConfig, .feedbackIn (sampleFeedback .timeout), .tick,
    .applyFeedback, .tick]

theorem condemned_not_selected_after_timeout :
    ∃ m bad path, fire healthStep (initial, fun _ => false) timeoutRun = some (m, bad) ∧
    bad 0 = true ∧
      (m.resolve 0 0xF 0xF).selected = some path ∧ path.flatIndex ≠ 0 := by
  have hview : (fire healthStep (initial, fun _ => false) timeoutRun).map
      (fun s => (s.2 0, (s.1.resolve 0 0xF 0xF).selected)) = some (true, some ⟨0, 1, 1, 7, 0⟩) := by
    decide +kernel
  obtain ⟨⟨m, bad⟩, hfire, hm⟩ := Option.map_eq_some_iff.1 hview
  obtain ⟨hbad, hpath⟩ := Prod.mk.inj hm
  exact ⟨m, bad, _, hfire, hbad, hpath,
    condemned_not_selected hfire (by decide +kernel) hbad 0 0xF 0xF hpath⟩

/-- A packet on the only path times out, and then congestion feedback comes for a packet that was
under way; a cycle at a time, with a scan in every cycle that leaves room for it.  The scan comes
back to the path after the skip is over. -/
def lateEcnRun : List PathLabel :=
  [.policyConfigIn ⟨1, 1⟩, .entryConfigIn (samplePath 0), .scanEntry, .tick, .applyPolicy,
    .applyEntryConfig, .tick, .feedbackIn (sampleFeedback .timeout), .scanEntry, .tick,
    .applyFeedback,
    .feedbackIn (sampleFeedback .ecn), .tick, .applyFeedback, .tick]
    ++ (List.replicate 31 [.scanEntry, .tick]).flatten

/-- **Late congestion feedback brings a condemned path back**: no probe was even sent. -/
theorem condemned_path_comes_back :
    ∃ m bad path, fire healthStep (initial, fun _ => false) lateEcnRun = some (m, bad) ∧
    bad 0 = true ∧
      m.probeQ.elems = [] ∧ m.nextProbeId 0 = 0 ∧
      (m.resolve 0 0xF 0xF).selected = some path ∧ path.flatIndex = 0 := by
  have hview : (fire healthStep (initial, fun _ => false) lateEcnRun).map
      (fun s => (s.2 0, s.1.probeQ.elems, s.1.nextProbeId 0, (s.1.resolve 0 0xF 0xF).selected))
        = some (true, [], 0, some ⟨0, 0, 1, 7, 0⟩) := by
    decide +kernel
  obtain ⟨⟨m, bad⟩, hfire, hm⟩ := Option.map_eq_some_iff.1 hview
  simp only [Prod.mk.injEq] at hm
  obtain ⟨hbad, hprobes, hid, hpath⟩ := hm
  exact ⟨m, bad, _, hfire, hbad, hprobes, hid, hpath, rfl⟩

/-! ## Deadlines -/

/-- A deadline counts as over for half a turn, and as not over for the next half. -/
lemma timeReached_after (deadline : BitVec 16) (n : ℕ) :
    timeReached (deadline + BitVec.ofNat 16 n) deadline = true ↔ n % 2 ^ 16 < 2 ^ 15 := by
  have hsub : deadline + BitVec.ofNat 16 n - deadline = BitVec.ofNat 16 n := by
    rw [BitVec.add_comm, BitVec.add_sub_cancel]
  simp [timeReached, hsub, BitVec.msb_eq_decide]

/-- Only the clock moves the counter. -/
lemma step_cycleCounter (hs : m.step l = some m') :
    m'.cycleCounter = m.cycleCounter + BitVec.ofNat 16 ([l].count .tick) := by
  have hrest : l ≠ .tick → m'.cycleCounter = m.cycleCounter → m'.cycleCounter
      = m.cycleCounter + BitVec.ofNat 16 ([l].count .tick) := by
    intro hl heq
    rw [heq, List.count_singleton]
    simp [hl]
  cases l with
  | tick =>
    cases hs
    rfl
  | commitSelection path | setAdminPortMask mask =>
    cases hs
    exact hrest nofun rfl
  | applyPolicy =>
    obtain ⟨⟨cfg, q⟩, -, hs⟩ := bind_eq_some.1 hs
    obtain ⟨-, hs⟩ := guard_bind_eq_some.1 hs
    cases hs
    exact hrest nofun rfl
  | applyPortStatus | probeOut | applyEntryConfig =>
    obtain ⟨⟨status, q⟩, -, hs⟩ := bind_eq_some.1 hs
    cases hs
    exact hrest nofun rfl
  | entryConfigIn x | policyConfigIn x | portStatusIn x | feedbackIn x =>
    obtain ⟨q, -, hs⟩ := bind_eq_some.1 hs
    cases hs
    exact hrest nofun rfl
  | applyFeedback =>
    obtain ⟨feedback, q, -, rfl⟩ := applyFeedback_eq_some hs
    refine hrest nofun ?_
    unfold learn
    dsimp only
    split
    · split <;> (try split) <;> rfl
    · rfl
  | scanEntry =>
    refine hrest nofun ?_
    rcases scanEntry_eq_some hs with ⟨-, -, rfl⟩ | ⟨-, -, q, -, rfl⟩ | rfl <;> rfl

/-- The deadline of an entry is not rewritten. -/
def DeadlineKept (i : BitVec 5) (m : EvPathManager) (l : PathLabel) : Prop :=
  ∀ m' ∈ m.step l, m'.stateDeadline i = m.stateDeadline i

instance : Decidable (DeadlineKept i m l) := by unfold DeadlineKept; infer_instance

lemma fire_counter {labels : List PathLabel} (hfire : fire step m labels = some m')
    (hkept : Meets step (DeadlineKept i) m labels) :
    m'.cycleCounter = m.cycleCounter + BitVec.ofNat 16 (labels.count .tick) ∧
      m'.stateDeadline i = m.stateDeadline i := by
  induction labels generalizing m with
  | nil =>
    cases hfire
    exact ⟨by simp, rfl⟩
  | cons l labels ih =>
    obtain ⟨t, ht, hrest⟩ := fire_cons.1 hfire
    obtain ⟨hcount, hdeadline⟩ := ih hrest (hkept.2 t ht)
    refine ⟨?_, hdeadline.trans (hkept.1 t ht)⟩
    rw [hcount, step_cycleCounter ht, BitVec.add_assoc, ← BitVec.ofNat_add, ← List.count_append,
      List.singleton_append]

/-- **When a deadline that was reached still counts as reached.**  Once the counter has reached the
deadline of an entry, and as long as the deadline is not rewritten, a scan finds it reached exactly
if the cycles since then, modulo one turn of the counter, are less than half a turn; and with the
port reachable and room in the queue, exactly then is a bad path probed. -/
theorem deadline_passed_iff {later : List PathLabel} (hreached : m.cycleCounter = m.stateDeadline i)
    (hlater : fire step m later = some m') (hkept : Meets step (DeadlineKept i) m later) :
    (timeReached m'.cycleCounter (m'.stateDeadline i) = true ↔
      later.count .tick % 2 ^ 16 < 2 ^ 15) ∧
    (m'.isIn i .assumedBad = true → m'.pathPortMask.getLsbD (m'.entries i).channel.toNat = true →
      m'.probeQ.notFull = true → m'.scanCursor = i →
      ((∃ m'', m'.step .scanEntry = some m'' ∧ m''.probeQ.elems = m'.probeQ.elems ++ [m'.probe i]) ↔
        later.count .tick % 2 ^ 16 < 2 ^ 15)) := by
  obtain ⟨hcounter, hdeadline⟩ := fire_counter hlater hkept
  have hiff : timeReached m'.cycleCounter (m'.stateDeadline i) = true ↔
      later.count .tick % 2 ^ 16 < 2 ^ 15 := by
    rw [hcounter, hdeadline, hreached]
    exact timeReached_after _ _
  refine ⟨hiff, ?_⟩
  rintro hbad hport hroom rfl
  rw [← hiff]
  constructor
  · rintro ⟨m'', hs, hprobe⟩
    rcases scanEntry_eq_some hs with ⟨-, hreached, -⟩ | ⟨-, hreached, -⟩ | rfl
    · exact hreached
    · exact hreached
    · exact absurd hprobe (by simp)
  · intro hover
    obtain ⟨q, hq⟩ := Fifo.enq_of_lt (of_decide_eq_true hroom) (m'.probe m'.scanCursor)
    have hskip : m'.isIn m'.scanCursor .skip = false := by
      simp only [isIn, Bool.and_eq_true, beq_iff_eq] at hbad
      simp [isIn, hbad.2]
    have hs : ∃ m'', m'.scanEntry = some m'' ∧ m''.probeQ = q := by
      unfold scanEntry
      dsimp only
      rw [if_neg, if_pos]
      · exact ⟨_, bind_eq_some.2 ⟨q, hq, rfl⟩, rfl⟩
      · simp only [Bool.and_eq_true]
        exact ⟨⟨⟨hbad, hroom⟩, hover⟩, hport⟩
      · rw [Bool.and_eq_true]
        exact fun h => Bool.false_ne_true (hskip.symm.trans h.1)
    obtain ⟨m'', hs, rfl⟩ := hs
    exact ⟨m'', hs, Fifo.enq_eq_some hq⟩

/-- Two cycles after the first path was assumed bad its deadline is still over. -/
theorem deadline_passed_iff_in_time :
    ∃ m m', fire step initial (timeoutRun.dropLast) = some m ∧ m.cycleCounter = m.stateDeadline 0 ∧
      fire step m [.tick, .tick] = some m' ∧ timeReached m'.cycleCounter (m'.stateDeadline 0) =
        true := by
  have hview : (fire step initial timeoutRun.dropLast).map
    (fun m => decide (m.cycleCounter = m.stateDeadline 0))
      = some true := by decide +kernel
  obtain ⟨m, hfire, hm⟩ := Option.map_eq_some_iff.1 hview
  have hm := of_decide_eq_true hm
  have hlater : fire step m [.tick, .tick] = some m.tick.tick := rfl
  refine ⟨m, m.tick.tick, hfire, hm, hlater, ?_⟩
  refine (deadline_passed_iff hm hlater ?_).1.2 (by decide)
  refine ⟨?_, ?_⟩
  · rintro _ ⟨⟩
    rfl
  · rintro _ ⟨⟩
    refine ⟨?_, fun _ _ => trivial⟩
    rintro _ ⟨⟩
    rfl

/-! ### A path that is not probed -/

/-- No scan has anything to do: nothing is skipped, and no bad path can be reached. -/
def Idle (m : EvPathManager) : Prop := ∀ j : BitVec 5, m.isIn j .skip = false ∧
  (m.isIn j .assumedBad && m.pathPortMask.getLsbD (m.entries j).channel.toNat) = false

/-- Some cycles later, when only the clock and the cursor have moved. -/
def advanced (m : EvPathManager) (n : ℕ) : EvPathManager :=
  { m with cycleCounter := m.cycleCounter + BitVec.ofNat 16 n, scanCursor := m.scanCursor +
    BitVec.ofNat 5 n }

lemma scanEntry_idle (h : m.Idle) :
    m.scanEntry = some { m with scanCursor := m.scanCursor + 1 } := by
  obtain ⟨hskip, hbad⟩ := h m.scanCursor
  unfold scanEntry
  dsimp only
  rw [if_neg, if_neg]
  · rfl
  · simp only [Bool.and_eq_true]
    rintro ⟨⟨⟨hin, -⟩, -⟩, hport⟩
    rw [show m.isIn m.scanCursor .assumedBad = true from hin,
      show m.pathPortMask.getLsbD (m.entries m.scanCursor).channel.toNat = true from hport] at hbad
    cases hbad
  · rw [Bool.and_eq_true]
    rintro ⟨hin, -⟩
    cases hskip.symm.trans hin

/-- Idle cycles move the clock and the cursor, and nothing else. -/
lemma idle_cycles (h : m.Idle) (n : ℕ) {rest : List PathLabel}
    (hrest : fire step (m.advanced n) rest = some m')
    (hkept : Meets step (DeadlineKept i) (m.advanced n) rest) :
    fire step m ((List.replicate n [.scanEntry, .tick]).flatten ++ rest) = some m' ∧
      Meets step (DeadlineKept i) m ((List.replicate n [.scanEntry, .tick]).flatten ++ rest) := by
  induction n generalizing m with
  | zero =>
    have hzero : m.advanced 0 = m := by simp [advanced]
    rw [hzero] at hrest hkept
    exact ⟨hrest, hkept⟩
  | succ n ih =>
    have hnext : (m.advanced 1).advanced n = m.advanced (n + 1) := by
      simp only [advanced, BitVec.add_assoc, ← BitVec.ofNat_add, Nat.add_comm 1 n]
    obtain ⟨hfire, hmeets⟩ := ih (m := m.advanced 1) h (hnext ▸ hrest) (hnext ▸ hkept)
    have hscan : m.step .scanEntry = some { m with scanCursor := m.scanCursor + 1 } :=
      scanEntry_idle h
    rw [List.replicate_succ, List.flatten_cons]
    refine ⟨fire_cons.2 ⟨_, hscan, fire_cons.2 ⟨_, rfl, hfire⟩⟩, ?_, ?_⟩
    · intro t ht
      cases hscan.symm.trans ht
      rfl
    · intro t ht
      cases hscan.symm.trans ht
      refine ⟨?_, ?_⟩
      · rintro _ ⟨⟩
        rfl
      · rintro _ ⟨⟩
        exact hmeets

/-- The port of the only path goes down, and a packet on the path times out. -/
def portDownRun : List PathLabel :=
  [.portStatusIn ⟨0xE, 0xF⟩, .entryConfigIn (samplePath 0), .scanEntry, .tick, .applyPortStatus,
    .applyEntryConfig, .tick, .feedbackIn (sampleFeedback .timeout), .scanEntry, .tick,
    .applyFeedback]

/-- The manager then. -/
def portDownState : EvPathManager := (fire step initial portDownRun).get (by decide +kernel)

/-- More than half a turn of the counter later the port comes up again. -/
def portUpRun : List PathLabel :=
  .tick :: ((List.replicate 32798 [.scanEntry, .tick]).flatten ++
    [.portStatusIn ⟨0xF, 0xF⟩, .applyPortStatus])

/-- **A bad path whose port was down for long is not probed**, although its deadline was reached,
its port can be reached and the queue has room. -/
theorem deadline_passed_is_lost :
    ∃ m m', fire step initial portDownRun = some m ∧ m.isIn 0 .assumedBad = true ∧
      m.cycleCounter = m.stateDeadline 0 ∧ fire step m portUpRun = some m' ∧
      Meets step (DeadlineKept 0) m portUpRun ∧ m'.isIn 0 .assumedBad = true ∧
      m'.pathPortMask.getLsbD (m'.entries 0).channel.toNat = true ∧ m'.probeQ.notFull = true ∧
      m'.scanCursor = 0 ∧ timeReached m'.cycleCounter (m'.stateDeadline 0) = false ∧
      (m'.step .scanEntry).map (·.probeQ.elems) = some [] := by
  have hidle : portDownState.tick.Idle := by
    unfold Idle
    decide +kernel
  have htail :
    (fire step (portDownState.tick.advanced 32798) [.portStatusIn ⟨0xF, 0xF⟩, .applyPortStatus]).map
      (fun m => (m.isIn 0 .assumedBad, m.pathPortMask.getLsbD (m.entries 0).channel.toNat,
        m.probeQ.notFull, decide (m.scanCursor = 0), timeReached m.cycleCounter (m.stateDeadline 0),
        decide ((m.step .scanEntry).map (·.probeQ.elems) = some []))) =
          some (true, true, true, true, false, true) := by
    decide +kernel
  obtain ⟨m', hm', hview⟩ := Option.map_eq_some_iff.1 htail
  simp only [Prod.mk.injEq, decide_eq_true_eq] at hview
  obtain ⟨hfire, hkept⟩ := idle_cycles (i := 0) hidle 32798 hm' (by decide +kernel)
  refine ⟨portDownState, m', (Option.some_get _).symm, by decide +kernel, by decide +kernel,
    fire_cons.2 ⟨_, rfl, hfire⟩, ⟨?_, ?_⟩, hview⟩
  · rintro _ ⟨⟩
    rfl
  · rintro _ ⟨⟩
    exact hkept

end EvPathManager

end OpenRdma
