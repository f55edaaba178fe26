import OpenRdma.Core.KeyedQueue
import OpenRdma.Workers.Completion

/-!
# The queues of the completion worker against a message stream

A `MsgStream` numbers the messages of one direction of a queue pair from zero: message `i` carries
MSN `msn0 + i` and ends right before stream position `endPos i`.  Seen this way, a `MessageTracker`
is a `KeyedQueue` whose keys are message numbers (`Represents`): `append` is `insert`
(`append_represents`) and popping up to a base splits the queue at that base
(`popAll_represents`).  Both need the numbers in play to lie within half a circle of each other,
which is where the wrapped comparisons of the source are faithful.

The rest of the module says what the loops over the merge queue yield: `pollSends_spec` and
`pollRecvs_spec`.
-/

namespace OpenRdma

/-! ## Message streams -/

/-- The messages of one direction of a queue pair: message `i` has MSN `msn0 + i` and occupies the
stream positions from the end of the message before it up to `endPos i`. -/
structure MsgStream where
  msn0 : UInt16
  endPos : ℕ → ℕ
  strictMono : StrictMono endPos
  endPos_zero_pos : 0 < endPos 0

namespace MsgStream

def startPos (S : MsgStream) : ℕ → ℕ
  | 0 => 0
  | i + 1 => S.endPos i

def metaOf (S : MsgStream) (i : ℕ) : MessageMeta := ⟨msnAt S.msn0 i, Psn.ofPos (S.endPos i)⟩

lemma endPos_pos (S : MsgStream) (i : ℕ) : 0 < S.endPos i :=
  lt_of_lt_of_le S.endPos_zero_pos (S.strictMono.monotone (Nat.zero_le i))

/-- Messages of one packet each. -/
def unit (msn0 : UInt16) : MsgStream :=
  ⟨msn0, fun i => i + 1, fun _ _ h => Nat.succ_lt_succ h, Nat.one_pos⟩

lemma startPos_lt (S : MsgStream) (i : ℕ) : S.startPos i < S.endPos i := by
  cases i with
  | zero => exact S.endPos_zero_pos
  | succ i => exact S.strictMono (Nat.lt_succ_self i)

lemma endPos_le_startPos (S : MsgStream) {i j : ℕ} (h : i < j) : S.endPos i ≤ S.startPos j := by
  cases j with
  | zero => exact absurd h (Nat.not_lt_zero _)
  | succ j => exact S.strictMono.monotone (Nat.lt_succ_iff.mp h)

/-- A position belongs to one message. -/
lemma eq_of_mem (S : MsgStream) {i j p : ℕ} (hi : S.startPos i ≤ p) (hi' : p < S.endPos i)
    (hj : S.startPos j ≤ p) (hj' : p < S.endPos j) : i = j := by
  rcases Nat.lt_trichotomy i j with h | h | h
  · have := S.endPos_le_startPos h; omega
  · exact h
  · have := S.endPos_le_startPos h; omega

lemma downClosed_le (S : MsgStream) (B : ℕ) :
    KeyedQueue.DownClosed (fun i => decide (S.endPos i ≤ B)) := by
  intro i j hij hj
  have hlt := S.strictMono hij
  simp only [decide_eq_true_eq] at hj ⊢
  omega

end MsgStream

/-! ## The reorder buffer -/

namespace MessageTracker

variable {E : Type} [EventMeta E] {t : MessageTracker E}

/-- **Where an event goes**: after the events before it, unless the next one has its MSN. -/
lemma append_split {e : E} {A C : List E} (hl : t.inner = A ++ C)
    (hA : ∀ a ∈ A, (⟨(EventMeta.msgMeta a).msn⟩ : Msn) < ⟨(EventMeta.msgMeta e).msn⟩)
    (hC : ∀ c ∈ C, ¬ (⟨(EventMeta.msgMeta c).msn⟩ : Msn) < ⟨(EventMeta.msgMeta e).msn⟩) :
    t.append e = if C.head?.all (fun c => (EventMeta.msgMeta c).msn != (EventMeta.msgMeta e).msn) =
      true
      then { t with inner := A ++ e :: C } else t := by
  have hnone : C.reverse.findIdx? (fun c =>
      decide ((⟨(EventMeta.msgMeta c).msn⟩ : Msn) < ⟨(EventMeta.msgMeta e).msn⟩)) = none := by
    rw [List.findIdx?_eq_none_iff]
    intro c hc
    simpa using hC c (List.mem_reverse.mp hc)
  have hpos : (t.inner.reverse.findIdx? (fun c =>
      decide ((⟨(EventMeta.msgMeta c).msn⟩ : Msn) < ⟨(EventMeta.msgMeta e).msn⟩))).getD
        t.inner.length
        = C.length := by
    rw [hl, List.reverse_append, List.findIdx?_append, hnone]
    -- the last event before the new one, if there is one, is the first hit of the search
    rcases List.eq_nil_or_concat A with rfl | ⟨A', a, rfl⟩
    · simp
    · have ha := hA a (by simp)
      simp [List.findIdx?_cons, ha]
  have hidx : t.inner.length - C.length = A.length := by simp [hl]
  have hget : t.inner[A.length]? = C.head? := by
    rw [hl, List.getElem?_append_right le_rfl]
    simp [List.head?_eq_getElem?]
  simp only [append, hpos, hidx, hget]
  rw [hl, KeyedQueue.insertIdx_length_append]

/-- **Appending to a queue ordered by keys is inserting the event's key**, when the keys are ordered
as the MSNs are. -/
theorem append_keyed {Q : KeyedQueue E} {e : E} {i : ℕ}
    (hitems : t.inner = Q.items) (hlt : ∀ p ∈ Q.entries,
      ((⟨(EventMeta.msgMeta p.2).msn⟩ : Msn) < ⟨(EventMeta.msgMeta e).msn⟩ ↔ p.1 < i))
    (heq : ∀ p ∈ Q.entries, (EventMeta.msgMeta p.2).msn = (EventMeta.msgMeta e).msn ↔ p.1 = i) :
    t.append e = { t with inner := (Q.insert i e).items } := by
  set A := Q.entries.filter (fun p => decide (p.1 < i)) with hAdef
  set C := Q.entries.filter (fun p => decide (¬ p.1 < i)) with hCdef
  have hsplit : Q.entries = A ++ C := Q.splitAt_entries i
  have hl : t.inner = A.map Prod.snd ++ C.map Prod.snd := by
    rw [hitems, KeyedQueue.items, hsplit, List.map_append]
  have hA :
      ∀ a ∈ A.map Prod.snd, (⟨(EventMeta.msgMeta a).msn⟩ : Msn) < ⟨(EventMeta.msgMeta e).msn⟩ := by
    intro a ha
    obtain ⟨p, hp, rfl⟩ := List.mem_map.mp ha
    obtain ⟨hmem, hbelow⟩ := List.mem_filter.mp hp
    exact (hlt p hmem).mpr (by simpa using hbelow)
  have hC : ∀ c ∈ C.map Prod.snd, ¬ (⟨(EventMeta.msgMeta c).msn⟩ : Msn) <
      ⟨(EventMeta.msgMeta e).msn⟩ := by
    intro c hc
    obtain ⟨p, hp, rfl⟩ := List.mem_map.mp hc
    obtain ⟨hmem, habove⟩ := List.mem_filter.mp hp
    exact mt (hlt p hmem).mp (by simpa using habove)
  -- the event after the place has this MSN exactly if the key is already there
  have hnew : (((C.map Prod.snd).head?).all
      (fun c => (EventMeta.msgMeta c).msn != (EventMeta.msgMeta e).msn)) = true ↔ i ∉ Q.keys := by
    rw [Q.mem_keys_iff_head i, ← hCdef]
    cases hCc : C with
    | nil => simp
    | cons c C' =>
      have hmem : c ∈ Q.entries := List.mem_of_mem_filter (hCdef ▸ hCc ▸ List.mem_cons_self)
      simp [heq c hmem]
  rw [append_split hl hA hC]
  by_cases hi : i ∈ Q.keys
  · rw [if_neg (by rw [hnew]; exact not_not.mpr hi), KeyedQueue.insert, dif_pos hi, ← hitems]
  · rw [if_pos (hnew.mpr hi)]
    simp only [KeyedQueue.insert, dif_neg hi, KeyedQueue.items, List.map_append, List.map_cons,
      hAdef, hCdef]

lemma popAll_eq (t : MessageTracker E) :
    t.popAll = ⟨t.inner.takeWhile (fun e => decide ((EventMeta.msgMeta e).endPsn ≤ t.basePsn)),
      ⟨t.inner.dropWhile (fun e => decide ((EventMeta.msgMeta e).endPsn ≤ t.basePsn)),
        t.basePsn⟩, none⟩ := by
  obtain ⟨l, b⟩ := t
  simp only [popAll]
  induction l with
  | nil => rfl
  | cons e l ih =>
    simp only [List.length_cons]
    rw [drain]
    by_cases h : (EventMeta.msgMeta e).endPsn ≤ b
    · simp only [pop, h, if_true, ih, decide_true, List.takeWhile_cons, List.dropWhile_cons]
    · simp [pop, h]

/-- The queue holds the events of messages of the stream, ordered by message number. -/
structure Represents (S : MsgStream) (Q : KeyedQueue E) (l : List E) : Prop where
  items_eq : l = Q.items
  meta_eq : ∀ p ∈ Q.entries, EventMeta.msgMeta p.2 = S.metaOf p.1

lemma represents_empty (S : MsgStream) : Represents S (KeyedQueue.empty : KeyedQueue E) [] :=
  ⟨rfl, fun _ hp => absurd hp List.not_mem_nil⟩

/-- Appending an event is inserting its message number. -/
theorem append_represents {S : MsgStream} {Q : KeyedQueue E} {e : E} {i : ℕ}
    (h : Represents S Q t.inner) (he : EventMeta.msgMeta e = S.metaOf i)
    (hnear : ∀ j ∈ Q.keys, SerialNear (2 ^ 15) j i) :
    Represents S (Q.insert i e) (t.append e).inner ∧ (t.append e).basePsn = t.basePsn := by
  obtain ⟨hitems, hmeta⟩ := h
  have hmsn : (EventMeta.msgMeta e).msn = msnAt S.msn0 i := by rw [he]; rfl
  have hnear' : ∀ p ∈ Q.entries, SerialNear (2 ^ 15) p.1 i :=
    fun p hp => hnear p.1 (List.mem_map_of_mem hp)
  have happend := append_keyed (e := e) (i := i) hitems
    (fun p hp => by rw [hmeta p hp, hmsn]; exact Msn.lt_msnAt _ (hnear' p hp))
    (fun p hp => by rw [hmeta p hp, hmsn]; exact msnAt_inj _ (hnear' p hp))
  rw [happend]
  refine ⟨⟨rfl, ?_⟩, rfl⟩
  intro p hp
  rcases KeyedQueue.mem_insert.mp hp with hp | ⟨-, rfl⟩
  · exact hmeta p hp
  · exact he

/-- **Popping up to a base splits the queue at that base.** -/
theorem popAll_represents {S : MsgStream} {Q : KeyedQueue E} {B : ℕ}
    (h : Represents S Q t.inner) (hnear : ∀ i ∈ Q.keys, SerialNear (2 ^ 23) (S.endPos i) B) :
    (t.ack (Psn.ofPos B)).popAll.items = (Q.keep (fun i => decide (S.endPos i ≤ B))).items ∧
    Represents S (Q.keep (fun i => !decide (S.endPos i ≤ B)))
      (t.ack (Psn.ofPos B)).popAll.state.inner ∧
    (t.ack (Psn.ofPos B)).popAll.state.basePsn = Psn.ofPos B ∧
    (t.ack (Psn.ofPos B)).popAll.crashed = none := by
  obtain ⟨hitems, hmeta⟩ := h
  have hle : ∀ p ∈ Q.entries,
      decide ((EventMeta.msgMeta p.2).endPsn ≤ Psn.ofPos B) = decide (S.endPos p.1 ≤ B) := by
    intro p hp
    rw [hmeta p hp]
    exact decide_eq_decide.mpr (Psn.le_ofPos (hnear p.1 (List.mem_map_of_mem hp)))
  have htake : Q.items.takeWhile (fun e => decide ((EventMeta.msgMeta e).endPsn ≤ Psn.ofPos B))
      = (Q.keep (fun i => decide (S.endPos i ≤ B))).items := by
    rw [KeyedQueue.items, KeyedQueue.items, ← Q.takeWhile_entries (S.downClosed_le B) hle,
      List.takeWhile_map]
    rfl
  have hdrop : Q.items.dropWhile (fun e => decide ((EventMeta.msgMeta e).endPsn ≤ Psn.ofPos B))
      = (Q.keep (fun i => !decide (S.endPos i ≤ B))).items := by
    rw [KeyedQueue.items, KeyedQueue.items, ← Q.dropWhile_entries (S.downClosed_le B) hle,
      List.dropWhile_map]
    rfl
  rw [popAll_eq]
  simp only [ack, hitems]
  exact ⟨htake, ⟨hdrop, fun p hp => hmeta p (KeyedQueue.mem_keep.mp hp).1⟩, trivial, trivial⟩

end MessageTracker

/-! ## The merge queue -/

namespace MergeQueue

lemma foldl_pushSend (m : MergeQueue) (events : List SendEvent) :
    events.foldl pushSend m = { m with send := m.send ++ events } := by
  induction events generalizing m with
  | nil => simp
  | cons e events ih => simp [ih, pushSend]

lemma pushRecv_eq (m : MergeQueue) (e : RecvEvent) :
    m.pushRecv e = { m with
      recv := m.recv ++ [e].filter (fun e => e.op ≠ .readResp)
      recvReadResp := m.recvReadResp ++ [e].filter (fun e => e.op = .readResp) } := by
  cases h : e.op <;> simp [pushRecv, h]

/-- READ responses go to their own queue, everything else to the receive queue. -/
lemma foldl_pushRecv (m : MergeQueue) (events : List RecvEvent) :
    events.foldl pushRecv m = { m with
      recv := m.recv ++ events.filter (fun e => e.op ≠ .readResp)
      recvReadResp := m.recvReadResp ++ events.filter (fun e => e.op = .readResp) } := by
  induction events generalizing m with
  | nil => simp
  | cons e events ih =>
    rw [List.foldl_cons, ih, pushRecv_eq]
    have h : ∀ p : RecvEvent → Bool, (e :: events).filter p = [e].filter p ++ events.filter p :=
      fun p => by rw [← List.filter_append]; rfl
    simp only [h, List.append_assoc]

end MergeQueue

/-- How many of the events are READs. -/
def readCount (events : List SendEvent) : ℕ := events.countP (fun e => e.op == .readSignaled)

namespace QueuePairMessageTracker

/-- One turn of the loop over `poll_send_completion`. -/
lemma pollSendCompletion_cases (t : QueuePairMessageTracker) :
    (t.pollSendCompletion = .done ∧ (t.merge.send = [] ∨ t.merge.recvReadResp = [] ∧
      ∃ e rest, t.merge.send = e :: rest ∧ e.op = .readSignaled)) ∨
    ∃ e rest used left, t.merge.send = e :: rest ∧ t.merge.recvReadResp = used ++ left ∧
      used.length = readCount [e] ∧
      t.pollSendCompletion = .item (e, e.completion)
        { t with merge := { t.merge with send := rest, recvReadResp := left } } := by
  cases hs : t.merge.send with
  | nil => exact .inl ⟨by simp [pollSendCompletion, MergeQueue.popSend, hs], .inl rfl⟩
  | cons e rest =>
    cases hop : e.op with
    | writeSignaled | sendSignaled =>
      refine .inr ⟨e, rest, [], t.merge.recvReadResp, rfl, rfl, ?_, ?_⟩
      · simp [readCount, hop]
      · simp [pollSendCompletion, MergeQueue.popSend, hs, hop]
    | readSignaled =>
      cases hr : t.merge.recvReadResp with
      | nil =>
        refine .inl ⟨?_, .inr ⟨rfl, e, rest, rfl, hop⟩⟩
        simp [pollSendCompletion, MergeQueue.popSend, hs, hop, hr]
      | cons r resps =>
        refine .inr ⟨e, rest, [r], resps, rfl, rfl, ?_, ?_⟩
        · simp [readCount, hop]
        · simp [pollSendCompletion, MergeQueue.popSend, hs, hop, hr]

/-- What the loop over `poll_send_completion` may leave behind: it completes a first part of the
queue, one READ response for each READ in it, and stops at the end of the queue or at a READ for
which no response is left. -/
def SendsPolled (t : QueuePairMessageTracker)
    (r : Drained QueuePairMessageTracker (SendEvent × Completion)) : Prop :=
  ∃ done waiting used left, t.merge.send = done ++ waiting ∧ t.merge.recvReadResp = used ++ left ∧
    used.length = readCount done ∧
    r = ⟨done.map (fun e => (e, e.completion)),
      { t with merge := { t.merge with send := waiting, recvReadResp := left } }, none⟩ ∧
    (waiting = [] ∨ left = [] ∧ ∃ e rest, waiting = e :: rest ∧ e.op = .readSignaled)

/-- What the loop over the sends does. -/
theorem pollSends_spec (t : QueuePairMessageTracker) : t.SendsPolled t.pollSends := by
  refine drain_rule (μ := fun t => t.merge.send.length) ?_ ?_ ?_ ?_ _ t (Nat.lt_succ_self _)
  · intro t a t' h
    rcases t.pollSendCompletion_cases with ⟨hd, -⟩ | ⟨e, rest, used, left, hs, -, -, hi⟩
    · rw [hd] at h; cases h
    · rw [hi] at h; cases h
      simp [hs]
  · intro t h
    rcases t.pollSendCompletion_cases with ⟨-, hstop⟩ | ⟨e, rest, used, left, -, -, -, hi⟩
    · exact ⟨[], t.merge.send, [], t.merge.recvReadResp, rfl, rfl, rfl, rfl, hstop⟩
    · rw [hi] at h; cases h
  · intro t msg h
    rcases t.pollSendCompletion_cases with ⟨hd, -⟩ | ⟨e, rest, used, left, -, -, -, hi⟩
    · rw [hd] at h; cases h
    · rw [hi] at h; cases h
  · rintro t a t' r h ⟨done, waiting, used', left', hs', hr', hlen', rfl, hstop⟩
    rcases t.pollSendCompletion_cases with ⟨hd, -⟩ | ⟨e, rest, used, left, hs, hr, hlen, hi⟩
    · rw [hd] at h; cases h
    · rw [hi] at h; cases h
      simp only at hs' hr'
      refine ⟨e :: done, waiting, used ++ used', left', ?_, ?_, ?_, ?_, hstop⟩
      · rw [hs, hs']; rfl
      · rw [hr, hr', List.append_assoc]
      · rw [List.length_append, hlen, hlen', readCount, readCount, readCount, ← List.countP_append]
        rfl
      · simp

/-! ## Receives -/

/-- Pair received messages with posted receives, in order: a message that consumes a receive takes
the next one, and without one the pairing is stuck. -/
def deliver : List RecvEvent → List PostRecvEvent → List (RecvEvent × Option Completion)
  | [], _ => []
  | e :: es, posts =>
    match e.op.completion, posts with
    | none, posts => (e, none) :: deliver es posts
    | some c, x :: posts => (e, some (c x.wrId)) :: deliver es posts
    | some _, [] => []

/-- How many receives a list of polls consumed. -/
def consumed (polls : List (RecvEvent × Option Completion)) : ℕ :=
  polls.countP (fun p => p.2.isSome)

/-- **What the loop over `poll_recv_completion` does.** -/
theorem pollRecvs_spec (t : QueuePairMessageTracker) (h : ∀ e ∈ t.merge.recv, e.op ≠ .readResp) :
    ∃ msg, t.pollRecvs = ⟨deliver t.merge.recv t.postRecvQueue,
      { t with
        merge := { t.merge with
          recv := t.merge.recv.drop (deliver t.merge.recv t.postRecvQueue).length }
        postRecvQueue := t.postRecvQueue.drop (consumed (deliver t.merge.recv t.postRecvQueue)) },
      msg⟩ ∧
      (msg = none ↔ (deliver t.merge.recv t.postRecvQueue).length = t.merge.recv.length) := by
  obtain ⟨s, r, posts, ms, mr, mrr⟩ := t
  simp only [pollRecvs] at h ⊢
  induction mr generalizing posts with
  | nil => exact ⟨none, rfl, by simp [deliver]⟩
  | cons e mr ih =>
    have ih := fun posts => ih posts (fun e' he' => h e' (List.mem_cons_of_mem _ he'))
    have hne := h e List.mem_cons_self
    rw [drain]
    cases hop : e.op with
    | readResp => exact absurd hop hne
    | write | recvRead =>
      obtain ⟨msg, hr, hm⟩ := ih posts
      refine ⟨msg, ?_, ?_⟩
      · simp [pollRecvCompletion, MergeQueue.popRecv, hop, hr, deliver, RecvEventOp.completion,
          consumed]
      · simpa [deliver, hop, RecvEventOp.completion] using hm
    | writeWithImm imm | recv | recvWithImm imm =>
      cases posts with
      | nil =>
        refine ⟨some "no posted recv wr", ?_, ?_⟩
        · simp [pollRecvCompletion, MergeQueue.popRecv, hop, deliver, RecvEventOp.completion,
            consumed]
        · simp [deliver, hop, RecvEventOp.completion]
      | cons x posts =>
        obtain ⟨msg, hr, hm⟩ := ih posts
        refine ⟨msg, ?_, ?_⟩
        · simp [pollRecvCompletion, MergeQueue.popRecv, hop, hr, deliver,
            RecvEventOp.completion, consumed]
        · simpa [deliver, hop, RecvEventOp.completion] using hm

end QueuePairMessageTracker

end OpenRdma
