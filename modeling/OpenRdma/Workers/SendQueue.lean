import OpenRdma.Core.BinarySearch
import OpenRdma.Workers.PacketStream

/-!
# The queue of requests that may be sent again

The retransmit worker queues the requests of a queue pair in the order of their PSNs.  An
acknowledgement drops those before it, but for the last request that starts before the acknowledged
PSN: that one may reach past it.  A request kept like this may start far behind the window, so far
that the comparison of PSNs takes it for a later one; the binary search does not notice, because the
second request is where it is taken to be.

* **`acks_keep_unacked`** — no request with an unacknowledged packet is dropped, and sending
  everything again sends exactly the packets from the acknowledged position on.
* **`range_exact_iff`** — sending a range again sends exactly the packets of the range, unless a
  request starts before the range and reaches into it.
-/

namespace OpenRdma

/-! ## Searching -/

/-- The search finds the end of the first part, also when only the first element is out of place. -/
def PartitionPoint.Halving (pp : PartitionPoint) : Prop :=
  ∀ p a b, Halves p a b → pp.point p (a ++ b) = a.length

/-- The search of the standard library.  A deque is stored in two slices, of which the first one is
not empty; where it is split is up to its past. -/
def PartitionPoint.std (split : List SendQueueElem → ℕ) : PartitionPoint where
  point p l := ringSearch p (split l + 1) l
  le_length p l := ringSearch_le p _ l
  eq_of_partitioned p l h := by
    have hpass : ∀ x ∈ l.takeWhile p, p x = true :=
      fun x hx => List.all_eq_true.mp (List.all_takeWhile (p := p)) x hx
    have hhalves : Halves p (l.takeWhile p) (l.dropWhile p) :=
      ⟨fun x hx => hpass x (List.mem_of_mem_tail hx), h, .inl hpass⟩
    have hsearch := ringSearch_eq hhalves (Nat.succ_pos (split l))
    rwa [List.takeWhile_append_dropWhile] at hsearch

lemma PartitionPoint.std_halving (split : List SendQueueElem → ℕ) : (std split).Halving :=
  fun _ a b h => ringSearch_eq h (Nat.succ_pos (split (a ++ b)))

/-! ## Sequences of tasks -/

/-- Tasks of the queue pair `qpn` that record the requests `reqs` and acknowledge packets.  The
packets of the requests have the positions from `start` to `next` without gaps, the packets before
`base` are acknowledged, and the window between stays below `2 ^ 23`. -/
inductive Built (qpn : UInt32) (start : ℕ) :
    List PacketRetransmitTask → List SendQueueElem → ℕ → ℕ → Prop where
  | fresh : start < 2 ^ 23 → Built qpn start [] [] 0 start
  | newWr {tasks reqs base next e} : Built qpn start tasks reqs base next → e.psn = Psn.ofPos next →
      e.Cuttable → next + e.retryCount < base + 2 ^ 23 →
      Built qpn start (tasks ++ [.newWr qpn e]) (reqs ++ [e]) base (next + e.retryCount)
  | ack {tasks reqs base next n} : Built qpn start tasks reqs base next → base ≤ n → n ≤ next →
      Built qpn start (tasks ++ [.ack qpn (Psn.ofPos n)]) reqs n next

/-- The requests with a packet at the position `base` or later. -/
def unacked (base : ℕ) : ℕ → List SendQueueElem → List SendQueueElem
  | _, [] => []
  | s, e :: es =>
    if base < s + e.retryCount then e :: unacked base (s + e.retryCount) es else unacked base
      (s + e.retryCount) es

section Unacked

variable {base s t : ℕ} {es : List SendQueueElem}

lemma unacked_append {as bs : List SendQueueElem} (h : Trail Spans s as t) :
    unacked base s (as ++ bs) = unacked base s as ++ unacked base t bs := by
  induction as generalizing s with
  | nil => rw [trail_nil.mp h]; rfl
  | cons e as ih =>
    obtain ⟨v, ⟨-, -, rfl⟩, hes⟩ := h
    rw [List.cons_append, unacked, ih hes, unacked]
    split <;> rfl

lemma unacked_eq_nil (h : Trail Spans s es t) (ht : t ≤ base) : unacked base s es = [] := by
  induction es generalizing s with
  | nil => rfl
  | cons e es ih =>
    obtain ⟨v, ⟨-, -, rfl⟩, hes⟩ := h
    have hle := trail_le hes
    rw [unacked, if_neg (by omega), ih hes]

lemma unacked_eq_self (h : Trail Spans s es t) (hs : base ≤ s) : unacked base s es = es := by
  induction es generalizing s with
  | nil => rfl
  | cons e es ih =>
    obtain ⟨v, hspan, hes⟩ := h
    have hlt := hspan.lt
    obtain ⟨-, -, rfl⟩ := hspan
    rw [unacked, if_pos (by omega), ih hes (by omega)]

end Unacked

/-! ## The queue -/

/-- The requests `a` lead from `s` to `u`; all of them start before `n`, and they end at `n` or
later. -/
structure StartsBefore (n s : ℕ) (a : List SendQueueElem) (u : ℕ) : Prop where
  trail : Trail Spans s a u
  le : n ≤ u
  starts : ∀ l x r w, a = l ++ x :: r → Trail Spans s l w → w < n

/-- A trail is cut where the requests start at `n` or later. -/
lemma Trail.cut {n s t : ℕ} {es : List SendQueueElem} (h : Trail Spans s es t) (hn : n ≤ t) :
    ∃ a b u, es = a ++ b ∧ StartsBefore n s a u ∧ Trail Spans u b t := by
  induction es generalizing s with
  | nil =>
    obtain rfl := trail_nil.mp h
    exact ⟨[], [], s, rfl, ⟨rfl, hn, by simp⟩, rfl⟩
  | cons e es ih =>
    by_cases hs : n ≤ s
    · exact ⟨[], e :: es, s, rfl, ⟨rfl, hs, by simp⟩, h⟩
    obtain ⟨v, hspan, hes⟩ := h
    obtain ⟨a, b, u, rfl, ha, hb⟩ := ih hes
    refine ⟨e :: a, b, u, rfl, ⟨⟨v, hspan, ha.trail⟩, ha.le, fun l x r w heq hl => ?_⟩, hb⟩
    rcases List.append_eq_cons_iff.mp heq.symm with ⟨rfl, -⟩ | ⟨l', rfl, rfl⟩
    · rw [← trail_nil.mp hl]
      omega
    · obtain ⟨v', hspan', hl'⟩ := hl
      obtain rfl : v' = v := hspan'.2.2.trans hspan.2.2.symm
      exact ha.starts l' x r w rfl hl'

/-- Two cuts, one after the other. -/
lemma StartsBefore.append {n m s u v : ℕ} {a b : List SendQueueElem} (ha : StartsBefore n s a u)
    (hb : StartsBefore m u b v) (hnm : n ≤ m) : StartsBefore m s (a ++ b) v where
  trail := trail_append.mpr ⟨u, ha.trail, hb.trail⟩
  le := hb.le
  starts l x r w heq hl := by
    rcases List.append_eq_append_iff.mp heq with ⟨l', rfl, hb'⟩ | ⟨r', ha', hr'⟩
    · obtain ⟨u', ha'', hl'⟩ := trail_append.mp hl
      obtain rfl := trail_unique ha.trail ha''
      exact hb.starts l' x r w hb' hl'
    · cases r' with
      | nil =>
        rw [List.append_nil] at ha'
        subst ha'
        obtain rfl := trail_unique ha.trail hl
        exact hb.starts [] x r u hr'.symm rfl
      | cons y r' =>
        obtain ⟨rfl, -⟩ := List.cons.inj hr'
        exact (ha.starts l x r' w ha' hl).trans_le hnm

/-- **What the queue holds**: the recorded requests but for some that were dropped.  These are
acknowledged, and so may be the first one that is queued, but not more. -/
structure QueueInv (start : ℕ) (reqs : List SendQueueElem) (base next first : ℕ)
    (dropped : List SendQueueElem) (sq : IbvSendQueue) : Prop where
  basePsn : sq.basePsn = Psn.ofPos base
  reqs_eq : reqs = dropped ++ sq.inner
  base_le : base ≤ next
  window : next < base + 2 ^ 23
  old : Trail Spans start dropped first
  queued : Trail Spans first sq.inner next
  acked : dropped = [] ∨ first ≤ base
  /-- The first request reaches up to `base`. -/
  head : ∀ e ∈ sq.inner.head?, base ≤ first + e.retryCount
  short : ∀ e ∈ sq.inner, e.retryCount < 2 ^ 23

namespace QueueInv

variable {start base next first n : ℕ} {reqs dropped : List SendQueueElem} {sq : IbvSendQueue}

variable (h : QueueInv start reqs base next first dropped sq)

include h

/-- The requests after the first one start at `base` or later. -/
lemma base_le_start {l r : List SendQueueElem} {w : ℕ} (hinner : sq.inner = l ++ r) (hne : l ≠ [])
    (hl : Trail Spans first l w) : base ≤ w := by
  obtain ⟨x, l, rfl⟩ := List.exists_cons_of_ne_nil hne
  obtain ⟨v, ⟨-, -, rfl⟩, hrest⟩ := hl
  have hhead := h.head x (by rw [hinner]; rfl)
  exact hhead.trans (trail_le hrest)

/-- The test of the search is right for a request near `n`, and for every request after the first
one. -/
lemma test_eq (hbase : base ≤ n) (hnext : n ≤ next) {l r : List SendQueueElem} {e : SendQueueElem}
    {w : ℕ} (hinner : sq.inner = l ++ e :: r) (hl : Trail Spans first l w)
    (hnear : l ≠ [] ∨ n < w + 2 ^ 23) : decide (e.psn < Psn.ofPos n) = decide (w < n) := by
  have hwindow := h.window
  have hqueued := h.queued
  rw [hinner] at hqueued
  obtain ⟨w', hl', v, hspan, hr⟩ := trail_append.mp hqueued
  obtain rfl := trail_unique hl hl'
  have hlt := hspan.lt
  have hle := trail_le hr
  have hnear : n < w + 2 ^ 23 := by
    rcases hnear with hne | hnear
    · have hw := h.base_le_start hinner hne hl
      omega
    · exact hnear
  rw [hspan.1, decide_eq_decide]
  exact Psn.lt_ofPos ⟨by omega, hnear⟩

variable {pp : PartitionPoint}

/-- **The search finds where the requests start at `n` or later.** -/
lemma point_eq (hpp : pp.Halving) (hbase : base ≤ n) (hnext : n ≤ next) {a b : List SendQueueElem}
    {u : ℕ} (hinner : sq.inner = a ++ b) (ha : StartsBefore n first a u)
    (hb : Trail Spans u b next) : pp.point (fun x => x.psn < Psn.ofPos n) sq.inner = a.length := by
  have hu := ha.le
  rw [hinner]
  refine hpp _ a b ⟨fun x hx => ?_, fun x hx => ?_, ?_⟩
  · cases a with
    | nil => exact absurd hx List.not_mem_nil
    | cons y a =>
      obtain ⟨l, r, rfl⟩ := List.append_of_mem (show x ∈ a from hx)
      obtain ⟨w, hl, -⟩ :=
        trail_append.mp (show Trail Spans first ((y :: l) ++ x :: r) u from ha.trail)
      have heq : sq.inner = (y :: l) ++ x :: (r ++ b) := by rw [hinner]; simp
      rw [h.test_eq hbase hnext heq hl (.inl (List.cons_ne_nil y l))]
      exact decide_eq_true (ha.starts (y :: l) x r w rfl hl)
  · obtain ⟨l, r, rfl⟩ := List.append_of_mem hx
    obtain ⟨w, hl, -⟩ := trail_append.mp hb
    have hw := trail_le hl
    have heq : sq.inner = (a ++ l) ++ x :: r := by rw [hinner, List.append_assoc]
    rw [h.test_eq hbase hnext heq (trail_append.mpr ⟨u, ha.trail, hl⟩) (.inr (by omega))]
    exact decide_eq_false (by omega)
  · -- a first request far behind the window is followed by one that starts before `n`
    match a with
    | [] => exact .inl fun x hx => absurd hx List.not_mem_nil
    | [y] =>
      have hshort := h.short y (by rw [hinner]; exact List.mem_cons_self)
      obtain ⟨v, ⟨-, -, rfl⟩, hvu⟩ := ha.trail
      obtain rfl := trail_nil.mp hvu
      refine .inl fun x hx => ?_
      obtain rfl := List.mem_singleton.mp hx
      rw [h.test_eq (l := []) hbase hnext hinner rfl (.inr (by omega))]
      exact decide_eq_true (ha.starts [] x [] first rfl rfl)
    | _ :: _ :: _ => exact .inr (by simp)

/-! ### Tasks -/

/-- A request is recorded. -/
lemma push {e : SendQueueElem} (hpsn : e.psn = Psn.ofPos next) (hcut : e.Cuttable)
    (hwindow : next + e.retryCount < base + 2 ^ 23) :
    QueueInv start (reqs ++ [e]) base (next + e.retryCount) first dropped (sq.push e) where
  basePsn := h.basePsn
  reqs_eq := by rw [h.reqs_eq, List.append_assoc]; rfl
  base_le := h.base_le.trans (Nat.le_add_right _ _)
  window := hwindow
  old := h.old
  queued := trail_concat.mpr ⟨next, h.queued, hpsn, hcut, rfl⟩
  acked := h.acked
  head := by
    intro x hx
    cases hinner : sq.inner with
    | nil =>
      have hx : x = e := by simpa [IbvSendQueue.push, hinner] using hx.symm
      have hqueued := h.queued
      rw [hinner] at hqueued
      obtain rfl := trail_nil.mp hqueued
      rw [hx]
      exact h.base_le.trans (Nat.le_add_right _ _)
    | cons y ys =>
      refine h.head x ?_
      rw [hinner]
      simpa [IbvSendQueue.push, hinner] using hx
  short := by
    intro x hx
    have hle := h.base_le
    rcases List.mem_append.mp hx with hx | hx
    · exact h.short x hx
    · obtain rfl := List.mem_singleton.mp hx
      omega

/-- **An acknowledgement** drops the requests before the last one that starts before it. -/
lemma popUntil (hpp : pp.Halving) (hbase : base ≤ n) (hnext : n ≤ next) :
    ∃ first' dropped', QueueInv start reqs n next first' dropped'
      (sq.popUntil pp (Psn.ofPos n)) := by
  obtain ⟨a, b, u, hinner, ha, hb⟩ := h.queued.cut hnext
  have hwindow : next < n + 2 ^ 23 := h.window.trans_le (Nat.add_le_add_right hbase _)
  have hpoint := h.point_eq hpp hbase hnext hinner ha hb
  rcases List.eq_nil_or_concat' a with rfl | ⟨a', x, rfl⟩
  · obtain rfl := trail_nil.mp ha.trail
    have hsame : sq.popUntil pp (Psn.ofPos n) = ⟨sq.inner, Psn.ofPos n⟩ := by
      rw [IbvSendQueue.popUntil, hpoint]
      rfl
    refine ⟨first, dropped, ?_⟩
    rw [hsame]
    exact ⟨rfl, h.reqs_eq, hnext, hwindow, h.old, h.queued, h.acked.imp_right (·.trans hbase),
      fun e _ => ha.le.trans (Nat.le_add_right _ _), h.short⟩
  · obtain ⟨v, ha', hx⟩ := trail_concat.mp ha.trail
    have hpop : sq.popUntil pp (Psn.ofPos n) = ⟨x :: b, Psn.ofPos n⟩ := by
      rw [IbvSendQueue.popUntil, hpoint, hinner]
      simp
    have hv : v < n := ha.starts a' x [] v rfl ha'
    refine ⟨v, dropped ++ a', ?_⟩
    rw [hpop]
    refine ⟨rfl, ?_, hnext, hwindow, trail_append.mpr ⟨first, h.old, ha'⟩, ⟨u, hx, hb⟩, .inr hv.le,
      ?_, ?_⟩
    · rw [h.reqs_eq, hinner]
      simp
    · intro e he
      obtain rfl : e = x := by simpa using he.symm
      rw [← hx.2.2]
      exact ha.le
    · intro e he
      refine h.short e ?_
      rw [hinner, List.append_assoc]
      exact List.mem_append_right a' he

/-- The requests with a packet at `base` or later are queued, and at most one that is
acknowledged. -/
lemma inner_eq :
    ∃ acked : List SendQueueElem, acked.length ≤ 1 ∧
    sq.inner = acked ++ unacked base start reqs := by
  have hreqs : unacked base start reqs = unacked base first sq.inner := by
    rw [h.reqs_eq, unacked_append h.old]
    rcases h.acked with hnil | hle
    · have hold := h.old
      rw [hnil] at hold ⊢
      rfl
    · rw [unacked_eq_nil h.old hle]
      rfl
  rw [hreqs]
  cases hinner : sq.inner with
  | nil => exact ⟨[], Nat.zero_le _, rfl⟩
  | cons e es =>
    have hqueued := h.queued
    rw [hinner] at hqueued
    obtain ⟨v, ⟨-, -, rfl⟩, hes⟩ := hqueued
    have hrest := unacked_eq_self hes (h.head e (by rw [hinner]; rfl))
    rw [unacked, hrest]
    split
    · exact ⟨[], Nat.zero_le _, rfl⟩
    · exact ⟨[e], Nat.le_refl _, rfl⟩

/-- The packets at `base` or later are packets of queued requests. -/
lemma between_eq {lo hi : ℕ} (hlo : base ≤ lo) :
    between lo hi (stream start reqs) = between lo hi (stream first sq.inner) := by
  rw [h.reqs_eq, stream_append h.old, between_append]
  rcases h.acked with hnil | hle
  · rw [hnil]
    rfl
  · rw [between_eq_nil fun x hx => ?_, List.nil_append]
    have hx := stream_bounds h.old hx
    omega

/-- Sending everything again. -/
lemma resends_all (pp : PartitionPoint) (q : UInt32) :
    (PacketRetransmitWorker.resends pp sq (.retransmitAll q)).crashed = none ∧
    (PacketRetransmitWorker.resends pp sq (.retransmitAll q)).items.map WrChunk.setIsRetry
      = between base next (stream start reqs) := by
  obtain ⟨hcrash, hitems⟩ := packetsOf_trail h.queued
  refine ⟨hcrash, ?_⟩
  have hwindow := h.window
  have hnear : ∀ x ∈ stream first sq.inner, SerialNear (2 ^ 23) x.1 base := by
    intro x hx
    obtain ⟨hlo, hhi⟩ := stream_bounds h.queued hx
    cases hinner : sq.inner with
    | nil => exact absurd hx (by rw [hinner]; exact List.not_mem_nil)
    | cons e es =>
      have hhead := h.head e (by rw [hinner]; rfl)
      have hshort := h.short e (by rw [hinner]; exact List.mem_cons_self)
      exact ⟨by omega, by omega⟩
  have hskip :
    (PacketRetransmitWorker.resends pp sq (.retransmitAll q)).items.map WrChunk.setIsRetry
      = ((packetsOf sq.inner).items.map WrChunk.setIsRetry).dropWhile
        (fun c => c.psn < Psn.ofPos base) := by
    rw [List.dropWhile_map, ← h.basePsn]
    rfl
  rw [hskip, hitems, (numbered_stream h.queued).dropWhile hnear, h.between_eq (Nat.le_refl _),
    between]
  congr 1
  refine List.filter_congr fun x hx => ?_
  have hx := stream_bounds h.queued hx
  simp only [decide_eq_decide]
  omega

/-- The requests that the search finds for a range. -/
lemma range_eq (hpp : pp.Halving)
    {low high : ℕ} (hbase : base ≤ low) (hle : low ≤ high) (hnext : high ≤ next) :
    ∃ a b c u v, sq.inner = a ++ b ++ c ∧ StartsBefore low first a u ∧ StartsBefore high u b v ∧
      Trail Spans v c next ∧ sq.range pp (Psn.ofPos low) (Psn.ofPos high) = b := by
  obtain ⟨a, rest, u, hinner, ha, hrest⟩ := h.queued.cut (hle.trans hnext)
  obtain ⟨b, c, v, rfl, hb, hc⟩ := hrest.cut hnext
  have hassoc : sq.inner = (a ++ b) ++ c := by rw [hinner, List.append_assoc]
  refine ⟨a, b, c, u, v, hassoc, ha, hb, hc, ?_⟩
  have hlow := h.point_eq hpp hbase (hle.trans hnext) hinner ha hrest
  have hhigh := h.point_eq hpp (hbase.trans hle) hnext hassoc (ha.append hb hle) hc
  show (if pp.point _ sq.inner ≤ pp.point _ sq.inner then [] else _) = b
  rw [hlow, hhigh, List.length_append, hinner, List.drop_left, Nat.add_sub_cancel_left,
    List.take_left]
  split
  · exact (List.eq_nil_of_length_eq_zero (by omega)).symm
  · rfl

/-- **Sending a range again** sends its packets from the first request on that starts in the
range. -/
lemma resends_range (hpp : pp.Halving)
    {low high : ℕ} (hbase : base ≤ low)
    (hle : low ≤ high) (hnext : high ≤ next) (q : UInt32) :
    ∃ a b u, sq.inner = a ++ b ∧ StartsBefore low first a u ∧ Trail Spans u b next ∧
      let sent :=
        PacketRetransmitWorker.resends pp sq (.retransmitRange q (Psn.ofPos low) (Psn.ofPos high))
      sent.crashed = none ∧
      sent.items.map WrChunk.setIsRetry = between u high (stream start reqs) := by
  obtain ⟨a, b, c, u, v, hinner, ha, hb, hc, hrange⟩ := h.range_eq hpp hbase hle hnext
  obtain ⟨hcrash, hitems⟩ := packetsOf_trail hb.trail
  refine ⟨a, b ++ c, u, by rw [hinner, List.append_assoc], ha,
    trail_append.mpr ⟨v, hb.trail, hc⟩, ?_⟩
  have hwindow := h.window
  have hu := ha.le
  have hvnext := trail_le hc
  have hnear : ∀ n, base ≤ n → n ≤ next → ∀ x ∈ stream u b, SerialNear (2 ^ 23) x.1 n := by
    intro n hbn hn x hx
    obtain ⟨hlo, hhi⟩ := stream_bounds hb.trail hx
    exact ⟨by omega, by omega⟩
  have hnum := numbered_stream hb.trail
  -- no packet of these requests is before the range
  have hskip : ((stream u b).map Prod.snd).dropWhile (fun c => c.psn < Psn.ofPos low)
      = (stream u b).map Prod.snd := by
    rw [hnum.dropWhile (hnear low hbase (hle.trans hnext)), List.filter_eq_self.mpr fun x hx => ?_]
    have hx := stream_bounds hb.trail hx
    exact decide_eq_true (by omega)
  have hsent : ∀ ps : Packets, ps.items.map WrChunk.setIsRetry = (stream u b).map Prod.snd →
      ((ps.skipWhile fun x => x.psn < Psn.ofPos low).takeWhile
        fun x => x.psn < Psn.ofPos high).items.map WrChunk.setIsRetry
      = ((stream u b).filter fun x => x.1 < high).map Prod.snd := by
    intro ps hps
    rw [← hnum.takeWhile (hnear high (hbase.trans hle) hnext), ← hskip, ← hps, List.dropWhile_map,
      List.takeWhile_map]
    rfl
  refine ⟨?_, ?_⟩
  · show (if _ then _ else _) = _
    rw [hrange]
    split
    · exact hcrash
    · rfl
  · have hbefore : between u high (stream first a) = [] := between_eq_nil fun x hx => by
      have hx := stream_bounds ha.trail hx
      omega
    have hafter : between u high (stream v c) = [] := between_eq_nil fun x hx => by
      have hx := stream_bounds hc hx
      have hv := hb.le
      omega
    have hown :
        between u high (stream u b) = ((stream u b).filter fun x => x.1 < high).map Prod.snd := by
      rw [between]
      congr 1
      refine List.filter_congr fun x hx => ?_
      have hx := stream_bounds hb.trail hx
      simp only [decide_eq_decide]
      omega
    show List.map _ (((packetsOf (sq.range pp _ _)).skipWhile _).takeWhile _).items = _
    rw [hrange, hsent _ hitems, h.between_eq (by omega), hinner,
      stream_append (trail_append.mpr ⟨u, ha.trail, hb.trail⟩), stream_append ha.trail,
      between_append, between_append, hbefore, hafter, hown, List.append_nil, List.nil_append]

/-- The window and the first request are within one round of the PSNs. -/
lemma ofPos_inj {m : ℕ} (hbase : base ≤ n) (hn : n ≤ next) (hfirst : first ≤ m) (hm : m < next)
    (heq : Psn.ofPos m = Psn.ofPos n) : m = n := by
  have hwindow := h.window
  rw [Psn.ofPos_eq_iff] at heq
  cases hinner : sq.inner with
  | nil =>
    have hqueued := h.queued
    rw [hinner] at hqueued
    have hempty := trail_nil.mp hqueued
    omega
  | cons e es =>
    have hhead := h.head e (by rw [hinner]; rfl)
    have hshort := h.short e (by rw [hinner]; exact List.mem_cons_self)
    omega

/-- **The packets from the first start on are all packets of the range**, unless a request starts
before the range and reaches into it. -/
lemma between_eq_iff {low high u : ℕ}
    (hbase : base ≤ low) (hle : low ≤ high) (hnext : high ≤ next) {a b : List SendQueueElem}
    (hinner : sq.inner = a ++ b) (ha : StartsBefore low first a u) (hb : Trail Spans u b next) :
    between u high (stream start reqs) = between low high (stream start reqs) ↔
      low = high ∨ ∀ e ∈ sq.inner, ∀ c ∈ e.retries.tail, c.psn ≠ Psn.ofPos low := by
  have hu := ha.le
  have hfirst := trail_le ha.trail
  rw [h.between_eq (hbase.trans hu), h.between_eq hbase]
  constructor
  · intro heq
    by_contra! hnot
    obtain ⟨hne, e, he, c, hc, hpsn⟩ := hnot
    -- the request has a packet at `low`, which is not its first
    have hstraddles : first ≤ low ∧ ¬ u ≤ low := by
      have hpos : ∀ w v, Spans w e v → first ≤ w → v ≤ next → w < low ∧ low < v := by
        intro w v hspan hw hv
        obtain ⟨n, hwn, hnv, hn⟩ := hspan.mem_tail hc
        have heq := h.ofPos_inj hbase (hle.trans hnext) (by omega) (by omega) (hn.symm.trans hpsn)
        omega
      rw [hinner] at he
      rcases List.mem_append.mp he with he | he
      · obtain ⟨w, v, hspan, hw, hv⟩ := ha.trail.spans he
        have hlow := hpos w v hspan hw (hv.trans (trail_le hb))
        omega
      · obtain ⟨w, v, hspan, hw, hv⟩ := hb.spans he
        have hlow := hpos w v hspan (hfirst.trans hw) hv
        omega
    obtain ⟨d, hd⟩ := exists_mem_stream h.queued hstraddles.1 (show low < next by omega)
    have hmem : d ∈ between u high (stream first sq.inner) := by
      rw [heq]
      exact mem_between.mpr ⟨low, hd, Nat.le_refl _, by omega⟩
    obtain ⟨x, hx, hux, -⟩ := mem_between.mp hmem
    have hsame : Psn.ofPos x = Psn.ofPos low :=
      (stream_psn h.queued hx).symm.trans (stream_psn h.queued hd)
    have hbounds := stream_bounds h.queued hx
    have hxlow := h.ofPos_inj hbase (hle.trans hnext) hbounds.1 hbounds.2 hsame
    omega
  · rintro (rfl | hnone)
    · rw [between_eq_nil fun x _ => by omega, between_eq_nil fun x _ => by omega]
    · rw [between, between]
      congr 1
      refine List.filter_congr fun x hx => ?_
      have hbounds := stream_bounds h.queued hx
      rcases List.eq_nil_or_concat' a with rfl | ⟨a', y, rfl⟩
      · obtain rfl := trail_nil.mp ha.trail
        simp only [decide_eq_decide]
        omega
      · obtain ⟨v, ha', hy⟩ := trail_concat.mp ha.trail
        have hv := ha.starts a' y [] v rfl ha'
        have hlow : u = low := by
          by_contra hne
          obtain ⟨c, hc, hpsn⟩ := hy.exists_mem_tail hv (by omega)
          exact hnone y (by rw [hinner]; simp) c hc hpsn
        rw [hlow]

end QueueInv

/-! ## The worker -/

/-- What one task does to the queue of its queue pair, and what it sends. -/
lemma PacketRetransmitWorker.process_eq (pp : PartitionPoint) (task : PacketRetransmitTask)
    {w : PacketRetransmitWorker} {sq : IbvSendQueue} (hw : w.panicked = none)
    (hsq : w.table.getQp task.qpn = some sq) :
    (w.process pp task).1.panicked = (resends pp sq task).crashed ∧
    (w.process pp task).1.table.getQp task.qpn = some (updates pp sq task) ∧
    (w.process pp task).2 = (resends pp sq task).retries := by
  have hproc : w.process pp task = (⟨w.table.setQp task.qpn (updates pp sq task),
      (resends pp sq task).crashed⟩, (resends pp sq task).retries) := by
    simp [process, hw, hsq]
  rw [hproc]
  exact ⟨rfl, QpTable.getQp_setQp_self hsq _, rfl⟩

/-- **The invariant holds after every task.** -/
lemma Built.queueInv {pp : PartitionPoint} (hpp : pp.Halving) {qpn : UInt32} {start base next : ℕ}
    {tasks : List PacketRetransmitTask} {reqs : List SendQueueElem}
    (h : Built qpn start tasks reqs base next) {w : PacketRetransmitWorker} (hw : w.panicked = none)
    (hfresh : w.table.getQp qpn = some default) :
    (w.run pp tasks).worker.panicked = none ∧
    ∃ sq first dropped, (w.run pp tasks).worker.table.getQp qpn = some sq ∧
      QueueInv start reqs base next first dropped sq := by
  induction h with
  | fresh hstart =>
    refine ⟨hw, default, start, [], hfresh, ?_⟩
    exact ⟨rfl, rfl, Nat.zero_le _, by omega, rfl, rfl, .inl rfl, by simp [default],
      fun e he => absurd he List.not_mem_nil⟩
  | @newWr tasks reqs base next e _ hpsn hcut hwindow ih =>
    obtain ⟨hnone, sq, first, dropped, hsq, hinv⟩ := ih
    rw [PacketRetransmitWorker.run_append]
    obtain ⟨hcrash, hget, -⟩ :=
      PacketRetransmitWorker.process_eq pp (.newWr qpn e) hnone hsq
    exact ⟨hcrash, _, first, dropped, hget, hinv.push hpsn hcut hwindow⟩
  | @ack tasks reqs base next n _ hbase hnext ih =>
    obtain ⟨hnone, sq, first, dropped, hsq, hinv⟩ := ih
    rw [PacketRetransmitWorker.run_append]
    obtain ⟨hcrash, hget, -⟩ :=
      PacketRetransmitWorker.process_eq pp (.ack qpn (Psn.ofPos n)) hnone hsq
    obtain ⟨first', dropped', hinv'⟩ := hinv.popUntil hpp hbase hnext
    exact ⟨hcrash, _, first', dropped', hget, hinv'⟩

/-- A write of some bytes to the address 0, with packets of 256 bytes. -/
def writeAt (psn : Psn) (length : UInt32) : SendQueueElem :=
  ⟨psn, ⟨⟨7, ibvSendSignaled, 0, length, 0, 0, .rdmaWrite⟩, 0, 0⟩,
    { (default : QpParams) with pmtu := 1 }⟩

lemma writeAt_cuttable (psn : Psn) (length : UInt32) : (writeAt psn length).Cuttable := by
  have hlt : length.toNat < 2 ^ 32 := length.toNat_lt
  have hzero : (0 : UInt64).toNat = 0 := rfl
  refine ⟨256, rfl, SendWrRdma.sendable (show convertIbvMtuToU16 1 = some 256 from rfl) ?_, ?_⟩
  · show (0 : UInt64).toNat + length.toNat + 0x10000 < 2 ^ 64
    omega
  · show (0 : UInt64).toNat + length.toNat < 2 ^ 64
    omega

/-- Two writes of two packets, recorded one after the other; the first one is acknowledged. -/
lemma built_two_writes :
    Built 0x100 0 ([] ++ [.newWr 0x100 (writeAt (Psn.ofPos 0) 512)]
        ++ [.newWr 0x100 (writeAt (Psn.ofPos 2) 512)] ++ [.ack 0x100 (Psn.ofPos 2)])
      ([] ++ [writeAt (Psn.ofPos 0) 512] ++ [writeAt (Psn.ofPos 2) 512]) 2 4 := by
  have hzero : (writeAt (Psn.ofPos 0) 512).retryCount = 2 := by decide +kernel
  have htwo : (writeAt (Psn.ofPos 2) 512).retryCount = 2 := by decide +kernel
  have hfirst : Built 0x100 0 _ _ 0 (0 + (writeAt (Psn.ofPos 0) 512).retryCount) :=
    (Built.fresh (by norm_num)).newWr rfl (writeAt_cuttable _ _) (by rw [hzero]; norm_num)
  rw [hzero] at hfirst
  have hsecond : Built 0x100 0 _ _ 0 (2 + (writeAt (Psn.ofPos 2) 512).retryCount) :=
    hfirst.newWr rfl (writeAt_cuttable _ _) (by rw [htwo]; norm_num)
  rw [htwo] at hsecond
  exact hsecond.ack (by norm_num) (by norm_num)

section Worker

variable {pp : PartitionPoint} {qpn : UInt32} {start base next : ℕ}
    {tasks : List PacketRetransmitTask}
  {reqs : List SendQueueElem} {w : PacketRetransmitWorker}

/-- **Acknowledgements never drop what may still have to be sent again.**  After every task the
queue holds, in the order in which they were recorded, the requests with a packet at the
acknowledged position or later, and at most one more before them.  To send everything again then
sends exactly the packets from the acknowledged position on, each once and in the order of their
positions. -/
theorem acks_keep_unacked (hpp : pp.Halving) (h : Built qpn start tasks reqs base next)
    (hw : w.panicked = none) (hfresh : w.table.getQp qpn = some default) :
    ∃ sq, (w.run pp tasks).worker.table.getQp qpn = some sq ∧ sq.basePsn = Psn.ofPos base ∧
      sq.inner <:+ reqs ∧
      (∃ acked : List SendQueueElem, acked.length ≤ 1 ∧
        sq.inner = acked ++ unacked base start reqs) ∧
      ((w.run pp tasks).worker.process pp (.retransmitAll qpn)).1.panicked = none ∧
      ((w.run pp tasks).worker.process pp (.retransmitAll qpn)).2
        = (between base next (stream start reqs)).map .chunk := by
  obtain ⟨hnone, sq, first, dropped, hsq, hinv⟩ := h.queueInv hpp hw hfresh
  obtain ⟨hpanic, -, hsent⟩ :=
    PacketRetransmitWorker.process_eq pp (.retransmitAll qpn) hnone hsq
  obtain ⟨hcrash, hitems⟩ := hinv.resends_all pp qpn
  refine ⟨sq, hsq, hinv.basePsn, ⟨dropped, hinv.reqs_eq.symm⟩, hinv.inner_eq,
    hpanic.trans hcrash, ?_⟩
  rw [hsent, Packets.retries, hitems]

/-- The first write may stay in the queue, but only the second one is sent again. -/
theorem acks_keep_unacked_two_writes :
    let run := (default : PacketRetransmitWorker).run (.std fun _ => 0)
      [.newWr 0x100 (writeAt (Psn.ofPos 0) 512), .newWr 0x100 (writeAt (Psn.ofPos 2) 512),
        .ack 0x100 (Psn.ofPos 2)]
    let e := writeAt (Psn.ofPos 2) 512
    ∃ sq, run.worker.table.getQp 0x100 = some sq ∧
      (∃ acked : List SendQueueElem, acked.length ≤ 1 ∧ sq.inner = acked ++ [e]) ∧
      (run.worker.process (.std fun _ => 0) (.retransmitAll 0x100)).2 = e.retries.map .chunk := by
  obtain ⟨sq, hsq, -, -, hinner, -, hsent⟩ :=
    acks_keep_unacked (w := default) (PartitionPoint.std_halving fun _ => 0) built_two_writes
      rfl rfl
  have hunacked : unacked 2 0 ([] ++ [writeAt (Psn.ofPos 0) 512] ++ [writeAt (Psn.ofPos 2) 512])
      = [writeAt (Psn.ofPos 2) 512] := by decide +kernel
  have hbetween :
    between 2 4 (stream 0 ([] ++ [writeAt (Psn.ofPos 0) 512] ++ [writeAt (Psn.ofPos 2) 512]))
      = (writeAt (Psn.ofPos 2) 512).retries := by decide +kernel
  rw [hunacked] at hinner
  rw [hbetween] at hsent
  exact ⟨sq, hsq, hinner, hsent⟩

/-- **A range is sent again completely unless it begins within a request.**  Of a request that
starts before the range and reaches into it nothing is sent. -/
theorem range_exact_iff (hpp : pp.Halving) (h : Built qpn start tasks reqs base next)
    (hw : w.panicked = none) (hfresh : w.table.getQp qpn = some default) {low high : ℕ}
    (hbase : base ≤ low) (hle : low ≤ high) (hnext : high ≤ next) :
    ∃ sq, (w.run pp tasks).worker.table.getQp qpn = some sq ∧
      (((w.run pp tasks).worker.process pp
          (.retransmitRange qpn (Psn.ofPos low) (Psn.ofPos high))).2
        = (between low high (stream start reqs)).map .chunk ↔
      low = high ∨ ∀ e ∈ sq.inner, ∀ c ∈ e.retries.tail, c.psn ≠ Psn.ofPos low) := by
  obtain ⟨hnone, sq, first, dropped, hsq, hinv⟩ := h.queueInv hpp hw hfresh
  obtain ⟨-, -, hsent⟩ := PacketRetransmitWorker.process_eq pp
    (.retransmitRange qpn (Psn.ofPos low) (Psn.ofPos high)) hnone hsq
  obtain ⟨a, b, u, hinner, ha, hb, -, hitems⟩ := hinv.resends_range hpp hbase hle hnext qpn
  refine ⟨sq, hsq, ?_⟩
  rw [hsent, Packets.retries, hitems, List.map_inj_right fun c d => Output.chunk.inj]
  exact hinv.between_eq_iff hbase hle hnext hinner ha hb

/-- The packets of the second write are a range that begins with a request. -/
theorem range_exact_two_writes :
    let run := (default : PacketRetransmitWorker).run (.std fun _ => 0)
      [.newWr 0x100 (writeAt (Psn.ofPos 0) 512), .newWr 0x100 (writeAt (Psn.ofPos 2) 512),
        .ack 0x100 (Psn.ofPos 2)]
    (run.worker.process (.std fun _ => 0) (.retransmitRange 0x100 (Psn.ofPos 2) (Psn.ofPos 4))).2
      = (writeAt (Psn.ofPos 2) 512).retries.map .chunk := by
  obtain ⟨sq, hsq, hiff⟩ := range_exact_iff (w := default) (PartitionPoint.std_halving fun _ => 0)
    built_two_writes rfl rfl (Nat.le_refl 2) (show 2 ≤ 4 by norm_num) (Nat.le_refl 4)
  have hqueue : sq.inner = [writeAt (Psn.ofPos 0) 512, writeAt (Psn.ofPos 2) 512] := by
    have hrun : (((default : PacketRetransmitWorker).run (.std fun _ => 0)
        ([] ++ [.newWr 0x100 (writeAt (Psn.ofPos 0) 512)] ++
          [.newWr 0x100 (writeAt (Psn.ofPos 2) 512)]
          ++ [.ack 0x100 (Psn.ofPos 2)])).worker.table.getQp 0x100).map IbvSendQueue.inner
        = some [writeAt (Psn.ofPos 0) 512, writeAt (Psn.ofPos 2) 512] := by decide +kernel
    rw [hsq] at hrun
    exact Option.some.inj hrun
  have hbetween :
    between 2 4 (stream 0 ([] ++ [writeAt (Psn.ofPos 0) 512] ++ [writeAt (Psn.ofPos 2) 512]))
      = (writeAt (Psn.ofPos 2) 512).retries := by decide +kernel
  have hsent := hiff.mpr (.inr (by rw [hqueue]; decide +kernel))
  rw [hbetween] at hsent
  exact hsent

end Worker

/-- **A range within a request is not sent again.**  A write of two packets is recorded, and the
second packet is asked for. -/
theorem range_within_request_lost :
    (between 1 2 (stream 0 [writeAt (Psn.ofPos 0) 512])).map WrChunk.psn = [Psn.ofPos 1] ∧
    ∀ pp : PartitionPoint,
      let w := ((default : PacketRetransmitWorker).run pp
        [.newWr 0x100 (writeAt (Psn.ofPos 0) 512)]).worker
      (w.process pp (.retransmitRange 0x100 (Psn.ofPos 1) (Psn.ofPos 2))).2 = [] := by
  refine ⟨by decide +kernel, fun pp => ?_⟩
  intro w
  have hpoint : ∀ n, 0 < n → n < 2 ^ 23 →
      pp.point (fun x => x.psn < Psn.ofPos n) [writeAt (Psn.ofPos 0) 512] = 1 := by
    intro n hpos hn
    have hlt : (writeAt (Psn.ofPos 0) 512).psn < Psn.ofPos n :=
      (Psn.lt_ofPos ⟨Nat.zero_le _, by omega⟩).mpr hpos
    rw [pp.eq_of_partitioned _ _ (by simp [hlt])]
    simp [hlt]
  have hsq : w.table.getQp 0x100 = some ⟨[writeAt (Psn.ofPos 0) 512], default⟩ := rfl
  obtain ⟨-, -, hsent⟩ := PacketRetransmitWorker.process_eq pp
    (.retransmitRange 0x100 (Psn.ofPos 1) (Psn.ofPos 2)) (show w.panicked = none from rfl) hsq
  have hrange :
    IbvSendQueue.range pp ⟨[writeAt (Psn.ofPos 0) 512], default⟩ (Psn.ofPos 1) (Psn.ofPos 2)
      = [] := by
    show (if pp.point _ _ ≤ pp.point _ _ then [] else _) = _
    rw [hpoint 1 (by norm_num) (by norm_num), hpoint 2 (by norm_num) (by norm_num),
      if_pos (Nat.le_refl 1)]
  rw [hsent, PacketRetransmitWorker.resends, hrange]
  rfl

end OpenRdma
