import OpenRdma.Core.KeyedQueue
import OpenRdma.Core.Trail
import OpenRdma.Workers.Retransmission

/-!
# The packets of queued requests

The packets that are sent again for a request have consecutive PSNs from that of the request on.  Of
requests that follow each other the packets make one stream of positions, in which a comparison of
PSNs selects what a comparison of positions does.
-/

namespace OpenRdma

/-! ## Packets and their positions -/

/-- The request can be cut into packets: its MTU is known, and its ranges end below `2 ^ 64`. -/
def SendQueueElem.Cuttable (e : SendQueueElem) : Prop :=
  ∃ p, convertIbvMtuToU16 e.qpParam.pmtu = some p ∧ e.wr.Sendable p.toUInt64.toNat ∧ e.wr.LocalFits

/-- How many packets the request has. -/
def SendQueueElem.retryCount (e : SendQueueElem) : ℕ := e.retries.length

/-- The packets of the request have the positions from `s` to `t`. -/
def Spans (s : ℕ) (e : SendQueueElem) (t : ℕ) : Prop :=
  e.psn = Psn.ofPos s ∧ e.Cuttable ∧ t = s + e.retryCount

/-- The packets of some requests, with their positions. -/
def stream : ℕ → List SendQueueElem → List (ℕ × WrChunk)
  | _, [] => []
  | s, e :: es => (List.range' s e.retryCount).zip e.retries ++ stream (s + e.retryCount) es

/-- The packets at the positions from `lo` to `hi`. -/
def between (lo hi : ℕ) (l : List (ℕ × WrChunk)) : List WrChunk :=
  (l.filter fun x => lo ≤ x.1 ∧ x.1 < hi).map Prod.snd

section Spans

variable {s t : ℕ} {e : SendQueueElem} {es : List SendQueueElem}

/-- **The packets of a request**: there is at least one, they have the PSNs of their positions, and
cutting the request does not panic. -/
lemma Spans.retries (h : Spans s e t) :
    0 < e.retryCount ∧
    (∀ (k : ℕ) (c : WrChunk), e.retries[k]? = some c → c.psn = Psn.ofPos (s + k)) ∧
    ∃ it, wrPacketFragmenter e.wr e.qpParam e.psn = .ok it ∧ it.collect.crashed = none ∧
      it.collect.items.map WrChunk.setIsRetry = e.retries := by
  obtain ⟨hpsn, ⟨p, hp, hs, hl⟩, -⟩ := h
  have hretries := e.retries_eq hpsn hp hs hl
  refine ⟨?_, fun k c hc => ?_, ?_⟩
  · rw [SendQueueElem.retryCount, hretries, List.length_map, List.length_range]
    exact blockCount_pos _ _ _
  · rw [hretries, List.getElem?_map] at hc
    obtain ⟨k', hk', rfl⟩ := Option.map_eq_some_iff.mp hc
    obtain rfl : k' = k := by
      obtain ⟨hlt, hget⟩ := List.getElem?_eq_some_iff.mp hk'
      rw [List.getElem_range] at hget
      exact hget.symm
    rfl
  · obtain ⟨it, hit, -, -, hcrash⟩ :
        ∃ it, wrPacketFragmenter e.wr e.qpParam (Psn.ofPos s) = .ok it ∧ _ :=
      wrPacketFragmenter_eq hs hp rfl
    rw [← hpsn] at hit
    refine ⟨it, hit, hcrash.mpr hl, ?_⟩
    rw [SendQueueElem.retries, hit]

lemma Spans.lt (h : Spans s e t) : s < t := by
  have hpos := h.retries.1
  obtain ⟨-, -, rfl⟩ := h
  omega

lemma trail_le (h : Trail Spans s es t) : s ≤ t := by
  induction es generalizing s with
  | nil => exact h.le
  | cons e es ih =>
    obtain ⟨u, he, hes⟩ := h
    exact he.lt.le.trans (ih hes)

lemma trail_unique {u : ℕ} (h : Trail Spans s es t) (h' : Trail Spans s es u) : t = u := by
  induction es generalizing s with
  | nil => exact (trail_nil.mp h).symm.trans (trail_nil.mp h')
  | cons e es ih =>
    obtain ⟨v, ⟨-, -, rfl⟩, hes⟩ := h
    obtain ⟨v', ⟨-, -, rfl⟩, hes'⟩ := h'
    exact ih hes hes'

/-- Where the requests of a trail start and end. -/
lemma Trail.spans (h : Trail Spans s es t) (he : e ∈ es) : ∃ w v, Spans w e v ∧ s ≤ w ∧ v ≤ t := by
  obtain ⟨before, after, rfl⟩ := List.append_of_mem he
  obtain ⟨w, hbefore, v, hspan, hafter⟩ := trail_append.mp h
  exact ⟨w, v, hspan, trail_le hbefore, trail_le hafter⟩

lemma stream_append {as bs : List SendQueueElem} {u : ℕ} (h : Trail Spans s as u) :
    stream s (as ++ bs) = stream s as ++ stream u bs := by
  induction as generalizing s with
  | nil => rw [trail_nil.mp h]; rfl
  | cons e as ih =>
    obtain ⟨v, ⟨-, -, rfl⟩, hes⟩ := h
    rw [List.cons_append, stream, ih hes, stream, List.append_assoc]

/-- The positions of a stream. -/
lemma stream_fst (h : Trail Spans s es t) : (stream s es).map Prod.fst = List.range' s (t - s) := by
  induction es generalizing s with
  | nil =>
    rw [trail_nil.mp h, Nat.sub_self]
    rfl
  | cons e es ih =>
    obtain ⟨u, ⟨-, -, rfl⟩, hes⟩ := h
    have hle := trail_le hes
    have hzip :
      ((List.range' s e.retryCount).zip e.retries).map Prod.fst = List.range' s e.retryCount :=
      List.map_fst_zip (by rw [List.length_range']; rfl)
    rw [stream, List.map_append, hzip, ih hes, List.range'_append_1]
    congr 1
    omega

lemma stream_bounds (h : Trail Spans s es t) {x : ℕ × WrChunk} (hx : x ∈ stream s es) :
    s ≤ x.1 ∧ x.1 < t := by
  have hpos : x.1 ∈ List.range' s (t - s) := by
    rw [← stream_fst h]
    exact List.mem_map_of_mem hx
  have hle := trail_le h
  rw [List.mem_range'_1] at hpos
  omega

lemma stream_psn (h : Trail Spans s es t) {x : ℕ × WrChunk} (hx : x ∈ stream s es) :
    x.2.psn = Psn.ofPos x.1 := by
  induction es generalizing s with
  | nil => exact absurd hx List.not_mem_nil
  | cons e es ih =>
    obtain ⟨u, hspan, hes⟩ := h
    rcases List.mem_append.mp hx with hx | hx
    · obtain ⟨k, hk⟩ := List.mem_iff_getElem?.mp hx
      rw [List.getElem?_zip_eq_some] at hk
      obtain ⟨hpos, hc⟩ := hk
      rw [hspan.retries.2.1 k x.2 hc]
      obtain ⟨hlt, hget⟩ := List.getElem?_eq_some_iff.mp hpos
      rw [List.getElem_range', Nat.one_mul] at hget
      rw [hget]
    · obtain ⟨-, -, rfl⟩ := hspan
      exact ih hes hx

lemma exists_mem_stream (h : Trail Spans s es t) {n : ℕ} (hs : s ≤ n) (ht : n < t) :
    ∃ c, (n, c) ∈ stream s es := by
  have hn : n ∈ (stream s es).map Prod.fst := by
    rw [stream_fst h, List.mem_range'_1]
    omega
  obtain ⟨⟨_, c⟩, hc, rfl⟩ := List.mem_map.mp hn
  exact ⟨c, hc⟩

/-- The packets of a request but for the first one. -/
lemma Spans.mem_tail (h : Spans s e t) {c : WrChunk} (hc : c ∈ e.retries.tail) :
    ∃ n, s < n ∧ n < t ∧ c.psn = Psn.ofPos n := by
  obtain ⟨k, hk⟩ := List.mem_iff_getElem?.mp hc
  rw [List.getElem?_tail] at hk
  have hlt : k + 1 < e.retryCount := (List.getElem?_eq_some_iff.mp hk).1
  have hpsn := h.retries.2.1 (k + 1) c hk
  obtain ⟨-, -, rfl⟩ := h
  exact ⟨s + (k + 1), by omega, by omega, hpsn⟩

lemma Spans.exists_mem_tail (h : Spans s e t) {n : ℕ} (hs : s < n) (ht : n < t) :
    ∃ c ∈ e.retries.tail, c.psn = Psn.ofPos n := by
  have hlt : n - s < e.retryCount := by
    obtain ⟨-, -, rfl⟩ := h
    omega
  obtain ⟨c, hget⟩ : ∃ c, e.retries[n - s]? = some c := ⟨_, List.getElem?_eq_getElem hlt⟩
  refine ⟨c, List.mem_iff_getElem?.mpr ⟨n - s - 1, ?_⟩, ?_⟩
  · rw [List.getElem?_tail, show n - s - 1 + 1 = n - s by omega, hget]
  · rw [h.retries.2.1 _ _ hget, show s + (n - s) = n by omega]

/-- Cutting the requests of a trail yields their packets. -/
lemma packetsOf_trail (h : Trail Spans s es t) :
    (packetsOf es).crashed = none ∧
    (packetsOf es).items.map WrChunk.setIsRetry = (stream s es).map Prod.snd := by
  induction es generalizing s with
  | nil => exact ⟨rfl, rfl⟩
  | cons e es ih =>
    obtain ⟨u, hspan, hes⟩ := h
    obtain ⟨it, hit, hcrash, hitems⟩ := hspan.retries.2.2
    obtain ⟨-, -, rfl⟩ := hspan
    obtain ⟨hnone, hrest⟩ := ih hes
    have hzip : ((List.range' s e.retryCount).zip e.retries).map Prod.snd = e.retries :=
      List.map_snd_zip (by rw [List.length_range']; exact Nat.le_refl _)
    simp only [packetsOf, hit, hcrash]
    refine ⟨hnone, ?_⟩
    rw [List.map_append, hitems, hrest, stream, List.map_append, hzip]

end Spans

/-! ## Cutting a stream -/

lemma between_append (lo hi : ℕ) (l l' : List (ℕ × WrChunk)) :
    between lo hi (l ++ l') = between lo hi l ++ between lo hi l' := by
  rw [between, List.filter_append, List.map_append]
  rfl

lemma between_eq_nil {lo hi : ℕ} {l : List (ℕ × WrChunk)} (h : ∀ x ∈ l, ¬ (lo ≤ x.1 ∧ x.1 < hi)) :
    between lo hi l = [] := by
  rw [between, List.filter_eq_nil_iff.mpr fun x hx => by simpa using h x hx]
  rfl

lemma mem_between {lo hi : ℕ} {l : List (ℕ × WrChunk)} {c : WrChunk} :
    c ∈ between lo hi l ↔ ∃ x, (x, c) ∈ l ∧ lo ≤ x ∧ x < hi := by
  simp only [between, List.mem_map, List.mem_filter, decide_eq_true_eq, Prod.exists,
    exists_eq_right]

section Cutting

variable {l : List (ℕ × WrChunk)} {s n : ℕ}

/-- The positions of the stream count up, and its packets have their PSNs. -/
structure Numbered (l : List (ℕ × WrChunk)) : Prop where
  sorted : (l.map Prod.fst).Pairwise (· < ·)
  psn : ∀ x ∈ l, x.2.psn = Psn.ofPos x.1

lemma numbered_stream {es : List SendQueueElem} {t : ℕ} (h : Trail Spans s es t) :
    Numbered (stream s es) :=
  ⟨by rw [stream_fst h]; exact List.pairwise_lt_range', fun _ => stream_psn h⟩

/-- The stream as a queue that is ordered by the positions. -/
def Numbered.queue (h : Numbered l) : KeyedQueue WrChunk := ⟨l, List.pairwise_map.1 h.sorted⟩

/-- To compare with the PSN of a position that is near is to compare positions. -/
lemma Numbered.psn_lt (h : Numbered l) (hnear : ∀ x ∈ l, SerialNear (2 ^ 23) x.1 n) :
    ∀ x ∈ l, decide (x.2.psn < Psn.ofPos n) = decide (x.1 < n) := by
  intro x hx
  rw [h.psn x hx]
  exact decide_eq_decide.2 (Psn.lt_ofPos (hnear x hx))

/-- Skipping the packets before a position that is near all of them. -/
lemma Numbered.dropWhile (h : Numbered l) (hnear : ∀ x ∈ l, SerialNear (2 ^ 23) x.1 n) :
    (l.map Prod.snd).dropWhile (fun c => c.psn < Psn.ofPos n)
      = (l.filter fun x => n ≤ x.1).map Prod.snd := by
  have hdrop := h.queue.dropWhile_entries (KeyedQueue.downClosed_lt n) (h.psn_lt hnear)
  simp only [← decide_not, not_lt] at hdrop
  rw [List.dropWhile_map]
  exact congrArg (List.map Prod.snd) hdrop

/-- Taking the packets before a position that is near all of them. -/
lemma Numbered.takeWhile (h : Numbered l) (hnear : ∀ x ∈ l, SerialNear (2 ^ 23) x.1 n) :
    (l.map Prod.snd).takeWhile (fun c => c.psn < Psn.ofPos n)
      = (l.filter fun x => x.1 < n).map Prod.snd := by
  have htake := h.queue.takeWhile_entries (KeyedQueue.downClosed_lt n) (h.psn_lt hnear)
  rw [List.takeWhile_map]
  exact congrArg (List.map Prod.snd) htake

end Cutting

end OpenRdma
