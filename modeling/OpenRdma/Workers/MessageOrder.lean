import OpenRdma.Core.Rules
import OpenRdma.Workers.CompletionQueues

/-!
# The reorder buffer keeps its events in order

A `MessageTracker` compares MSNs on a circle, where "before" is not transitive.  As long as the MSNs
it holds lie in a window of less than half the circle it is: there the comparison is that of the
distances from the start of the window, so the buffer is a `KeyedQueue` of these distances.

* **`messageTracker_ordered`** — the buffer is in order after every sequence of calls.
-/

namespace OpenRdma

/-- Inside a window of half the circle the wrapped order is that of the distances from its start. -/
lemma Msn.lt_iff_of_window {a b base : UInt16} (ha : (a - base).toNat < 0x8000)
    (hb : (b - base).toNat < 0x8000) : (⟨a⟩ : Msn) < ⟨b⟩ ↔ (a - base).toNat < (b - base).toNat := by
  have hat : ∀ m : UInt16, msnAt base (m - base).toNat = m := by
    intro m
    rw [msnAt, UInt16.ofNat_toNat, UInt16.add_comm, UInt16.sub_add_cancel]
  have hlt := Msn.lt_msnAt base (i := (a - base).toNat) (j := (b - base).toNat) ⟨by omega, by omega⟩
  rwa [hat, hat] at hlt

namespace MessageTracker

variable {E : Type} [EventMeta E] {t t' : MessageTracker E} {e : E} {l : List E}

/-- The MSN of an event, with its order. -/
def msnOf (e : E) : Msn := ⟨(EventMeta.msgMeta e).msn⟩

/-- How far an event is from the start of a window. -/
def distance (base : UInt16) (e : E) : ℕ := ((EventMeta.msgMeta e).msn - base).toNat

/-- The MSNs of the events lie in a window smaller than half the circle. -/
def Windowed (l : List E) : Prop := ∃ base : UInt16, ∀ e ∈ l, distance base e < 0x8000

/-- The events are strictly increasing in the wrapped order. -/
def Ordered (l : List E) : Prop := l.Pairwise fun e e' => msnOf e < msnOf e'

/-! ## The buffer as a queue of distances -/

variable {base : UInt16}

lemma distance_inj {e e' : E} : distance base e = distance base e' ↔ msnOf e = msnOf e' := by
  rw [distance, distance, UInt16.toNat_inj, UInt16.sub_left_inj, msnOf, msnOf, Msn.mk.injEq]

/-- The queue behind an ordered buffer. -/
def keyed (base : UInt16) (l : List E) (hbase : ∀ e ∈ l, distance base e < 0x8000)
    (hord : Ordered l) : KeyedQueue E where
  entries := l.map fun e => (distance base e, e)
  sorted := by
    rw [List.pairwise_map]
    refine hord.imp_of_mem ?_
    intro e e' he he' hlt
    exact (Msn.lt_iff_of_window (hbase e he) (hbase e' he')).1 hlt

lemma items_keyed {hbase : ∀ e ∈ l, distance base e < 0x8000} {hord : Ordered l} :
    (keyed base l hbase hord).items = l := by
  simp [KeyedQueue.items, keyed, Function.comp_def]

lemma mem_keys_keyed {hbase : ∀ e ∈ l, distance base e < 0x8000} {hord : Ordered l} :
    distance base e ∈ (keyed base l hbase hord).keys ↔ ∃ e' ∈ l, msnOf e' = msnOf e := by
  simp [KeyedQueue.keys, keyed, distance_inj]

/-- A queue of distances in the window holds its events in order. -/
lemma ordered_items (base : UInt16) {Q : KeyedQueue E}
    (hQ : ∀ p ∈ Q.entries, p.1 = distance base p.2 ∧ p.1 < 0x8000) : Ordered Q.items := by
  rw [Ordered, KeyedQueue.items, List.pairwise_map]
  refine Q.sorted.imp_of_mem ?_
  intro p q hp hq hlt
  obtain ⟨hp, hpw⟩ := hQ p hp
  obtain ⟨hq, hqw⟩ := hQ q hq
  rw [hp] at hpw hlt
  rw [hq] at hqw hlt
  exact (Msn.lt_iff_of_window hpw hqw).2 hlt

/-- **Appending inserts the event at its distance.** -/
lemma append_windowed (hbase : ∀ x ∈ e :: t.inner, distance base x < 0x8000)
    (hord : Ordered t.inner) :
    t.append e =
      { t with inner := ((keyed base t.inner (fun x hx => hbase x (List.mem_cons_of_mem e hx))
      hord).insert (distance base e) e).items } := by
  refine append_keyed ?_ ?_ ?_
  · exact items_keyed.symm
  · intro p hp
    obtain ⟨x, hx, rfl⟩ := List.mem_map.1 hp
    exact Msn.lt_iff_of_window (hbase x (List.mem_cons_of_mem e hx)) (hbase e List.mem_cons_self)
  · intro p hp
    obtain ⟨x, hx, rfl⟩ := List.mem_map.1 hp
    rw [distance_inj, msnOf, msnOf, Msn.mk.injEq]

/-- An event that `append` drops has the MSN of an event that is there. -/
lemma append_cases (t : MessageTracker E) (e : E) :
    (∃ index, t.append e = { t with inner := t.inner.insertIdx index e } ∧ index ≤ t.inner.length) ∨
      (t.append e = t ∧ ∃ e' ∈ t.inner, msnOf e' = msnOf e) := by
  unfold append
  dsimp only
  split
  · exact .inl ⟨_, rfl, Nat.sub_le _ _⟩
  · rename_i hdrop
    refine .inr ⟨rfl, ?_⟩
    simp only [Option.all_eq_true, not_forall, bne_iff_ne, ne_eq, not_not] at hdrop
    obtain ⟨e', he', heq⟩ := hdrop
    exact ⟨e', List.mem_of_getElem? he', congrArg Msn.mk heq⟩

/-- So the window of what is there afterwards is a window for the event too. -/
lemma windowed_cons_of_append (h : Windowed (t.append e).inner) : Windowed (e :: t.inner) := by
  obtain ⟨base, hbase⟩ := h
  refine ⟨base, ?_⟩
  intro x hx
  rcases append_cases t e with ⟨index, happend, hle⟩ | ⟨happend, e', he', heq⟩
  · rw [happend] at hbase
    exact hbase x ((List.mem_insertIdx hle).2 (by simpa using hx))
  · rw [happend] at hbase
    rcases List.mem_cons.1 hx with rfl | hx
    · rw [← distance_inj.2 heq]
      exact hbase e' he'
    · exact hbase x hx

/-- An MSN that is there is not added. -/
lemma append_present (hwin : Windowed t.inner) (hord : Ordered t.inner)
    (h : ∃ e' ∈ t.inner, msnOf e' = msnOf e) : t.append e = t := by
  obtain ⟨base, hbase⟩ := hwin
  obtain ⟨e', he', heq⟩ := h
  have hbase' : ∀ x ∈ e :: t.inner, distance base x < 0x8000 := by
    rintro x (_ | ⟨_, hx⟩)
    · rw [← distance_inj.2 heq]
      exact hbase e' he'
    · exact hbase x hx
  rw [append_windowed hbase' hord, KeyedQueue.insert, dif_pos (mem_keys_keyed.2 ⟨e', he', heq⟩),
    items_keyed]

/-- A new MSN goes to its place among the others, which stay as they are. -/
lemma append_new (hwin : Windowed (e :: t.inner)) (hord : Ordered t.inner)
    (h : ∀ e' ∈ t.inner, msnOf e' ≠ msnOf e) :
    ∃ before after, t.inner = before ++ after ∧
    t.append e = { t with inner := before ++ e :: after } ∧
      Ordered (before ++ e :: after) := by
  obtain ⟨base, hbase⟩ := hwin
  have hbase' : ∀ x ∈ t.inner, distance base x < 0x8000 :=
    fun x hx => hbase x (List.mem_cons_of_mem e hx)
  have hkey : distance base e ∉ (keyed base t.inner hbase' hord).keys := by
    intro hmem
    obtain ⟨e', he', heq⟩ := mem_keys_keyed.1 hmem
    exact h e' he' heq
  have happend := append_windowed hbase hord
  have hsplit := congrArg (List.map Prod.snd)
    ((keyed base t.inner hbase' hord).splitAt_entries (distance base e))
  have hinsert : Ordered ((keyed base t.inner hbase' hord).insert (distance base e) e).items := by
    refine ordered_items base ?_
    intro p hp
    rcases KeyedQueue.mem_insert.1 hp with hp | ⟨-, rfl⟩
    · obtain ⟨x, hx, rfl⟩ := List.mem_map.1 hp
      exact ⟨rfl, hbase' x hx⟩
    · exact ⟨rfl, hbase e List.mem_cons_self⟩
  rw [← KeyedQueue.items, items_keyed, List.map_append] at hsplit
  simp only [KeyedQueue.insert, dif_neg hkey, KeyedQueue.items, List.map_append,
    List.map_cons] at happend hinsert
  exact ⟨_, _, hsplit, happend, hinsert⟩

/-! ## Calls -/

/-- A call of the buffer. -/
inductive TrackerCall (E : Type) where
  | append (e : E)
  | ack (psn : Psn)
  | pop

/-- What a call leaves behind, and the event it returns. -/
def call (t : MessageTracker E) : TrackerCall E → MessageTracker E × Option E
  | .append e => (t.append e, none)
  | .ack psn => (t.ack psn, none)
  | .pop =>
    match t.pop with
    | .item e t' => (t', some e)
    | _ => (t, none)

def step (t : MessageTracker E) (c : TrackerCall E) : Option (MessageTracker E) := some (t.call c).1

/-- The events that some calls return, in order. -/
def released (t : MessageTracker E) : List (TrackerCall E) → List E
  | [] => []
  | c :: cs => (t.call c).2.toList ++ (t.call c).1.released cs

/-- A pop returns the front, once the base has reached its end. -/
lemma pop_eq_item (h : t.pop = .item e t') :
    t.inner = e :: t'.inner ∧ (EventMeta.msgMeta e).endPsn ≤ t.basePsn := by
  unfold pop at h
  split at h
  · cases h
  · rename_i front rest hinner
    split at h
    · rename_i hend
      cases h
      exact ⟨hinner, hend⟩
    · cases h

/-- One call keeps the order. -/
lemma Ordered.step {c : TrackerCall E} (hord : Ordered t.inner)
    (hwin : Windowed (t.call c).1.inner) : Ordered (t.call c).1.inner := by
  cases c with
  | append e =>
    have hcons := windowed_cons_of_append hwin
    by_cases hnew : ∃ e' ∈ t.inner, msnOf e' = msnOf e
    · obtain ⟨base, hbase⟩ := hcons
      have hsame := append_present ⟨base, fun x hx => hbase x (List.mem_cons_of_mem e hx)⟩ hord hnew
      simpa only [call, hsame] using hord
    · push Not at hnew
      obtain ⟨before, after, -, happend, hafter⟩ := append_new hcons hord hnew
      simpa only [call, happend] using hafter
  | ack psn => exact hord
  | pop =>
    simp only [call]
    split
    · rename_i e t' hpop
      rw [(pop_eq_item hpop).1] at hord
      exact (List.pairwise_cons.1 hord).2
    · exact hord

/-- Without appends, what is returned is the front of the buffer. -/
lemma released_isPrefix {cs : List (TrackerCall E)} (h : ∀ e, TrackerCall.append e ∉ cs) :
    t.released cs <+: t.inner := by
  induction cs generalizing t with
  | nil => exact List.nil_prefix
  | cons c cs ih =>
    have ih : (t.call c).1.released cs <+: (t.call c).1.inner :=
      ih fun e he => h e (List.mem_cons_of_mem c he)
    cases c with
    | append e => exact absurd List.mem_cons_self (h e)
    | ack psn => exact ih
    | pop =>
      simp only [released, call] at ih ⊢
      split at ih
      · rename_i e t' hpop
        rw [(pop_eq_item hpop).1]
        simpa using ih
      · exact ih

/-- The MSNs present after the call lie in a window. -/
def StaysWindowed (t : MessageTracker E) (c : TrackerCall E) : Prop := Windowed (t.call c).1.inner

/-- **The reorder buffer is sorted and free of duplicates.**  After every sequence of calls during
which the MSNs present always lie in a window smaller than half the circle, the buffer is strictly
increasing in the wrapped order.  Appending an MSN that is present changes nothing, so that the
first event stays; appending a new one keeps all the others.  A pop returns the first event in that
order, and only if its end is at or before the acknowledged PSN; and pops without an append between
them return the events in order. -/
theorem messageTracker_ordered {calls : List (TrackerCall E)}
    (hfire : fire step (default : MessageTracker E) calls = some t)
    (hwin : Meets step StaysWindowed (default : MessageTracker E) calls) :
    Ordered t.inner ∧
    (∀ e, (∃ e' ∈ t.inner, msnOf e' = msnOf e) → t.append e = t) ∧
    (∀ e, Windowed (t.append e).inner → (∀ e' ∈ t.inner, msnOf e' ≠ msnOf e) →
      ∃ before after, t.inner = before ++ after ∧
        t.append e = { t with inner := before ++ e :: after }) ∧
    (∀ e t', t.pop = .item e t' →
      t.inner = e :: t'.inner ∧ (EventMeta.msgMeta e).endPsn ≤ t.basePsn ∧
        ∀ e' ∈ t'.inner, msnOf e < msnOf e') ∧
    ∀ cs : List (TrackerCall E), (∀ e, TrackerCall.append e ∉ cs) →
      t.released cs <+: t.inner ∧ Ordered (t.released cs) := by
  have hstart : Ordered (default : MessageTracker E).inner ∧
    Windowed (default : MessageTracker E).inner :=
    ⟨List.Pairwise.nil, 0, nofun⟩
  have hinv : Ordered t.inner ∧ Windowed t.inner := by
    refine fire_rule_meets (P := fun t => Ordered t.inner ∧ Windowed t.inner) ?_ hstart hwin hfire
    rintro t c t' ⟨hord, -⟩ hok hs
    cases hs
    exact ⟨hord.step hok, hok⟩
  obtain ⟨hord, hwin⟩ := hinv
  refine ⟨hord, ?_, ?_, ?_, ?_⟩
  · intro e hpresent
    exact append_present hwin hord hpresent
  · intro e hwin' hnew
    obtain ⟨before, after, hinner, happend, -⟩ :=
      append_new (windowed_cons_of_append hwin') hord hnew
    exact ⟨before, after, hinner, happend⟩
  · intro e t' hpop
    obtain ⟨hinner, hend⟩ := pop_eq_item hpop
    have hfirst := hord
    rw [hinner] at hfirst
    exact ⟨hinner, hend, (List.pairwise_cons.1 hfirst).1⟩
  · intro cs hcs
    have hpre := released_isPrefix (t := t) hcs
    exact ⟨hpre, hord.sublist hpre.sublist⟩

/-- A request with a given MSN, whose last packet ends at a given PSN. -/
def sampleRequest (msn : UInt16) (endPos : ℕ) (wrId : UInt64) : SendEvent :=
  ⟨0, .writeSignaled, ⟨msn, Psn.ofPos endPos⟩, wrId⟩

/-- Three requests around the wrap of the MSN come in the wrong order and one of them twice; then
the first two are acknowledged. -/
def wrappingCalls : List (TrackerCall SendEvent) :=
  [.append (sampleRequest 0xFFFF 4 1), .append (sampleRequest 1 12 3),
    .append (sampleRequest 0 8 2), .append (sampleRequest 1 12 4), .ack (Psn.ofPos 8)]

theorem messageTracker_ordered_wrapping :
    ∃ t, fire step (default : MessageTracker SendEvent) wrappingCalls = some t ∧
      t.inner.map (·.wrId) = [1, 2, 3] ∧ Ordered t.inner ∧
      Ordered (t.released [.pop, .pop, .pop]) ∧ (t.released [.pop, .pop, .pop]).map (·.wrId) =
        [1, 2] := by
  have hview : (fire step (default : MessageTracker SendEvent) wrappingCalls).map
      (fun t => (t.inner.map (·.wrId), (t.released [.pop, .pop, .pop]).map (·.wrId)))
        = some ([1, 2, 3], [1, 2]) := by decide +kernel
  have hwin : Meets step (fun (t : MessageTracker SendEvent) c =>
      ∀ e ∈ (t.call c).1.inner, distance 0xFFF0 e < 0x8000) default wrappingCalls := by
    decide +kernel
  obtain ⟨t, hfire, ht⟩ := Option.map_eq_some_iff.1 hview
  obtain ⟨hinner, hreleased⟩ := Prod.mk.inj ht
  obtain ⟨hord, -, -, -, hpops⟩ := messageTracker_ordered hfire (hwin.imp fun t c h => ⟨0xFFF0, h⟩)
  exact ⟨t, hfire, hinner, hord, (hpops _ (by simp)).2, hreleased⟩

end MessageTracker

end OpenRdma
