import Mathlib.Tactic

/-!
# Queues ordered by a key

A queue whose entries carry strictly increasing keys.  This is the abstract reading of a reorder
buffer: what is inserted goes to the place its key gives it, a key already present is dropped, and
the front can be released up to some key.

* **`split_entries`** — a test on keys that only ever turns from true to false cuts the queue in
  two.
-/

namespace OpenRdma

/-- A queue whose keys increase. -/
structure KeyedQueue (α : Type) where
  entries : List (ℕ × α)
  sorted : entries.Pairwise (fun p q => p.1 < q.1)

namespace KeyedQueue

variable {α : Type}

def empty : KeyedQueue α := ⟨[], List.Pairwise.nil⟩

def keys (Q : KeyedQueue α) : List ℕ := Q.entries.map Prod.fst

/-- What the queue holds, in order: the concrete queue behind it. -/
def items (Q : KeyedQueue α) : List α := Q.entries.map Prod.snd

/-- Keep the entries whose key passes the test. -/
def keep (Q : KeyedQueue α) (p : ℕ → Bool) : KeyedQueue α :=
  ⟨Q.entries.filter (fun e => p e.1), Q.sorted.filter _⟩

/-- What is inserted stands between smaller and larger keys. -/
lemma sorted_insert (Q : KeyedQueue α) (i : ℕ) (a : α) (h : i ∉ Q.keys) :
    (Q.entries.filter (fun e => decide (e.1 < i)) ++ (i, a) ::
      Q.entries.filter (fun e => decide (¬ e.1 < i))).Pairwise (fun p q => p.1 < q.1) := by
  have habove : ∀ e ∈ Q.entries.filter (fun e => decide (¬ e.1 < i)), i < e.1 := by
    intro e he
    obtain ⟨hmem, hge⟩ := List.mem_filter.mp he
    have hne : e.1 ≠ i := fun heq => h (List.mem_map.mpr ⟨e, hmem, heq⟩)
    have hge' : ¬ e.1 < i := by simpa using hge
    omega
  have hbelow : ∀ e ∈ Q.entries.filter (fun e => decide (e.1 < i)), e.1 < i := by
    intro e he
    simpa using (List.mem_filter.mp he).2
  refine List.pairwise_append.mpr ⟨Q.sorted.filter _, ?_, ?_⟩
  · exact List.pairwise_cons.mpr ⟨habove, Q.sorted.filter _⟩
  · intro e he e' he'
    rcases List.mem_cons.mp he' with rfl | he'
    · exact hbelow e he
    · exact (hbelow e he).trans (habove e' he')

/-- Put an entry at the place of its key, unless the key is already there. -/
def insert (Q : KeyedQueue α) (i : ℕ) (a : α) : KeyedQueue α :=
  if h : i ∈ Q.keys then Q
  else ⟨Q.entries.filter (fun e => decide (e.1 < i)) ++ (i, a) ::
      Q.entries.filter (fun e => decide (¬ e.1 < i)), Q.sorted_insert i a h⟩

/-! ## Membership -/

variable {Q : KeyedQueue α} {i : ℕ}

lemma mem_keys : i ∈ Q.keys ↔ ∃ a, (i, a) ∈ Q.entries := by
  simp [keys]

variable {p : ℕ → Bool} {e : ℕ × α}

/-- What is kept. -/
lemma mem_keep : e ∈ (Q.keep p).entries ↔ e ∈ Q.entries ∧ p e.1 = true :=
  List.mem_filter

/-- What is in the queue after an insertion. -/
lemma mem_insert {a : α} :
    e ∈ (Q.insert i a).entries ↔ e ∈ Q.entries ∨ (i ∉ Q.keys ∧ e = (i, a)) := by
  unfold insert
  split
  · next h => simp [h]
  · next h =>
      simp only [List.mem_append, List.mem_cons, List.mem_filter, decide_eq_true_eq]
      by_cases hlt : e.1 < i
      · simp only [hlt]; tauto
      · simp only [hlt]; tauto

lemma mem_keys_insert {i j : ℕ} {a : α} : j ∈ (Q.insert i a).keys ↔ j ∈ Q.keys ∨ j = i := by
  simp only [mem_keys, mem_insert, Prod.mk.injEq]
  by_cases hi : ∃ a, (i, a) ∈ Q.entries
  · have : j = i → ∃ a, (j, a) ∈ Q.entries := fun h => h ▸ hi
    simp only [hi, not_true, false_and, or_false]
    exact ⟨Or.inl, fun h => h.elim id this⟩
  · simp only [hi, not_false_iff, true_and, exists_or, exists_and_left, exists_eq, and_true]

/-- No two entries share a key. -/
lemma nodup_keys (Q : KeyedQueue α) : Q.keys.Nodup :=
  (List.pairwise_map.mpr (Q.sorted.imp (fun h => ne_of_lt h)))

/-- A key has one entry. -/
lemma eq_of_key (Q : KeyedQueue α) {e e' : ℕ × α} (he : e ∈ Q.entries) (he' : e' ∈ Q.entries)
    (h : e.1 = e'.1) : e = e' :=
  List.inj_on_of_nodup_map Q.nodup_keys he he' h

/-- A key above all others goes to the back. -/
lemma insert_of_lt {a : α} (h : ∀ j ∈ Q.keys, j < i) :
    (Q.insert i a).entries = Q.entries ++ [(i, a)] := by
  have hi : i ∉ Q.keys := fun hm => lt_irrefl _ (h i hm)
  have hlt : ∀ e ∈ Q.entries, e.1 < i := fun e he => h e.1 (List.mem_map_of_mem he)
  rw [insert, dif_neg hi]
  simp only
  rw [List.filter_eq_self.mpr (fun e he => by simpa using hlt e he),
    List.filter_eq_nil_iff.mpr (fun e he => by simpa using hlt e he)]

/-- A key above all others goes to the end. -/
lemma keys_insert_of_lt {a : α} (h : ∀ j ∈ Q.keys, j < i) :
    (Q.insert i a).keys = Q.keys ++ [i] := by
  rw [keys, insert_of_lt h, List.map_append]
  rfl

lemma keys_keep (Q : KeyedQueue α) (p : ℕ → Bool) : (Q.keep p).keys = Q.keys.filter p := by
  rw [keys, keys, List.filter_map]
  rfl

/-! ## Neighbours -/

/-- The value at a key. -/
def lookup (Q : KeyedQueue α) (i : ℕ) : Option α := (Q.entries.find? (·.1 == i)).map Prod.snd

/-- The entry with the greatest key not above `i`. -/
def lastLe (Q : KeyedQueue α) (i : ℕ) : Option (ℕ × α) :=
  (Q.entries.filter (fun e => decide (e.1 ≤ i))).getLast?

/-- The entry with the least key not below `i`. -/
def firstGe (Q : KeyedQueue α) (i : ℕ) : Option (ℕ × α) :=
  Q.entries.find? (fun e => decide (i ≤ e.1))

lemma lookup_eq_some {a : α} : Q.lookup i = some a ↔ (i, a) ∈ Q.entries := by
  constructor
  · intro h
    obtain ⟨e, he, rfl⟩ := Option.map_eq_some_iff.mp h
    obtain rfl : e.1 = i := by simpa using List.find?_some he
    exact List.mem_of_find?_eq_some he
  · intro h
    cases hf : Q.entries.find? (·.1 == i) with
    | none => exact absurd (List.find?_eq_none.mp hf _ h) (by simp)
    | some e =>
      have hi : e.1 = i := by simpa using List.find?_some hf
      have heq := Q.eq_of_key (List.mem_of_find?_eq_some hf) h hi
      rw [lookup, hf, heq]
      rfl

/-- What the last entry up to a key is. -/
lemma lastLe_eq_some (h : Q.lastLe i = some e) :
    e ∈ Q.entries ∧ e.1 ≤ i ∧ ∀ e' ∈ Q.entries, e'.1 ≤ i → e'.1 ≤ e.1 := by
  obtain ⟨front, hfront⟩ := List.getLast?_eq_some_iff.mp h
  have hmem : e ∈ Q.entries.filter (fun e => decide (e.1 ≤ i)) := by
    rw [hfront]
    exact List.mem_append_right _ (List.mem_singleton_self e)
  obtain ⟨hmem, hle⟩ := List.mem_filter.mp hmem
  refine ⟨hmem, by simpa using hle, fun e' he' hle' => ?_⟩
  have hmem' : e' ∈ front ++ [e] := by
    rw [← hfront]
    exact List.mem_filter.mpr ⟨he', by simpa using hle'⟩
  have hsorted := Q.sorted.filter (fun e => decide (e.1 ≤ i))
  rw [hfront] at hsorted
  rcases List.mem_append.mp hmem' with hin | hin
  · exact ((List.pairwise_append.mp hsorted).2.2 e' hin e (List.mem_singleton_self e)).le
  · rw [List.mem_singleton.mp hin]

lemma lastLe_eq_none (h : Q.lastLe i = none) : ∀ e ∈ Q.entries, i < e.1 := by
  intro e he
  have hnil := List.getLast?_eq_none_iff.mp h
  have := List.filter_eq_nil_iff.mp hnil e he
  simpa using this

/-- What the first entry from a key on is. -/
lemma firstGe_eq_some (h : Q.firstGe i = some e) :
    e ∈ Q.entries ∧ i ≤ e.1 ∧ ∀ e' ∈ Q.entries, i ≤ e'.1 → e.1 ≤ e'.1 := by
  obtain ⟨hle, before, after, heq, hbefore⟩ := List.find?_eq_some_iff_append.mp h
  refine ⟨heq ▸ List.mem_append_right _ List.mem_cons_self, by simpa using hle, ?_⟩
  intro e' he' hle'
  rw [heq] at he'
  have hsorted := Q.sorted
  rw [heq] at hsorted
  rcases List.mem_append.mp he' with hin | hin
  · have := hbefore e' hin
    simp only [Bool.not_eq_true', decide_eq_false_iff_not] at this
    omega
  · rcases List.mem_cons.mp hin with rfl | hin
    · exact le_rfl
    · exact ((List.pairwise_cons.mp (List.pairwise_append.mp hsorted).2.1).1 e' hin).le

lemma firstGe_eq_none (h : Q.firstGe i = none) : ∀ e ∈ Q.entries, e.1 < i := by
  intro e he
  have := List.find?_eq_none.mp h e he
  simpa using this

/-! ## Splitting at the front -/

/-- A test on keys that holds up to some key and not after it. -/
def DownClosed (p : ℕ → Bool) : Prop := ∀ i j, i < j → p j = true → p i = true

lemma downClosed_lt (i : ℕ) : DownClosed (fun j => decide (j < i)) := by
  intro j k hjk hk
  simp only [decide_eq_true_eq] at hk ⊢
  omega

/-- Popping the front while such a test holds. -/
lemma takeWhile_entries (Q : KeyedQueue α) (hp : DownClosed p) {q : ℕ × α → Bool}
    (hq : ∀ e ∈ Q.entries, q e = p e.1) : Q.entries.takeWhile q = (Q.keep p).entries := by
  obtain ⟨l, hl⟩ := Q
  show l.takeWhile _ = l.filter _
  induction l with
  | nil => rfl
  | cons e l ih =>
    obtain ⟨he, hl⟩ := List.pairwise_cons.mp hl
    have hqe := hq e List.mem_cons_self
    have ih := ih hl (fun e' he' => hq e' (List.mem_cons_of_mem _ he'))
    by_cases h : p e.1 = true
    · simp only [List.takeWhile_cons, List.filter_cons, hqe, h, if_true, ih]
    · simp only [List.takeWhile_cons, List.filter_cons, hqe, h]
      rw [eq_comm]
      exact List.filter_eq_nil_iff.mpr (fun e' he' hpe => h (hp _ _ (he e' he') hpe))

/-- What is left after it. -/
lemma dropWhile_entries (Q : KeyedQueue α) (hp : DownClosed p) {q : ℕ × α → Bool}
    (hq : ∀ e ∈ Q.entries, q e = p e.1) :
    Q.entries.dropWhile q = (Q.keep (fun i => !p i)).entries := by
  obtain ⟨l, hl⟩ := Q
  show l.dropWhile _ = l.filter _
  induction l with
  | nil => rfl
  | cons e l ih =>
    obtain ⟨he, hl⟩ := List.pairwise_cons.mp hl
    have hqe := hq e List.mem_cons_self
    have ih := ih hl (fun e' he' => hq e' (List.mem_cons_of_mem _ he'))
    by_cases h : p e.1 = true
    · simp only [List.dropWhile_cons, List.filter_cons, hqe, h, if_true, Bool.not_true, ih]
      rfl
    · simp only [List.dropWhile_cons, hqe, h]
      refine (List.filter_eq_self.mpr fun e' he' => ?_).symm
      rcases List.mem_cons.mp he' with rfl | he'
      · simpa using h
      · have : ¬ p e'.1 = true := fun hpe => h (hp _ _ (he e' he') hpe)
        simpa using this

/-- **An ordered queue is what passes such a test, followed by what does not.** -/
lemma split_entries (Q : KeyedQueue α) (hp : DownClosed p) :
    Q.entries = (Q.keep p).entries ++ (Q.keep (fun i => !p i)).entries := by
  rw [← Q.takeWhile_entries hp (fun e _ => rfl), ← Q.dropWhile_entries hp (fun e _ => rfl),
    List.takeWhile_append_dropWhile]

/-- The entries below a key, and the others. -/
lemma splitAt_entries (Q : KeyedQueue α) (i : ℕ) :
    Q.entries = Q.entries.filter (fun e => decide (e.1 < i))
      ++ Q.entries.filter (fun e => decide (¬ e.1 < i)) := by
  simpa only [keep, decide_not] using Q.split_entries (downClosed_lt i)

/-- A key is in the queue exactly if it heads the entries not below it. -/
lemma mem_keys_iff_head (Q : KeyedQueue α) (i : ℕ) :
    i ∈ Q.keys ↔ ∃ p, (Q.entries.filter (fun e => decide (¬ e.1 < i))).head? = some p ∧
    p.1 = i := by
  constructor
  · intro hi
    obtain ⟨a, ha⟩ := mem_keys.mp hi
    have hmem : (i, a) ∈ Q.entries.filter (fun e => decide (¬ e.1 < i)) :=
      List.mem_filter.mpr ⟨ha, by simp⟩
    have hsorted := Q.sorted.filter (fun e => decide (¬ e.1 < i))
    cases hC : Q.entries.filter (fun e => decide (¬ e.1 < i)) with
    | nil => rw [hC] at hmem; exact absurd hmem List.not_mem_nil
    | cons c C =>
      have hc : ¬ c.1 < i := by
        have : c ∈ Q.entries.filter (fun e => decide (¬ e.1 < i)) := hC ▸ List.mem_cons_self
        simpa using (List.mem_filter.mp this).2
      rw [hC] at hmem hsorted
      refine ⟨c, rfl, ?_⟩
      rcases List.mem_cons.mp hmem with hci | hmem
      · rw [← hci]
      · have : c.1 < i := (List.pairwise_cons.mp hsorted).1 _ hmem
        exact absurd this hc
  · rintro ⟨p, hp, rfl⟩
    exact List.mem_map_of_mem (List.mem_of_mem_filter (List.mem_of_head? hp))

/-- Inserting at the end of a first part. -/
lemma insertIdx_length_append {β : Type} (A C : List β) (b : β) :
    (A ++ C).insertIdx A.length b = A ++ b :: C := by
  induction A with
  | nil => rfl
  | cons a A ih => simp [ih]

end KeyedQueue

end OpenRdma
