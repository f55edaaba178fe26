import Mathlib.Tactic

/-!
# Bounded queues

A queue of at most `n` elements, as hardware has them: `enq` is refused when the queue is full,
`deq` when it is empty.  The bound is part of the type, so that how much can be under way in a
pipeline of queues follows from the types of the queues alone.
-/

namespace OpenRdma

/-- A queue with room for `n` elements. -/
structure Fifo (α : Type) (n : ℕ) where
  elems : List α
  bounded : elems.length ≤ n

namespace Fifo

variable {α : Type} {n : ℕ}

def empty : Fifo α n := ⟨[], Nat.zero_le n⟩

def notEmpty (q : Fifo α n) : Bool := !q.elems.isEmpty

def notFull (q : Fifo α n) : Bool := decide (q.elems.length < n)

/-- The head of the queue. -/
def first (q : Fifo α n) : Option α := q.elems.head?

/-- One more at the end, if there is room. -/
def enq (q : Fifo α n) (a : α) : Option (Fifo α n) :=
  if h : q.elems.length < n then
    some ⟨q.elems ++ [a], by rw [List.length_append]; exact h⟩
  else none

/-- The head and the rest, if there is one. -/
def deq : Fifo α n → Option (α × Fifo α n)
  | ⟨[], _⟩ => none
  | ⟨a :: rest, h⟩ => some (a, ⟨rest, (Nat.le_succ _).trans h⟩)

/-- The first element of a queue goes to the end of another one. -/
def move {k : ℕ} (q : Fifo α n) (r : Fifo α k) : Option (Fifo α n × Fifo α k) := do
  let (a, q') ← q.deq
  return (q', ← r.enq a)

@[simp] lemma elems_empty : (empty : Fifo α n).elems = [] := rfl

variable {q q' : Fifo α n}

/-- An accepted element is the last one. -/
lemma enq_eq_some {a : α} (h : q.enq a = some q') : q'.elems = q.elems ++ [a] := by
  unfold enq at h
  split at h
  · cases h
    rfl
  · cases h

lemma enq_of_lt {q : Fifo α n} (h : q.elems.length < n) (a : α) : ∃ q', q.enq a = some q' :=
  ⟨_, dif_pos h⟩

/-- A queue that is not empty gives room. -/
lemma deq_of_pos {q : Fifo α n} (h : 0 < q.elems.length) :
    ∃ a q', q.deq = some (a, q') ∧ q'.elems.length < n := by
  rcases q with ⟨_ | ⟨a, rest⟩, hq⟩
  · cases h
  · exact ⟨a, _, rfl, hq⟩

/-- The element taken is the first one. -/
lemma deq_eq_some {a : α} (h : q.deq = some (a, q')) : q.elems = a :: q'.elems := by
  rcases q with ⟨_ | ⟨b, rest⟩, hq⟩
  · cases h
  · cases h
    rfl

lemma first_of_deq {a : α} (h : q.deq = some (a, q')) : q.first = some a := by
  rw [first, deq_eq_some h, List.head?_cons]

/-- What is moved is the head of the one queue. -/
lemma move_eq_some {k : ℕ} {r r' : Fifo α k} (h : q.move r = some (q', r')) :
    ∃ a, q.elems = a :: q'.elems ∧ r'.elems = r.elems ++ [a] := by
  cases hq : q.deq with
  | none => simp [move, hq] at h
  | some x =>
    cases hr : r.enq x.1 with
    | none => simp [move, hq, hr] at h
    | some y =>
      simp only [move, hq, hr, Option.bind_eq_bind, Option.bind_some, Option.pure_def,
        Option.some.injEq, Prod.mk.injEq] at h
      obtain ⟨rfl, rfl⟩ := h
      exact ⟨x.1, deq_eq_some hq, enq_eq_some hr⟩

/-- Two queues in a row hold the same after a move. -/
lemma move_elems {k : ℕ} {r r' : Fifo α k} (h : q.move r = some (q', r')) :
    r'.elems ++ q'.elems = r.elems ++ q.elems := by
  obtain ⟨a, hq, hr⟩ := move_eq_some h
  simp [hq, hr]

/-! ## Weights -/

variable {ι : Type} [Fintype ι] [DecidableEq ι] {f : α → ℕ} {q q' : Fifo α n} {a : α}

/-- The elements of a queue, counted by a weight. -/
def weight (f : α → ℕ) (q : Fifo α n) : ℕ := (q.elems.map f).sum

/-- The elements of a family of queues, counted by a weight. -/
def weights (f : α → ℕ) (qs : ι → Fifo α n) : ℕ := ∑ i, (qs i).weight f

@[simp] lemma weight_empty : (empty : Fifo α n).weight f = 0 := rfl

/-- An element more weighs more. -/
lemma weight_enq (h : q.enq a = some q') : q'.weight f = q.weight f + f a := by
  simp [weight, enq_eq_some h]

lemma weight_deq (h : q.deq = some (a, q')) : q.weight f = f a + q'.weight f := by
  simp [weight, deq_eq_some h]

/-- Two sums whose terms agree but for one. -/
lemma sum_change {F G : ι → ℕ} (x : ι) (h : ∀ y, y ≠ x → F y = G y) :
    ∑ y, F y + G x = ∑ y, G y + F x := by
  rw [← Finset.add_sum_erase _ F (Finset.mem_univ x),
    ← Finset.add_sum_erase _ G (Finset.mem_univ x),
    Finset.sum_congr rfl fun y hy => h y (Finset.ne_of_mem_erase hy)]
  ring

/-- The weight of a family when one of its queues changes. -/
lemma weights_update (qs : ι → Fifo α n) (i : ι) (q : Fifo α n) :
    weights f (Function.update qs i q) + (qs i).weight f = weights f qs + q.weight f := by
  have := sum_change (F := fun j => (Function.update qs i q j).weight f)
    (G := fun j => (qs j).weight f) i fun j hj => by simp [hj]
  simpa [weights] using this

variable {qs : ι → Fifo α n}

lemma weights_enq {i : ι} (h : (qs i).enq a = some q) :
    weights f (Function.update qs i q) = weights f qs + f a := by
  have h1 := weights_update (f := f) qs i q
  have h2 := weight_enq (f := f) h
  omega

lemma weights_deq {i : ι} (h : (qs i).deq = some (a, q)) :
    weights f qs = f a + weights f (Function.update qs i q) := by
  have h1 := weights_update (f := f) qs i q
  have h2 := weight_deq (f := f) h
  omega

/-- A queue of weight zero holds only elements of weight zero. -/
lemma weight_eq_zero : q.weight f = 0 ↔ ∀ a ∈ q.elems, f a = 0 := by
  simp [weight, List.sum_eq_zero_iff]

omit [DecidableEq ι] in
/-- Nothing weighs anything. -/
lemma weights_eq_zero : weights f qs = 0 ↔ ∀ i, ∀ a ∈ (qs i).elems, f a = 0 := by
  simp [weights, weight_eq_zero]

end Fifo

end OpenRdma
