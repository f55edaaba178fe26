import Mathlib.Tactic

/-!
# Trails

A relation moves a cursor over an element.  A list of elements is a trail from one cursor to another
if each of its elements takes up where the one before left off.  What a queue holds between a
producer and a consumer is a trail from the consumer's cursor to the producer's, and what has been
emitted is a trail from the beginning.
-/

namespace OpenRdma

variable {σ α : Type} {R S : σ → α → σ → Prop} {s t : σ}

/-- The elements that lead from one cursor to another. -/
def Trail (R : σ → α → σ → Prop) : σ → List α → σ → Prop
  | s, [], t => s = t
  | s, a :: as, t => ∃ u, R s a u ∧ Trail R u as t

@[simp] lemma trail_nil : Trail R s [] t ↔ s = t := Iff.rfl

variable {as : List α}

lemma trail_cons {a : α} : Trail R s (a :: as) t ↔ ∃ u, R s a u ∧ Trail R u as t :=
  Iff.rfl

/-- Two trails one after another. -/
lemma trail_append {as bs : List α} :
    Trail R s (as ++ bs) t ↔ ∃ u, Trail R s as u ∧ Trail R u bs t := by
  induction as generalizing s with
  | nil => simp
  | cons a as ih =>
    simp only [List.cons_append, trail_cons, ih]
    constructor
    · rintro ⟨u, ha, v, hu, hv⟩
      exact ⟨v, ⟨u, ha, hu⟩, hv⟩
    · rintro ⟨v, ⟨u, ha, hu⟩, hv⟩
      exact ⟨u, ha, v, hu, hv⟩

/-- An element more. -/
lemma trail_concat {a : α} : Trail R s (as ++ [a]) t ↔ ∃ u, Trail R s as u ∧
    R u a t := by
  simp [trail_append, trail_cons]

/-- Every element is passed somewhere. -/
lemma Trail.mem {a : α} (h : Trail R s as t) (ha : a ∈ as) : ∃ u v, R u a v := by
  obtain ⟨before, after, rfl⟩ := List.append_of_mem ha
  obtain ⟨u, -, v, hR, -⟩ := trail_append.1 h
  exact ⟨u, v, hR⟩

/-- A relation that holds more often has more trails. -/
lemma Trail.mono (hRS : ∀ s a t, R s a t → S s a t) (h : Trail R s as t) : Trail S s as t := by
  induction as generalizing s with
  | nil => exact h
  | cons a as ih =>
    obtain ⟨u, ha, hu⟩ := h
    exact ⟨u, hRS s a u ha, ih hu⟩

end OpenRdma
