import Mathlib.Tactic

/-!
# Stages joined by queues

A stage of a pipeline takes what the stage before it put out, in order, and puts out something for
each.  What has been put in is then what has been worked off, element by element, followed by
what is still in the queues.
-/

namespace OpenRdma

variable {α β : Type} {R S : α → β → Prop} {all pending : List α} {done : List β} {a : α} {b : β}

/-- An element of a list that has grown is an old one or the last one. -/
lemma getElem?_concat_cases {l : List α} {x : α} {j : ℕ} (h : (l ++ [x])[j]? = some a) :
    l[j]? = some a ∨ j = l.length ∧ a = x := by
  rw [List.getElem?_append] at h
  split at h
  · exact .inl h
  · next hj =>
    obtain ⟨hlt, hx⟩ := List.getElem?_eq_some_iff.1 h
    have hlt' : j - l.length < 1 := hlt
    exact .inr ⟨by omega, by simpa using hx.symm⟩

/-- Every output belongs to the input of the same place, and the other inputs are pending. -/
def Follows (R : α → β → Prop) (all : List α) (done : List β) (pending : List α) : Prop :=
  ∃ taken, all = taken ++ pending ∧ List.Forall₂ R taken done

lemma follows_nil : Follows R [] [] [] := ⟨[], rfl, .nil⟩

namespace Follows

/-- An input more. -/
lemma push (h : Follows R all done pending) (a : α) :
    Follows R (all ++ [a]) done (pending ++ [a]) := by
  obtain ⟨taken, rfl, hR⟩ := h
  exact ⟨taken, by simp, hR⟩

/-- An input is worked off. -/
lemma pop (h : Follows R all done (a :: pending)) (hab : R a b) :
    Follows R all (done ++ [b]) pending := by
  obtain ⟨taken, rfl, hR⟩ := h
  exact ⟨taken ++ [a], by simp, List.rel_append hR (.cons hab .nil)⟩

/-- The input that an output is for. -/
lemma get (h : Follows R all done pending) {j : ℕ} (hb : done[j]? = some b) :
    ∃ a, all[j]? = some a ∧ R a b := by
  obtain ⟨taken, rfl, hR⟩ := h
  obtain ⟨hj, rfl⟩ := List.getElem?_eq_some_iff.1 hb
  have hlt : j < taken.length := hR.length_eq ▸ hj
  refine ⟨taken.get ⟨j, hlt⟩, ?_, hR.get hlt hj⟩
  rw [List.getElem?_append_left hlt]
  exact List.getElem?_eq_getElem hlt

end Follows

/-- The first `n` inputs have been worked off, and the others are pending. -/
def Past (n : ℕ) (all pending : List α) : Prop := ∃ taken, all = taken ++ pending ∧ taken.length = n

lemma past_zero : Past 0 pending pending := ⟨[], rfl, rfl⟩

namespace Past

variable {n : ℕ}

/-- An element more. -/
lemma push (h : Past n all pending) (a : α) : Past n (all ++ [a]) (pending ++ [a]) := by
  obtain ⟨taken, rfl, hn⟩ := h
  exact ⟨taken, by simp, hn⟩

/-- An element is worked off. -/
lemma pop (h : Past n all (a :: pending)) : Past (n + 1) all pending := by
  obtain ⟨taken, rfl, rfl⟩ := h
  exact ⟨taken ++ [a], by simp, by simp⟩

/-- The next pending input. -/
lemma get (h : Past n all (a :: pending)) : all[n]? = some a := by
  obtain ⟨taken, rfl, rfl⟩ := h
  simp

end Past

end OpenRdma
