import Mathlib.Tactic

/-!
# Computations that may stop with an error

`Except` for code whose assertions panic: `require` is an assertion, `bind_eq_ok` and
`require_eq_ok` say what a computation that did not stop has passed, and `foldlM_eq_ok` is the same
for a sequence of calls.
-/

namespace OpenRdma

namespace Checked

variable {ε α β : Type}

/-- An assertion. -/
def require (c : Prop) [Decidable c] (e : ε) : Except ε Unit := if c then .ok () else .error e

lemma require_eq_ok {c : Prop} [Decidable c] {e : ε} {u : Unit} (h : require c e = .ok u) : c := by
  rw [require] at h
  split at h
  · assumption
  · cases h

lemma require_of {c : Prop} [Decidable c] (e : ε) (h : c) : require c e = .ok () := if_pos h

/-- Both parts of a computation that did not stop. -/
lemma bind_eq_ok {x : Except ε α} {f : α → Except ε β} {b : β} (h : (x >>= f) = .ok b) :
    ∃ a, x = .ok a ∧ f a = .ok b := by
  cases x with
  | error e => cases h
  | ok a => exact ⟨a, rfl, h⟩

/-- Calls that did not stop, one by one. -/
lemma mapM_getElem? {f : α → Except ε β} {as : List α} {bs : List β} (h : as.mapM f = .ok bs)
    {i : ℕ} {a : α} (ha : as[i]? = some a) : ∃ b, bs[i]? = some b ∧ f a = .ok b := by
  induction as generalizing bs i with
  | nil => cases ha
  | cons c as ih =>
    rw [List.mapM_cons] at h
    obtain ⟨b, hb, h⟩ := bind_eq_ok h
    obtain ⟨bs', hbs, h⟩ := bind_eq_ok h
    cases h
    cases i with
    | zero =>
      cases ha
      exact ⟨b, rfl, hb⟩
    | succ i => exact ih hbs ha

/-- A sequence of calls that did not stop, by its last call. -/
lemma foldlM_snoc_eq_ok {f : β → α → Except ε β} {s t : β} {as : List α} {a : α}
    (h : (as ++ [a]).foldlM f s = .ok t) : ∃ u, as.foldlM f s = .ok u ∧ f u a = .ok t := by
  rw [List.foldlM_append] at h
  obtain ⟨u, hu, h⟩ := bind_eq_ok h
  obtain ⟨t', ht, h⟩ := bind_eq_ok h
  obtain rfl : t' = t := Except.ok.inj h
  exact ⟨u, hu, ht⟩

end Checked

end OpenRdma
