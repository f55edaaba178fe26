import Mathlib.Tactic

/-!
# `while let` loops over an explicit state

A loop that polls its state until there is nothing left, collecting what each turn yields.  A turn
may also crash, which stops the loop where it is.

* `Turn`, `drain` — one turn, and the loop with a bound on the number of turns.
* **`drain_rule`** — reasoning about the loop: when every turn that yields something lowers a
  measure and the bound exceeds that measure, the bound is never what ends the loop, and a property
  of a loop that stops at once extends to the whole loop one turn at a time.
* `drain_items` — the same for a property of the single items.
-/

namespace OpenRdma

/-- What one turn of a loop over a state `σ` does. -/
inductive Turn (σ α : Type) where
  | done
  | item (a : α) (s : σ)
  | crash (msg : String)

/-- What a loop leaves behind: the items it yielded, its state, and the crash that ended it. -/
structure Drained (σ α : Type) where
  items : List α
  state : σ
  crashed : Option String

/-- `while let Some(a) = f(&mut s)`, for at most the given number of turns. -/
def drain {σ α : Type} (f : σ → Turn σ α) : ℕ → σ → Drained σ α
  | 0, s => ⟨[], s, none⟩
  | n + 1, s =>
    match f s with
    | .done => ⟨[], s, none⟩
    | .crash msg => ⟨[], s, some msg⟩
    | .item a s' => { drain f n s' with items := a :: (drain f n s').items }

/-- **The loop rule.**  `P s r` is what holds between the state a loop starts in and what it leaves
behind. -/
theorem drain_rule {σ α : Type} {f : σ → Turn σ α} {μ : σ → ℕ} {P : σ → Drained σ α → Prop}
    (hμ : ∀ s a s', f s = .item a s' → μ s' < μ s)
    (hdone : ∀ s, f s = .done → P s ⟨[], s, none⟩)
    (hcrash : ∀ s msg, f s = .crash msg → P s ⟨[], s, some msg⟩)
    (hitem : ∀ s a s' r, f s = .item a s' → P s' r → P s { r with items := a :: r.items })
    (n : ℕ) (s : σ) (hn : μ s < n) : P s (drain f n s) := by
  induction n generalizing s with
  | zero => exact absurd hn (Nat.not_lt_zero _)
  | succ n ih =>
    rw [drain]
    cases hf : f s with
    | done => exact hdone s hf
    | crash msg => exact hcrash s msg hf
    | item a s' => exact hitem s a s' _ hf (ih s' (by have := hμ s a s' hf; omega))

/-- What holds of the item of every turn holds of all that a loop yields. -/
lemma drain_items {σ α : Type} {f : σ → Turn σ α} {P : α → Prop}
    (h : ∀ s a s', f s = .item a s' → P a) (n : ℕ) (s : σ) : ∀ a ∈ (drain f n s).items, P a := by
  induction n generalizing s with
  | zero => simp [drain]
  | succ n ih =>
    rw [drain]
    cases hf : f s with
    | done => simp
    | crash msg => simp
    | item a s' =>
      intro b hb
      rcases List.mem_cons.mp hb with rfl | hb
      · exact h s b s' hf
      · exact ih s' b hb

end OpenRdma
