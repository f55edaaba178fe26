import Mathlib.Tactic

/-!
# A window of a stream in a ring of slots

Position `p` of an unbounded stream is kept in slot `p` modulo the number of slots.  Positions less
than one round apart are in different slots, so a ring of `n` slots holds any window of at most `n`
positions, and writing a position outside the window, but within `n` of its start, leaves it alone.
-/

namespace OpenRdma

variable {n : ℕ} {β : Type}

/-- The slot of a position. -/
def slotOf (n : ℕ) [NeZero n] (p : ℕ) : Fin n := ⟨p % n, Nat.mod_lt p (NeZero.pos n)⟩

/-- Two positions share a slot. -/
lemma slotOf_eq_iff [NeZero n] {p q : ℕ} : slotOf n p = slotOf n q ↔ p % n = q % n := by
  rw [slotOf, slotOf, Fin.mk.injEq]

/-- Different positions within one round have different slots. -/
lemma slotOf_ne [NeZero n] {p q : ℕ} (hpq : p < q) (hqn : q < p + n) : slotOf n p ≠ slotOf n q := by
  rw [Ne, slotOf_eq_iff]
  intro h
  have hdvd : n ∣ q - p := (Nat.modEq_iff_dvd' hpq.le).mp h
  have hle := Nat.le_of_dvd (by omega) hdvd
  omega

/-- The ring holds the stream from position `t` up to `h`. -/
def Window [NeZero n] (buf : Fin n → β) (stream : List β) (t h : ℕ) : Prop :=
  ∀ p, t ≤ p → p < h → stream[p]? = some (buf (slotOf n p))

namespace Window

variable [NeZero n] {buf : Fin n → β} {stream : List β} {t h : ℕ}

/-- A part of the window. -/
lemma mono (w : Window buf stream t h) {t' h' : ℕ} (ht : t ≤ t') (hh : h' ≤ h) :
    Window buf stream t' h' :=
  fun p hp hph => w p (ht.trans hp) (hph.trans_le hh)

/-- A position after the window, within one round of its start, is written. -/
lemma write (w : Window buf stream t h) {q : ℕ} (hq : h ≤ q) (hqn : q < t + n) (b : β) :
    Window (Function.update buf (slotOf n q) b) stream t h := by
  intro p hp hph
  rw [Function.update_of_ne (slotOf_ne (by omega) (by omega)), w p hp hph]

/-- The next position of the stream is written. -/
lemma push (w : Window buf stream t h) (hht : h < t + n) {b : β} (hb : stream[h]? = some b) :
    Window (Function.update buf (slotOf n h) b) stream t (h + 1) := by
  intro p hp hph
  rcases Nat.lt_succ_iff_lt_or_eq.mp hph with hlt | rfl
  · exact w.write le_rfl hht b p hp hlt
  · rw [Function.update_self, hb]

/-- The stream is continued. -/
lemma append (w : Window buf stream t h) (hh : h ≤ stream.length) (more : List β) :
    Window buf (stream ++ more) t h := by
  intro p hp hph
  rw [List.getElem?_append_left (by omega), w p hp hph]

end Window

end OpenRdma
