import Mathlib.Tactic

/-!
# Guarded rules

Hardware written as guarded atomic actions: a state, and a number of rules and methods of which any
one that is ready may fire next.  A rule is a partial function on states — `none` when its guard
fails or a queue it uses is full or empty — and a run is the list of the rules that fired, in order.
Whatever the scheduler fires in one cycle is equal to firing it in some order, so a property of all
runs holds under every schedule.

A history records along a run what the state does not keep: it is observed, never read by a rule.

* `fire` — run some rules in order; `fire_rule` is the induction over a run, `fire_rule_meets` the
  one over a run whose steps all meet a condition, `fire_rule_labels` the one over a run of allowed
  labels.
* `watched` — a machine with a history; **`fire_watched`** says that watching hinders no run.
* `EachAfter` — every entry of a history is in a relation with what was there before it.
* `stepPart` — a part of a larger machine, which takes part in some of its firings.
* `handedOut` — what a method hands out.
* `guard_bind_eq_some`, `bind_eq_some` — taking a rule apart.
-/

namespace OpenRdma

section Partial

variable {α β : Type}

/-- A rule with a guard that fired. -/
lemma guard_bind_eq_some {p : Prop} [Decidable p] {f : Unit → Option β} {b : β} :
    (guard p >>= f) = some b ↔ p ∧ f () = some b := by
  by_cases hp : p <;> simp [guard, hp]

/-- A rule that takes a value and fired. -/
lemma bind_eq_some {x : Option α} {f : α → Option β} {b : β} :
    (x >>= f) = some b ↔ ∃ a, x = some a ∧ f a = some b := by
  cases x <;> simp

end Partial

section Outputs

variable {α σ : Type} {x : Option (α × σ)} {a : α} {t : σ}

/-- What a method hands out, if it is ready. -/
def handedOut (x : Option (α × σ)) : List α := (x.map Prod.fst).toList

lemma handedOut_of_eq_some (h : x = some (a, t)) : handedOut x = [a] := by
  rw [h]
  rfl

lemma mem_handedOut : a ∈ handedOut x ↔ ∃ t, x = some (a, t) := by
  rcases x with _ | ⟨b, u⟩
  · simp [handedOut]
  · simp [handedOut, eq_comm]

end Outputs

section Machine

variable {σ ι η : Type} {step : σ → ι → Option σ} {s s' : σ}

/-- Fire some rules in order; none if one of them is not ready. -/
def fire (step : σ → ι → Option σ) : σ → List ι → Option σ
  | s, [] => some s
  | s, l :: ls => step s l >>= fun s' => fire step s' ls

@[simp] lemma fire_nil : fire step s [] = some s := rfl

variable {ls : List ι}

lemma fire_cons {l : ι} :
    fire step s (l :: ls) = some s' ↔ ∃ t, step s l = some t ∧ fire step t ls = some s' :=
  bind_eq_some

/-- Two runs one after another. -/
lemma fire_append {ls ks : List ι} :
    fire step s (ls ++ ks) = some s' ↔
      ∃ t, fire step s ls = some t ∧ fire step t ks = some s' := by
  induction ls generalizing s with
  | nil => simp
  | cons l ls ih => simp only [List.cons_append, fire_cons, ih]; grind

lemma fire_snoc {l : ι} :
    fire step s (ls ++ [l]) = some s' ↔ ∃ t, fire step s ls = some t ∧ step t l = some s' := by
  simp [fire_append, fire_cons]

/-- What every rule keeps that has an allowed label, every run of allowed labels keeps. -/
theorem fire_rule_labels {ok : ι → Prop} {P : σ → Prop}
    (hstep : ∀ s l s', P s → ok l → step s l = some s' → P s') (hs : P s)
    (hok : ∀ l ∈ ls, ok l) (h : fire step s ls = some s') : P s' := by
  induction ls generalizing s with
  | nil => cases h; exact hs
  | cons l ls ih =>
    obtain ⟨t, ht, hrest⟩ := fire_cons.1 h
    exact ih (hstep s l t hs (hok l List.mem_cons_self) ht)
      (fun k hk => hok k (List.mem_cons_of_mem l hk)) hrest

/-- **What every rule keeps, every run keeps.** -/
theorem fire_rule {P : σ → Prop} (hstep : ∀ s l s', P s → step s l = some s' → P s')
    (hs : P s) (h : fire step s ls = some s') : P s' :=
  fire_rule_labels (fun s l s' hs _ => hstep s l s' hs) hs
    (fun _ _ => trivial) h

/-- Every rule of a run fires in a state that meets a condition. -/
def Meets (step : σ → ι → Option σ) (ok : σ → ι → Prop) : σ → List ι → Prop
  | _, [] => True
  | s, l :: ls => ok s l ∧ ∀ t ∈ step s l, Meets step ok t ls

instance Meets.decidable {ok : σ → ι → Prop} [∀ s l, Decidable (ok s l)] :
    (s : σ) → (ls : List ι) → Decidable (Meets step ok s ls)
  | _, [] => .isTrue trivial
  | s, l :: ls =>
    have : ∀ t, Decidable (Meets step ok t ls) := fun t => Meets.decidable t ls
    inferInstanceAs (Decidable (ok s l ∧ ∀ t ∈ step s l, Meets step ok t ls))

/-- A weaker condition. -/
lemma Meets.imp {ok ok' : σ → ι → Prop} (himp : ∀ s l, ok s l → ok' s l)
    (h : Meets step ok s ls) : Meets step ok' s ls := by
  induction ls generalizing s with
  | nil => exact trivial
  | cons l ls ih => exact ⟨himp s l h.1, fun t ht => ih (h.2 t ht)⟩

/-- What every rule keeps that fires in a state that meets the condition, every such run keeps. -/
theorem fire_rule_meets {ok : σ → ι → Prop} {P : σ → Prop}
    (hstep : ∀ s l s', P s → ok s l → step s l = some s' → P s') (hs : P s)
    (hok : Meets step ok s ls) (h : fire step s ls = some s') : P s' := by
  induction ls generalizing s with
  | nil => cases h; exact hs
  | cons l ls ih =>
    obtain ⟨t, ht, hrest⟩ := fire_cons.1 h
    exact ih (hstep s l t hs hok.1 ht) (hok.2 t ht) hrest

/-- A part of a machine fires, or stays as it is. -/
def stepPart (step : σ → ι → Option σ) (s : σ) : Option ι → Option σ
  | some l => step s l
  | none => some s

/-- A part stays, or fires. -/
lemma stepPart_eq_some {o : Option ι} (h : stepPart step s o = some s') :
    (o = none ∧ s' = s) ∨ ∃ l, o = some l ∧ step s l = some s' := by
  cases o with
  | none => exact .inl ⟨rfl, (Option.some.inj h).symm⟩
  | some l => exact .inr ⟨l, rfl, h⟩

/-- A machine with a history, to which every firing adds what it observes. -/
def watched (step : σ → ι → Option σ) (observe : σ → ι → η → η) (p : σ × η) (l : ι) :
    Option (σ × η) :=
  (step p.1 l).map (·, observe p.1 l p.2)

/-- A firing that is watched. -/
lemma watched_eq_some {observe : σ → ι → η → η} {p p' : σ × η} {l : ι} :
    watched step observe p l = some p' ↔ step p.1 l = some p'.1 ∧ p'.2 = observe p.1 l p.2 := by
  rcases p' with ⟨t, k⟩
  simp only [watched, Option.map_eq_some_iff, Prod.mk.injEq]
  constructor
  · rintro ⟨u, hu, rfl, rfl⟩
    exact ⟨hu, rfl⟩
  · rintro ⟨hu, rfl⟩
    exact ⟨t, hu, rfl, rfl⟩

lemma watched_of_step {observe : σ → ι → η → η} {l : ι} (h : step s l = some s') (k : η) :
    watched step observe (s, k) l = some (s', observe s l k) := by
  simp [watched, h]

/-- **Every run of the machine is a run of the watched machine.** -/
theorem fire_watched (observe : σ → ι → η → η) (h : fire step s ls = some s') (k : η) :
    ∃ k', fire (watched step observe) (s, k) ls = some (s', k') := by
  induction ls generalizing s k with
  | nil => exact ⟨k, by cases h; rfl⟩
  | cons l ls ih =>
    obtain ⟨t, ht, hrest⟩ := fire_cons.1 h
    obtain ⟨k', hk⟩ := ih hrest (observe s l k)
    exact ⟨k', fire_cons.2 ⟨_, watched_eq_some.2 ⟨ht, rfl⟩, hk⟩⟩

end Machine

/-! ## Histories -/

section Histories

variable {α : Type} {Q : List α → α → Prop}

/-- Every element of a list is related to the elements before it. -/
def EachAfter (Q : List α → α → Prop) (l : List α) : Prop :=
  ∀ before a after, l = before ++ a :: after → Q before a

lemma eachAfter_nil : EachAfter Q [] := by
  intro before a after h
  simp at h

/-- An element that joins is related to all that were there. -/
lemma eachAfter_concat {l : List α} {b : α} : EachAfter Q (l ++ [b]) ↔ EachAfter Q l ∧ Q l b := by
  constructor
  · intro h
    refine ⟨?_, h l b [] rfl⟩
    rintro before a after rfl
    exact h before a (after ++ [b]) (by simp)
  · rintro ⟨hl, hb⟩ before a after heq
    rcases List.eq_nil_or_concat' after with rfl | ⟨after, c, rfl⟩
    · obtain ⟨rfl, rfl⟩ := List.append_inj' heq rfl |>.imp id (by simpa using ·)
      exact hb
    · have hcut : l ++ [b] = (before ++ a :: after) ++ [c] := by rw [heq]; simp
      exact hl before a after (List.append_inj_left' hcut rfl)

end Histories

end OpenRdma
