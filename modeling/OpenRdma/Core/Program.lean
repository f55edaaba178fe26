import Mathlib.Tactic

/-!
# Programs that share their state with an environment

A `Prog` is a sequence of atomic actions on a state.  Between two of them an environment may act, so
a statement about the program is about every interleaving.

* `Prog.Safe` — whatever the environment does in between, an invariant holds before every action and
  a postcondition at the end.  `Safe.act`, `Safe.bind` and `Safe.tryBind` are its rules: the
  assertion between two actions has to be stable under the environment.
* `Prog.Keeps` — the program itself leaves a part of the state alone.
* `Session` — one client that calls such programs one after another, next to an environment.
* **`Session.run_sound`** — if the environment keeps an assertion, and under it every call is safe
  and ends with it again, then it holds between the calls of every session.
-/

namespace OpenRdma

/-- A program over the state `σ` that returns an `α`: an action changes the state, and the rest of
the program may depend on the state that it found. -/
inductive Prog (σ α : Type) where
  | ret (a : α)
  | act (f : σ → σ) (k : σ → Prog σ α)

namespace Prog

variable {σ α β ε : Type}

/-- One program after another. -/
def bind : Prog σ α → (α → Prog σ β) → Prog σ β
  | ret a, g => g a
  | act f k, g => act f fun s => (k s).bind g

instance : Monad (Prog σ) where
  pure := ret
  bind := bind

/-- A read of the state. -/
def get (g : σ → α) : Prog σ α := act id fun s => ret (g s)

/-- A write of the state. -/
def modify (f : σ → σ) : Prog σ Unit := act f fun _ => ret ()

/-- One action that reads and writes. -/
def atomic (f : σ → α × σ) : Prog σ α := act (fun s => (f s).2) fun s => ret (f s).1

/-- The `?` operator: an error ends the program. -/
def tryBind (p : Prog σ (Except ε α)) (g : α → Prog σ (Except ε β)) : Prog σ (Except ε β) :=
  p.bind fun
    | .error e => ret (.error e)
    | .ok a => g a

/-- The program run to its end with no environment. -/
def exec : Prog σ α → σ → α × σ
  | ret a, s => (a, s)
  | act f k, s => (k s).exec (f s)

/-- A composed program, run alone. -/
lemma exec_bind (p : Prog σ α) (g : α → Prog σ β) (s : σ) :
    (p.bind g).exec s = (g (p.exec s).1).exec (p.exec s).2 := by
  induction p generalizing s with
  | ret a => rfl
  | act f k ih => exact ih s (f s)

/-- A client that takes the actions of a call one by one: what is left of the call after its next
action, and the state.  A call that has not begun is begun. -/
def advance (start : Prog σ α) (running : Option (Prog σ α)) (s : σ) : Prog σ α × σ :=
  match running with
  | some (act f k) => (k s, f s)
  | _ => (start, s)

/-- No action of the program changes `g`. -/
def Keeps {γ : Type} (g : σ → γ) : Prog σ α → Prop
  | ret _ => True
  | act f k => (∀ s, g (f s) = g s) ∧ ∀ s, (k s).Keeps g

namespace Keeps

variable {γ : Type} {g : σ → γ}

lemma get (f : σ → α) : (Prog.get f).Keeps g := ⟨fun _ => rfl, fun _ => True.intro⟩

lemma atomic {f : σ → α × σ} (hf : ∀ s, g (f s).2 = g s) : (Prog.atomic f).Keeps g :=
  ⟨hf, fun _ => True.intro⟩

lemma bind {f : α → Prog σ β} :
    ∀ {p : Prog σ α}, p.Keeps g → (∀ a, (f a).Keeps g) → (p.bind f).Keeps g
  | .ret a, _, hf => hf a
  | .act _ _, h, hf => ⟨h.1, fun s => bind (h.2 s) hf⟩

lemma tryBind {p : Prog σ (Except ε α)} {f : α → Prog σ (Except ε β)} (hp : p.Keeps g)
    (hf : ∀ a, (f a).Keeps g) : (p.tryBind f).Keeps g := by
  refine hp.bind fun r => ?_
  cases r with
  | error e => exact True.intro
  | ok a => exact hf a

lemma exec {p : Prog σ α} (h : p.Keeps g) (s : σ) : g (p.exec s).2 = g s := by
  induction p generalizing s with
  | ret a => rfl
  | act f k ih => exact (ih s (h.2 s) (f s)).trans (h.1 s)

lemma advance {start : Prog σ α} {running : Option (Prog σ α)} (hstart : start.Keeps g)
    (hrun : ∀ p, running = some p → p.Keeps g) (s : σ) :
    (advance start running s).1.Keeps g ∧ g (advance start running s).2 = g s := by
  rcases running with _ | _ | ⟨f, k⟩
  · exact ⟨hstart, rfl⟩
  · exact ⟨hstart, rfl⟩
  · exact ⟨(hrun _ rfl).2 s, (hrun _ rfl).1 s⟩

end Keeps

/-! ## Safety under interference -/

/-- Whatever `rely` steps are taken in between, `inv` holds before every action and `post` when the
program returns. -/
def Safe (rely : σ → σ → Prop) (inv : σ → Prop) (post : α → σ → Prop) : Prog σ α → σ → Prop
  | ret a, s => post a s
  | act f k, s => ∀ s', Relation.ReflTransGen rely s s' → inv s' ∧ (k s').Safe rely inv post (f s')

/-- An assertion that the environment keeps. -/
def Stable (rely : σ → σ → Prop) (P : σ → Prop) : Prop := ∀ s s', rely s s' → P s → P s'

/-- What is stable holds however often the environment acts. -/
lemma Stable.star {rely : σ → σ → Prop} {P : σ → Prop} (hP : Stable rely P) {s s' : σ}
    (h : Relation.ReflTransGen rely s s') (hs : P s) : P s' := by
  induction h with
  | refl => exact hs
  | tail _ hstep ih => exact hP _ _ hstep ih

namespace Safe

variable {rely : σ → σ → Prop} {inv : σ → Prop} {post : α → σ → Prop}

/-- **The rule for an action**: a stable assertion before it, and safety of the rest after it. -/
lemma act {f : σ → σ} {k : σ → Prog σ α} (P : σ → Prop) (hP : Stable rely P)
    (hinv : ∀ s, P s → inv s) (hk : ∀ s, P s → (k s).Safe rely inv post (f s)) {s : σ} (hs : P s) :
    (Prog.act f k).Safe rely inv post s :=
  fun s' hs' => ⟨hinv s' (hP.star hs' hs), hk s' (hP.star hs' hs)⟩

/-- Weaker assertions. -/
lemma mono {inv' : σ → Prop} {post' : α → σ → Prop} (hinv : ∀ s, inv s → inv' s)
    (hpost : ∀ a s, post a s → post' a s) :
    ∀ {p : Prog σ α} {s : σ}, p.Safe rely inv post s → p.Safe rely inv' post' s
  | .ret a, s, h => hpost a s h
  | .act _ _, _, h => fun s' hs' => ⟨hinv s' (h s' hs').1, mono hinv hpost (h s' hs').2⟩

/-- **The rule for a sequence.** -/
lemma bind {post' : β → σ → Prop} {g : α → Prog σ β}
    (hg : ∀ a s, post a s → (g a).Safe rely inv post' s) :
    ∀ {p : Prog σ α} {s : σ}, p.Safe rely inv post s → (p.bind g).Safe rely inv post' s
  | .ret a, s, h => hg a s h
  | .act _ _, _, h => fun s' hs' => ⟨(h s' hs').1, bind hg (h s' hs').2⟩

/-- The rule of a program that may return early. -/
lemma tryBind {post : Except ε α → σ → Prop} {post' : Except ε β → σ → Prop}
    {p : Prog σ (Except ε α)} {g : α → Prog σ (Except ε β)} {s : σ} (hp : p.Safe rely inv post s)
    (herr : ∀ e s, post (.error e) s → post' (.error e) s)
    (hok : ∀ a s, post (.ok a) s → (g a).Safe rely inv post' s) :
    (p.tryBind g).Safe rely inv post' s := by
  refine bind (fun r s hr => ?_) hp
  cases r with
  | error e => exact herr e s hr
  | ok a => exact hok a s hr

/-- The environment acts before the program does. -/
lemma rely_step (hpost : ∀ a, Stable rely (post a)) {p : Prog σ α} {s s' : σ} (hs : rely s s')
    (h : p.Safe rely inv post s) : p.Safe rely inv post s' := by
  cases p with
  | ret a => exact hpost a s s' hs h
  | act f k => exact fun t ht => h t (Relation.ReflTransGen.head hs ht)

lemma trivial : ∀ (p : Prog σ α) (s : σ), p.Safe rely (fun _ => True) (fun _ _ => True) s
  | .ret _, _ => True.intro
  | .act _ k, _ => fun s' _ => ⟨True.intro, trivial (k s') _⟩

lemma advance {start : Prog σ α} {running : Option (Prog σ α)} {s : σ}
    (hrun : ∀ p, running = some p → p.Safe rely inv post s) (hret : ∀ a, running ≠ some (.ret a))
    (hstart : running = none → start.Safe rely inv post s) :
    (Prog.advance start running s).1.Safe rely inv post (Prog.advance start running s).2 := by
  rcases running with _ | a | ⟨f, k⟩
  · exact hstart rfl
  · exact absurd rfl (hret a)
  · exact (hrun _ rfl s .refl).2

/-- The environment that does nothing is one of those that the program is safe under. -/
lemma exec {p : Prog σ α} {s : σ} (h : p.Safe rely inv post s) :
    post (p.exec s).1 (p.exec s).2 := by
  induction p generalizing s with
  | ret a => exact h
  | act f k ih => exact ih s (h s .refl).2

end Safe

end Prog

/-! ## Sessions -/

/-- A client between or inside its calls: the state, the call it is in, and the calls that have
returned. -/
structure Session (σ κ α : Type) where
  shared : σ
  running : Option (κ × Prog σ α)
  done : List (κ × α)

/-- What happens next: the client starts a call or takes a step of it, or the environment acts. -/
inductive SessionAction (κ ε : Type) where
  | call (c : κ)
  | step
  | env (e : ε)
deriving DecidableEq, Repr

namespace Session

variable {σ κ α ε : Type}

/-- The client goes on with `p`; a program with no action left has returned. -/
def resume (s : Session σ κ α) (c : κ) : Prog σ α → Session σ κ α
  | .ret a => { s with running := none, done := s.done ++ [(c, a)] }
  | .act f k => { s with running := some (c, .act f k) }

/-- One step; a call is started only when the last one has returned. -/
def step (body : κ → Prog σ α) (env : ε → σ → σ) (s : Session σ κ α) :
    SessionAction κ ε → Session σ κ α
  | .call c => if s.running.isSome then s else s.resume c (body c)
  | .step =>
    match s.running with
    | some (c, .act f k) => { s with shared := f s.shared }.resume c (k s.shared)
    | _ => s
  | .env e => { s with shared := env e s.shared }

def init (s : σ) : Session σ κ α := { shared := s, running := none, done := [] }

/-- The session after some actions. -/
def run (body : κ → Prog σ α) (env : ε → σ → σ) (s : Session σ κ α)
    (as : List (SessionAction κ ε)) : Session σ κ α :=
  as.foldl (step body env) s

lemma run_append (body : κ → Prog σ α) (env : ε → σ → σ) (s : Session σ κ α)
    (as bs : List (SessionAction κ ε)) :
    run body env s (as ++ bs) = run body env (run body env s as) bs := by
  rw [run, run, run, List.foldl_append]

/-- What has returned stays. -/
lemma resume_done (s : Session σ κ α) (c : κ) (p : Prog σ α) : s.done <+: (s.resume c p).done := by
  cases p with
  | ret a => exact List.prefix_append _ _
  | act f k => exact List.prefix_refl _

lemma step_done (body : κ → Prog σ α) (env : ε → σ → σ) (s : Session σ κ α)
    (a : SessionAction κ ε) : s.done <+: (s.step body env a).done := by
  cases a with
  | call c =>
    rw [step]
    split
    · exact List.prefix_refl _
    · exact resume_done s c (body c)
  | step =>
    rcases hr : s.running with _ | ⟨c, _ | ⟨f, k⟩⟩ <;> simp only [step, hr]
    · exact List.prefix_refl _
    · exact List.prefix_refl _
    · exact resume_done { s with shared := f s.shared } c (k s.shared)
  | env e => exact List.prefix_refl _

/-- Calls that have returned stay returned. -/
lemma run_done (body : κ → Prog σ α) (env : ε → σ → σ) (s : Session σ κ α)
    (as : List (SessionAction κ ε)) : s.done <+: (run body env s as).done := by
  induction as using List.reverseRecOn with
  | nil => exact List.prefix_refl _
  | append_singleton as a ih =>
    rw [run_append]
    exact ih.trans (step_done body env _ a)

section Invariant

variable {body : κ → Prog σ α} {env : ε → σ → σ} {idle inv : List (κ × α) → σ → Prop}

/-- What the environment may do in one step. -/
def Rely (env : ε → σ → σ) (s s' : σ) : Prop := ∃ e, s' = env e s

/-- Between calls `idle` holds; inside one the rest of the call is safe, with `inv` before each of
its actions and `idle` at its end. -/
def Sound (env : ε → σ → σ) (idle inv : List (κ × α) → σ → Prop) (s : Session σ κ α) : Prop :=
  match s.running with
  | none => idle s.done s.shared
  | some (c, p) => ¬ (∃ a, p = .ret a) ∧
      p.Safe (Rely env) (inv s.done) (fun a => idle (s.done ++ [(c, a)])) s.shared

/-- A call that is safe may be begun. -/
lemma sound_resume {s : Session σ κ α} {c : κ} {p : Prog σ α}
    (hp : p.Safe (Rely env) (inv s.done) (fun a => idle (s.done ++ [(c, a)])) s.shared) :
    Sound env idle inv (s.resume c p) := by
  cases p with
  | ret a => exact hp
  | act f k => exact ⟨nofun, hp⟩

lemma inv_of_sound {s : Session σ κ α} (hs : Sound env idle inv s)
    (himp : ∀ done s, idle done s → inv done s) : inv s.done s.shared := by
  rw [Sound] at hs
  split at hs
  · exact himp _ _ hs
  · rename_i c p hrun
    cases p with
    | ret a => exact absurd ⟨a, rfl⟩ hs.1
    | act f k => exact (hs.2 s.shared .refl).1

lemma idle_of_sound {s : Session σ κ α} (hs : Sound env idle inv s) (hrun : s.running = none) :
    idle s.done s.shared := by
  rwa [Sound, hrun] at hs

variable (henv : ∀ done, Prog.Stable (Rely env) (idle done))
  (hbody : ∀ c done s, idle done s →
    (body c).Safe (Rely env) (inv done) (fun a => idle (done ++ [(c, a)])) s)
include henv hbody

/-- Every action keeps the session sound. -/
lemma sound_step {s : Session σ κ α} (hs : Sound env idle inv s) (a : SessionAction κ ε) :
    Sound env idle inv (s.step body env a) := by
  cases a with
  | call c =>
    simp only [step]
    split
    · exact hs
    · rename_i hidle
      have hnone : s.running = none := by simpa using hidle
      exact sound_resume (hbody c s.done s.shared (idle_of_sound hs hnone))
  | step =>
    rcases hr : s.running with _ | ⟨c, _ | ⟨f, k⟩⟩
    · simpa only [step, hr] using hs
    · simpa only [step, hr] using hs
    · rw [Sound, hr] at hs
      have hrest := (hs.2 s.shared .refl).2
      simp only [step, hr]
      exact sound_resume hrest
  | env e =>
    have hrely : Rely env s.shared (env e s.shared) := ⟨e, rfl⟩
    rcases hr : s.running with _ | ⟨c, p⟩
    · rw [Sound, hr] at hs
      simpa only [Sound, step, hr] using henv s.done _ _ hrely hs
    · rw [Sound, hr] at hs
      simpa only [Sound, step, hr] using
        And.intro hs.1 (hs.2.rely_step (fun a => henv _) hrely)

/-- **Every session is sound**: `idle` holds between its calls, and `inv` before each action. -/
theorem run_sound {s : σ} (hs : idle [] s) (as : List (SessionAction κ ε)) :
    Sound env idle inv (run body env (init s) as) := by
  induction as using List.reverseRecOn with
  | nil => exact hs
  | append_singleton as a ih =>
    rw [run_append]
    exact sound_step henv hbody ih a

end Invariant

end Session

end OpenRdma
