/- digest: Machines answer atomic operations; a program run alone, and its pre- and
   postconditions over every sequence of choices of the outside world.
   uses: nothing of the modelled repository. -/

import Webengine.Library.Programs

set_option autoImplicit false
set_option relaxedAutoImplicit false

namespace Webengine.Library.Machines

open Webengine.Library.Programs

/-- A shared object: an operation on a state is answered and changes the state, as the
outside world (`Env`: clock, random source, failures) chooses at that step. -/
structure Machine {Op : Type} (Ans : Op → Type) where
  State : Type
  Env : Type
  step : Env → State → (o : Op) → Ans o × State

variable {ε Op α β : Type} {Ans : Op → Type}

/-- One atomic step: who took it, the state it found, the choice of the outside world
and the operation. The answer and the state it left follow from these. -/
structure Event (m : Machine Ans) where
  tid : Nat
  pre : m.State
  env : m.Env
  op : Op

namespace Event

variable {m : Machine Ans}

def ans (e : Event m) : Ans e.op := (m.step e.env e.pre e.op).1

def post (e : Event m) : m.State := (m.step e.env e.pre e.op).2

end Event

/-- What a run leaves: the steps taken, the last state, the value or the exception. -/
structure Outcome (m : Machine Ans) (ε α : Type) where
  log : List (Event m)
  state : m.State
  result : Except ε α

/-- The choices that remain after one step. -/
def later {E : Type} (env : Nat → E) : Nat → E := fun n => env (n + 1)

/-- Run a program alone; `env n` is the choice of the outside world at its step `n`. -/
def run (m : Machine Ans) : Prog ε Ans α → m.State → (Nat → m.Env) → Outcome m ε α
  | .ret a, s, _ => ⟨[], s, .ok a⟩
  | .raise e, s, _ => ⟨[], s, .error e⟩
  | .op o k, s, env =>
    let next := run m (k (m.step (env 0) s o).1) (m.step (env 0) s o).2 (later env)
    { next with log := ⟨0, s, env 0, o⟩ :: next.log }

section Equations

variable (m : Machine Ans)

@[simp] theorem run_ret (a : α) (s : m.State) (env : Nat → m.Env) :
    run m (.ret a : Prog ε Ans α) s env = ⟨[], s, .ok a⟩ := rfl

@[simp] theorem run_raise (e : ε) (s : m.State) (env : Nat → m.Env) :
    run m (.raise e : Prog ε Ans α) s env = ⟨[], s, .error e⟩ := rfl

theorem run_op (o : Op) (k : Ans o → Prog ε Ans α) (s : m.State) (env : Nat → m.Env) :
    run m (.op o k) s env =
      ⟨⟨0, s, env 0, o⟩ :: (run m (k (m.step (env 0) s o).1) (m.step (env 0) s o).2
          (later env)).log,
        (run m (k (m.step (env 0) s o).1) (m.step (env 0) s o).2 (later env)).state,
        (run m (k (m.step (env 0) s o).1) (m.step (env 0) s o).2 (later env)).result⟩ := rfl

theorem run_bind_of_ok {p : Prog ε Ans α} {f : α → Prog ε Ans β} {s : m.State}
    {env : Nat → m.Env} {a : α} (returned : (run m p s env).result = .ok a) :
    run m (p >>= f) s env =
      let rest := run m (f a) (run m p s env).state fun n => env (n + (run m p s env).log.length)
      { rest with log := (run m p s env).log ++ rest.log } := by
  induction p generalizing s env with
  | ret b =>
    cases returned
    rfl
  | raise e => cases returned
  | op o k ih =>
    rw [run_op] at returned
    rw [Prog.op_bind, run_op, ih _ returned]
    rfl

end Equations

/-- What the operations of a history show, in order. -/
def shows {σ : Type} {m : Machine Ans} (f : Op → Option σ) (l : List (Event m)) : List σ :=
  l.filterMap fun e => f e.op

section Shows

variable {σ : Type} {m : Machine Ans} {f : Op → Option σ}

theorem shows_cons (e : Event m) (l : List (Event m)) :
    shows f (e :: l) = (f e.op).toList ++ shows f l := by
  unfold shows
  cases h : f e.op with
  | none => exact List.filterMap_cons_none h
  | some x => exact List.filterMap_cons_some h

theorem shows_append (l l' : List (Event m)) : shows f (l ++ l') = shows f l ++ shows f l' :=
  List.filterMap_append

theorem shows_run {p : Prog ε Ans α} {bs : List σ} (h : p.Shows f bs) (s : m.State)
    (env : Nat → m.Env) : shows f (run m p s env).log = bs := by
  induction p generalizing bs s env with
  | ret a => exact h.symm
  | raise e => exact h.symm
  | op o k ih =>
    obtain ⟨rest, rfl, hk⟩ := h
    rw [run_op, shows_cons, ih _ (hk _)]

end Shows

/-- A postcondition speaks about the result, the last state and the steps taken. -/
abbrev Post (m : Machine Ans) (ε α : Type) := Except ε α → m.State → List (Event m) → Prop

/-- The weakest precondition of `Q` when every choice of the outside world is in `E`. -/
def wp (m : Machine Ans) (E : m.Env → Prop) :
    Prog ε Ans α → Post m ε α → m.State → Prop
  | .ret a, Q, s => Q (.ok a) s []
  | .raise e, Q, s => Q (.error e) s []
  | .op o k, Q, s => ∀ env, E env →
      wp m E (k (m.step env s o).1) (fun r s' l => Q r s' (⟨0, s, env, o⟩ :: l))
        (m.step env s o).2

/-- Go on after a result: with a value the rest of the program, else the exception. -/
def Post.seq {m : Machine Ans} (rest : α → Post m ε β → m.State → Prop) (Q : Post m ε β) :
    Post m ε α
  | .ok a, s, l => rest a (fun r s' l' => Q r s' (l ++ l')) s
  | .error e, s, l => Q (.error e) s l

variable {m : Machine Ans} {E : m.Env → Prop}

@[simp] theorem Post.seq_ok (rest : α → Post m ε β → m.State → Prop) (Q : Post m ε β) (a : α)
    (s : m.State) (l : List (Event m)) :
    Post.seq rest Q (.ok a) s l = rest a (fun r s' l' => Q r s' (l ++ l')) s := rfl

@[simp] theorem wp_ret {a : α} {Q : Post m ε α} {s : m.State} :
    wp m E (.ret a) Q s ↔ Q (.ok a) s [] := Iff.rfl

@[simp] theorem wp_raise {e : ε} {Q : Post m ε α} {s : m.State} :
    wp m E (.raise e) Q s ↔ Q (.error e) s [] := Iff.rfl

theorem wp_op {o : Op} {k : Ans o → Prog ε Ans α} {Q : Post m ε α} {s : m.State} :
    wp m E (.op o k) Q s ↔ ∀ env, E env →
      wp m E (k (m.step env s o).1) (fun r s' l => Q r s' (⟨0, s, env, o⟩ :: l))
        (m.step env s o).2 := Iff.rfl

theorem wp_mono {p : Prog ε Ans α} {Q Q' : Post m ε α} {s : m.State}
    (holds : wp m E p Q s) (le : ∀ r s' l, Q r s' l → Q' r s' l) : wp m E p Q' s := by
  induction p generalizing s Q Q' with
  | ret a => exact le _ _ _ holds
  | raise e => exact le _ _ _ holds
  | op o k ih =>
    intro env he
    exact ih _ (holds env he) (fun r s' l => le r s' (_ :: l))

theorem wp_true (p : Prog ε Ans α) (s : m.State) : wp m E p (fun _ _ _ => True) s := by
  induction p generalizing s with
  | ret a => trivial
  | raise e => trivial
  | op o k ih => exact fun env _ => ih _ _

theorem wp_bind {p : Prog ε Ans α} {f : α → Prog ε Ans β} {Q : Post m ε β} {s : m.State} :
    wp m E (p >>= f) Q s ↔ wp m E p (Post.seq (fun a => wp m E (f a)) Q) s := by
  induction p generalizing s Q with
  | ret a => simp [Post.seq]
  | raise e => simp [Post.seq]
  | op o k ih =>
    rw [Prog.op_bind, wp_op, wp_op]
    refine forall₂_congr fun env he => (ih _).trans ?_
    constructor
    all_goals
      intro h
      refine wp_mono h fun r s' l hr => ?_
      cases r <;> simpa [Post.seq] using hr

/-- What every operation a program may perform keeps, unless it is a step of a certain kind,
holds after the program, or such a step was taken. -/
theorem wp_keeps_until {J : m.State → Prop} {S : Op → Prop} {B : Event m → Prop}
    (keeps : ∀ env s o, E env → S o → J s → J (m.step env s o).2 ∨ B ⟨0, s, env, o⟩)
    {p : Prog ε Ans α} (only : p.Only S) {s : m.State} (h : J s) :
    wp m E p (fun _ s' l => J s' ∨ ∃ e ∈ l, B e) s := by
  induction p generalizing s with
  | ret a => exact Or.inl h
  | raise e => exact Or.inl h
  | op o k ih =>
    obtain ⟨ho, hk⟩ := only
    intro env he
    rcases keeps env s o he ho h with kept | broken
    · refine wp_mono (ih _ (hk _) kept) fun r s' l after => ?_
      rcases after with kept | ⟨e, he, broken⟩
      · exact Or.inl kept
      · exact Or.inr ⟨e, List.mem_cons_of_mem _ he, broken⟩
    · refine wp_mono (wp_true _ _) fun r s' l _ => ?_
      exact Or.inr ⟨_, List.mem_cons_self, broken⟩

/-- What every operation a program may perform keeps holds after the program. -/
theorem wp_keeps {J : m.State → Prop} {S : Op → Prop}
    (keeps : ∀ env s o, E env → S o → J s → J (m.step env s o).2) {p : Prog ε Ans α}
    (only : p.Only S) {s : m.State} (h : J s) : wp m E p (fun _ s' _ => J s') s := by
  have until_ := wp_keeps_until (E := E) (B := fun _ : Event m => False)
    (fun env s o he ho h => Or.inl (keeps env s o he ho h)) only h
  refine wp_mono until_ fun r s' l after => ?_
  rcases after with kept | ⟨e, -, broken⟩
  · exact kept
  · exact broken.elim

theorem wp_and {p : Prog ε Ans α} {Q Q' : Post m ε α} {s : m.State} (h : wp m E p Q s)
    (h' : wp m E p Q' s) : wp m E p (fun r s' l => Q r s' l ∧ Q' r s' l) s := by
  induction p generalizing s Q Q' with
  | ret a => exact ⟨h, h'⟩
  | raise e => exact ⟨h, h'⟩
  | op o k ih =>
    intro env he
    exact ih _ (h env he) (h' env he)

/-- The weakest precondition is about every run: nothing of the outside world is left out. -/
theorem run_of_wp {p : Prog ε Ans α} {Q : Post m ε α} {s : m.State}
    (holds : wp m E p Q s) (env : Nat → m.Env) (allowed : ∀ n, E (env n)) :
    Q (run m p s env).result (run m p s env).state (run m p s env).log := by
  induction p generalizing s env Q with
  | ret a => exact holds
  | raise e => exact holds
  | op o k ih =>
    exact ih _ (holds (env 0) (allowed 0)) (later env) (fun n => allowed (n + 1))

theorem run_keeps {J : m.State → Prop} {S : Op → Prop}
    (keeps : ∀ env s o, S o → J s → J (m.step env s o).2) {p : Prog ε Ans α} (only : p.Only S)
    {s : m.State} (h : J s) (env : Nat → m.Env) : J (run m p s env).state := by
  induction p generalizing s env with
  | ret a => exact h
  | raise e => exact h
  | op o k ih =>
    obtain ⟨ho, hk⟩ := only
    exact ih _ (hk _) (keeps (env 0) s o ho h) (later env)

/-- Two states no operation tells apart, now or after any steps, give a program the same
result. -/
theorem run_of_indistinguishable {R : m.State → m.State → Prop}
    (same : ∀ env s s' o, R s s' →
      (m.step env s o).1 = (m.step env s' o).1 ∧ R (m.step env s o).2 (m.step env s' o).2)
    (p : Prog ε Ans α) {s s' : m.State} (h : R s s') (env : Nat → m.Env) :
    (run m p s env).result = (run m p s' env).result := by
  induction p generalizing s s' env with
  | ret a => rfl
  | raise e => rfl
  | op o k ih =>
    obtain ⟨hans, hpost⟩ := same (env 0) s s' o h
    simp only [run_op]
    rw [← hans]
    exact ih _ hpost (later env)

end Webengine.Library.Machines
