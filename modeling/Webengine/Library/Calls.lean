/- digest: Preconditions over the runs whose steps all meet a condition, and calls made one
   after the other on one machine.
   uses: nothing of the modelled repository. -/

import Webengine.Library.Machines
import Mathlib.Logic.IsEmpty.Basic

set_option autoImplicit false
set_option relaxedAutoImplicit false

namespace Webengine.Library.Calls

open Webengine.Library.Programs
open Webengine.Library.Machines

variable {ε Op α β C : Type} {Ans : Op → Type}

/-- In every run whose steps all meet `M` the program returns, and `Q` holds of its value and
the last state. -/
def wpIf (m : Machine Ans) (M : Event m → Prop) :
    Prog ε Ans α → (α → m.State → Prop) → m.State → Prop
  | .ret a, Q, s => Q a s
  | .raise _, _, _ => False
  | .op o k, Q, s => ∀ env, M ⟨0, s, env, o⟩ →
      wpIf m M (k (m.step env s o).1) Q (m.step env s o).2

variable {m : Machine Ans} {M : Event m → Prop}

@[simp] theorem wpIf_ret {a : α} {Q : α → m.State → Prop} {s : m.State} :
    wpIf m M (.ret a : Prog ε Ans α) Q s ↔ Q a s := Iff.rfl

theorem wpIf_op {o : Op} {k : Ans o → Prog ε Ans α} {Q : α → m.State → Prop} {s : m.State} :
    wpIf m M (.op o k) Q s ↔ ∀ env, M ⟨0, s, env, o⟩ →
      wpIf m M (k (m.step env s o).1) Q (m.step env s o).2 := Iff.rfl

theorem wpIf_mono {p : Prog ε Ans α} {Q Q' : α → m.State → Prop} {s : m.State}
    (holds : wpIf m M p Q s) (le : ∀ a s', Q a s' → Q' a s') : wpIf m M p Q' s := by
  induction p generalizing s with
  | ret a => exact le _ _ holds
  | raise e => exact holds
  | op o k ih => exact fun env he => ih _ (holds env he)

theorem wpIf_bind {p : Prog ε Ans α} {f : α → Prog ε Ans β} {Q : β → m.State → Prop}
    {s : m.State} :
    wpIf m M (p >>= f) Q s ↔ wpIf m M p (fun a s' => wpIf m M (f a) Q s') s := by
  induction p generalizing s with
  | ret a => rfl
  | raise e => rfl
  | op o k ih =>
    rw [Prog.op_bind, wpIf_op, wpIf_op]
    exact forall₂_congr fun env he => ih _

theorem wpIf_and {p : Prog ε Ans α} {Q Q' : α → m.State → Prop} {s : m.State}
    (h : wpIf m M p Q s) (h' : wpIf m M p Q' s) :
    wpIf m M p (fun a s' => Q a s' ∧ Q' a s') s := by
  induction p generalizing s with
  | ret a => exact ⟨h, h'⟩
  | raise e => exact h
  | op o k ih => exact fun env he => ih _ (h env he) (h' env he)

/-- What holds after a test that said yes, and after one that said no. -/
def Either (yes no : m.State → Prop) : Bool → m.State → Prop
  | true => yes
  | false => no

theorem wpIf_either {p : Prog ε Ans Bool} {f : Bool → Prog ε Ans α} {yes no : m.State → Prop}
    {Q : α → m.State → Prop} {s : m.State} (test : wpIf m M p (Either yes no) s)
    (holds : ∀ s', yes s' → wpIf m M (f true) Q s')
    (fails : ∀ s', no s' → wpIf m M (f false) Q s') : wpIf m M (p >>= f) Q s := by
  rw [wpIf_bind]
  refine wpIf_mono test fun b s' h => ?_
  cases b with
  | true => exact holds s' h
  | false => exact fails s' h

/-- A precondition that looks only at the choices of the outside world. -/
theorem wpIf_of_wp [IsEmpty ε] {E : m.Env → Prop} (le : ∀ e, M e → E e.env)
    {p : Prog ε Ans α} {Q : Post m ε α} {s : m.State} (h : wp m E p Q s) :
    wpIf m M p (fun a s' => ∃ l, Q (.ok a) s' l ∧ ∀ e ∈ l, E e.env) s := by
  induction p generalizing s Q with
  | ret a => exact ⟨[], h, by simp⟩
  | raise e => exact isEmptyElim e
  | op o k ih =>
    intro env he
    have allowed : E env := le _ he
    refine wpIf_mono (ih _ (h env allowed)) ?_
    intro a s' outcome
    obtain ⟨l, hl, all⟩ := outcome
    refine ⟨_, hl, fun e he => ?_⟩
    rcases List.mem_cons.mp he with rfl | he
    · exact allowed
    · exact all e he

theorem wpIf_keeps [IsEmpty ε] {J : m.State → Prop} {S : Op → Prop}
    (keeps : ∀ env s o, M ⟨0, s, env, o⟩ → S o → J s → J (m.step env s o).2)
    {p : Prog ε Ans α} (only : p.Only S) {s : m.State} (h : J s) :
    wpIf m M p (fun _ s' => J s') s := by
  induction p generalizing s with
  | ret a => exact h
  | raise e => exact isEmptyElim e
  | op o k ih =>
    obtain ⟨ho, hk⟩ := only
    exact fun env he => ih _ (hk _) (keeps env s o he ho h)

/-- In every such run from a state with `J` the program ends in one. -/
def Keeps (m : Machine Ans) (M : Event m → Prop) (J : m.State → Prop) (p : Prog ε Ans α) : Prop :=
  ∀ s, J s → wpIf m M p (fun _ s' => J s') s

theorem Keeps.of_only [IsEmpty ε] {J : m.State → Prop} {S : Op → Prop}
    (keeps : ∀ env s o, M ⟨0, s, env, o⟩ → S o → J s → J (m.step env s o).2)
    {p : Prog ε Ans α} (only : p.Only S) : Keeps m M J p := fun _ => wpIf_keeps keeps only

theorem Keeps.ret {J : m.State → Prop} (a : α) : Keeps m M J (.ret a : Prog ε Ans α) :=
  fun _ h => h

/-- What a test keeps if it says yes, and what follows from it if it says no. -/
theorem Keeps.either {J no : m.State → Prop} {p : Prog ε Ans Bool} (h : Keeps m M J p)
    (le : ∀ s, J s → no s) (s : m.State) (hs : J s) : wpIf m M p (Either J no) s := by
  refine wpIf_mono (h s hs) fun b s' h' => ?_
  cases b with
  | true => exact h'
  | false => exact le s' h'

theorem Keeps.bind {J : m.State → Prop} {p : Prog ε Ans α} {f : α → Prog ε Ans β}
    (hp : Keeps m M J p) (hf : ∀ a, Keeps m M J (f a)) : Keeps m M J (p >>= f) := by
  intro s h
  rw [wpIf_bind]
  exact wpIf_mono (hp s h) fun a s' h' => hf a s' h'

theorem run_of_wpIf {p : Prog ε Ans α} {Q : α → m.State → Prop} {s : m.State}
    (holds : wpIf m M p Q s) {env : Nat → m.Env} (meets : ∀ e ∈ (run m p s env).log, M e) :
    ∃ a, (run m p s env).result = .ok a ∧ Q a (run m p s env).state := by
  induction p generalizing s env with
  | ret a => exact ⟨a, rfl, holds⟩
  | raise e => exact holds.elim
  | op o k ih =>
    rw [run_op] at meets ⊢
    refine ih _ (holds (env 0) (meets _ List.mem_cons_self)) ?_
    exact fun e he => meets e (List.mem_cons_of_mem _ he)

theorem log_keeps {J : m.State → Prop} {S : Op → Prop}
    (keeps : ∀ env s o, M ⟨0, s, env, o⟩ → S o → J s → J (m.step env s o).2)
    {p : Prog ε Ans α} (only : p.Only S) {s : m.State} (h : J s) {env : Nat → m.Env}
    (meets : ∀ e ∈ (run m p s env).log, M e) :
    J (run m p s env).state ∧ ∀ e ∈ (run m p s env).log, J e.pre ∧ J e.post := by
  induction p generalizing s env with
  | ret a => exact ⟨h, by simp⟩
  | raise e => exact ⟨h, by simp⟩
  | op o k ih =>
    obtain ⟨ho, hk⟩ := only
    rw [run_op] at meets ⊢
    have next : J (m.step (env 0) s o).2 := keeps _ s o (meets _ List.mem_cons_self) ho h
    obtain ⟨last, steps⟩ := ih _ (hk _) next fun e he => meets e (List.mem_cons_of_mem _ he)
    refine ⟨last, fun e he => ?_⟩
    rcases List.mem_cons.mp he with rfl | he
    · exact ⟨h, next⟩
    · exact steps e he

theorem env_of_mem_log {p : Prog ε Ans α} {s : m.State} {env : Nat → m.Env} :
    ∀ e ∈ (run m p s env).log, ∃ n, e.env = env n := by
  induction p generalizing s env with
  | ret a => simp
  | raise e => simp
  | op o k ih =>
    rw [run_op]
    intro e he
    rcases List.mem_cons.mp he with rfl | he
    · exact ⟨0, rfl⟩
    · obtain ⟨n, hn⟩ := ih _ e he
      exact ⟨n + 1, hn⟩

/-- If every step can meet the condition, there are choices under which a whole run does. -/
theorem exists_run [Nonempty m.Env] (total : ∀ s o, ∃ env, M ⟨0, s, env, o⟩)
    (p : Prog ε Ans α) (s : m.State) : ∃ env, ∀ e ∈ (run m p s env).log, M e := by
  induction p generalizing s with
  | ret a => exact ⟨fun _ => Classical.arbitrary _, by simp⟩
  | raise e => exact ⟨fun _ => Classical.arbitrary _, by simp⟩
  | op o k ih =>
    obtain ⟨env, meets⟩ := total s o
    obtain ⟨rest, all⟩ := ih (m.step env s o).1 (m.step env s o).2
    refine ⟨fun n => Nat.casesOn n env rest, fun e he => ?_⟩
    rcases List.mem_cons.mp he with rfl | he
    · exact meets
    · exact all e he

/-- A call that was made: the state it found, and what it left. -/
structure Made (m : Machine Ans) (ε α C : Type) where
  call : C
  pre : m.State
  outcome : Outcome m ε α

/-- Calls made one after the other, each with the choices of the outside world at its steps. -/
def made (m : Machine Ans) (code : C → Prog ε Ans α) :
    m.State → List (C × (Nat → m.Env)) → List (Made m ε α C)
  | _, [] => []
  | s, (c, env) :: calls =>
    ⟨c, s, run m (code c) s env⟩ :: made m code (run m (code c) s env).state calls

/-- The state after the last call. -/
def finish (m : Machine Ans) (code : C → Prog ε Ans α) :
    m.State → List (C × (Nat → m.Env)) → m.State
  | s, [] => s
  | s, (c, env) :: calls => finish m code (run m (code c) s env).state calls

section Made

variable {code : C → Prog ε Ans α} {A : C → m.State → Prop} {J : m.State → Prop}

/-- What each call keeps, if it is made where it may be and its steps meet the condition on it,
holds before and after each of them. -/
theorem made_keeps {N : C → Event m → Prop}
    (keeps : ∀ c s, A c s → J s → wpIf m (N c) (code c) (fun _ s' => J s') s)
    {s : m.State} (h : J s) {calls : List (C × (Nat → m.Env))}
    (meets : ∀ x ∈ made m code s calls, A x.call x.pre ∧ ∀ e ∈ x.outcome.log, N x.call e) :
    ∀ x ∈ made m code s calls, J x.pre ∧ J x.outcome.state ∧
      ∃ env, x.outcome = run m (code x.call) x.pre env := by
  induction calls generalizing s with
  | nil => simp [made]
  | cons x calls ih =>
    obtain ⟨c, env⟩ := x
    rw [made] at meets ⊢
    obtain ⟨allowed, steps⟩ := meets _ List.mem_cons_self
    obtain ⟨a, -, after⟩ := run_of_wpIf (keeps c s allowed h) steps
    intro y hy
    rcases List.mem_cons.mp hy with rfl | hy
    · exact ⟨h, after, env, rfl⟩
    · exact ih after (fun y hy => meets y (List.mem_cons_of_mem _ hy)) y hy

theorem outcome_of_mem_made {s : m.State} {calls : List (C × (Nat → m.Env))} :
    ∀ x ∈ made m code s calls, ∃ env, x.outcome = run m (code x.call) x.pre env := by
  induction calls generalizing s with
  | nil => simp [made]
  | cons x calls ih =>
    obtain ⟨c, env⟩ := x
    rw [made]
    exact List.forall_mem_cons.mpr ⟨⟨env, rfl⟩, ih⟩

theorem made_take {s : m.State} {calls : List (C × (Nat → m.Env))} (n : Nat) :
    made m code s (calls.take n) = (made m code s calls).take n := by
  induction calls generalizing s n with
  | nil => simp [made]
  | cons x calls ih =>
    cases n with
    | zero => rfl
    | succ n => exact congrArg _ (ih n)

theorem made_from {s : m.State} {calls : List (C × (Nat → m.Env))}
    {before rest : List (Made m ε α C)} (split : made m code s calls = before ++ rest) :
    ∃ s' calls', rest = made m code s' calls' := by
  induction before generalizing s calls with
  | nil => exact ⟨s, calls, split.symm⟩
  | cons y before ih =>
    cases calls with
    | nil => cases split
    | cons x calls => exact ih (List.cons.inj split).2

theorem made_cons {s : m.State} {calls : List (C × (Nat → m.Env))} {x : Made m ε α C}
    {rest : List (Made m ε α C)} (split : x :: rest = made m code s calls) :
    ∃ calls', rest = made m code x.outcome.state calls' ∧
      ∃ env, x.outcome = run m (code x.call) x.pre env := by
  cases calls with
  | nil => cases split
  | cons y calls =>
    obtain ⟨c, env⟩ := y
    obtain ⟨rfl, rfl⟩ := List.cons.inj split
    exact ⟨calls, rfl, env, rfl⟩

end Made

end Webengine.Library.Calls
