/- digest: What a program has shown by the time it returns: conditions on its value and on what
   its operations show, whatever the answers are.
   uses: nothing of the modelled repository. -/

import Webengine.Library.Interleavings

set_option autoImplicit false
set_option relaxedAutoImplicit false

namespace Webengine.Library.Traces

open Webengine.Library.Programs
open Webengine.Library.Machines
open Webengine.Library.Interleavings

variable {ε Op α β σ : Type} {Ans : Op → Type} {f : Op → Option σ}

/-- Whatever the answers, if the program returns, `Q` holds of its value and of what its
operations have shown, in order. -/
def Ends (f : Op → Option σ) : Prog ε Ans α → (α → List σ → Prop) → Prop
  | .ret a, Q => Q a []
  | .raise _, _ => True
  | .op o k, Q => ∀ a, Ends f (k a) fun b bs => Q b ((f o).toList ++ bs)

/-- The operation shows nothing. -/
def Hidden (f : Op → Option σ) (o : Op) : Prop := f o = none

@[simp] theorem ends_ret {a : α} {Q : α → List σ → Prop} :
    Ends f (.ret a : Prog ε Ans α) Q ↔ Q a [] := Iff.rfl

theorem Ends.mono {p : Prog ε Ans α} {Q Q' : α → List σ → Prop} (h : Ends f p Q)
    (le : ∀ a bs, Q a bs → Q' a bs) : Ends f p Q' := by
  induction p generalizing Q Q' with
  | ret a => exact le _ _ h
  | raise e => trivial
  | op o k ih => exact fun a => ih a (h a) fun b bs => le b _

theorem ends_true (p : Prog ε Ans α) : Ends f p fun _ _ => True := by
  induction p with
  | ret a => trivial
  | raise e => trivial
  | op o k ih => exact fun a => ih a

theorem ends_bind {p : Prog ε Ans α} {g : α → Prog ε Ans β} {Q : β → List σ → Prop} :
    Ends f (p >>= g) Q ↔ Ends f p fun a bs => Ends f (g a) fun b bs' => Q b (bs ++ bs') := by
  induction p generalizing Q with
  | ret a => rfl
  | raise e => rfl
  | op o k ih =>
    rw [Prog.op_bind]
    refine forall_congr' fun a => (ih a).trans ?_
    simp only [List.append_assoc]

theorem ends_of_hidden {p : Prog ε Ans α} (only : p.Only (Hidden f)) :
    Ends f p fun _ bs => bs = [] := by
  induction p with
  | ret a => rfl
  | raise e => trivial
  | op o k ih =>
    obtain ⟨ho, hk⟩ := only
    intro a
    refine (ih a (hk a)).mono fun b bs none => ?_
    rw [ho, none]
    rfl

theorem ends_bind_of_hidden {p : Prog ε Ans α} {g : α → Prog ε Ans β} {Q : β → List σ → Prop}
    (only : p.Only (Hidden f)) (rest : ∀ a, Ends f (g a) Q) : Ends f (p >>= g) Q := by
  rw [ends_bind]
  refine (ends_of_hidden only).mono fun a bs none => (rest a).mono fun b bs' h => ?_
  rw [none]
  exact h

section Runs

variable {m : Machine Ans}

theorem only_run {P : Op → Prop} {p : Prog ε Ans α} (only : p.Only P) (s : m.State)
    (env : Nat → m.Env) : ∀ e ∈ (run m p s env).log, P e.op := by
  induction p generalizing s env with
  | ret a => exact fun e none => absurd none List.not_mem_nil
  | raise e => exact fun e none => absurd none List.not_mem_nil
  | op o k ih =>
    obtain ⟨ho, hk⟩ := only
    rw [run_op]
    exact List.forall_mem_cons.mpr ⟨ho, ih _ (hk _) _ _⟩

theorem Ends.run {p : Prog ε Ans α} {Q : α → List σ → Prop} (h : Ends f p Q) {s : m.State}
    {env : Nat → m.Env} {a : α} (returned : (run m p s env).result = .ok a) :
    Q a (shows f (run m p s env).log) := by
  induction p generalizing Q s env with
  | ret b =>
    cases returned
    exact h
  | raise e => cases returned
  | op o k ih =>
    rw [run_op] at returned ⊢
    rw [shows_cons]
    exact ih _ (h _) returned

/-- It is about every thread that has returned. -/
theorem Ends.follows {p : Prog ε Ans α} {Q : α → List σ → Prop} (h : Ends f p Q)
    {l : List (Event m)} {a : α} (followed : Follows p l (.ret a)) : Q a (shows f l) := by
  generalize hq : (Prog.ret a : Prog ε Ans α) = q at followed
  induction followed generalizing Q with
  | nil p =>
    subst hq
    exact h
  | cons followed ih =>
    rw [shows_cons]
    exact ih (h _) hq

theorem split_of_own {log l l' : List (Event m)} {e : Event m} {t : Nat}
    (h : log.filter (fun e => e.tid = t) = l ++ e :: l') :
    ∃ pre post, log = pre ++ e :: post ∧ pre.filter (fun e => e.tid = t) = l ∧
      post.filter (fun e => e.tid = t) = l' := by
  obtain ⟨a, b, rfl, rfl, last⟩ := List.filter_eq_append_iff.mp h
  obtain ⟨between, post, rfl, others, -, after⟩ := List.filter_eq_cons_iff.mp last
  refine ⟨a ++ between, post, by simp, ?_, after⟩
  rw [List.filter_append, List.filter_eq_nil_iff.mpr others, List.append_nil]

/-- All steps of the one thread come before those of the other. -/
def Precedes (log : List (Event m)) (t u : Nat) : Prop :=
  ∃ xs ys, log = xs ++ ys ∧ (∀ e ∈ xs, e.tid ≠ u) ∧ ∀ e ∈ ys, e.tid ≠ t

theorem Precedes.not_after {log pre post : List (Event m)} {x : Event m} {t u : Nat}
    (h : Precedes log t u) (split : log = pre ++ x :: post) (first : x.tid = u) :
    ∀ y ∈ post, y.tid ≠ t := by
  obtain ⟨xs, ys, cut, before, after⟩ := h
  rcases List.append_eq_append_iff.mp (split.symm.trans cut) with ⟨rest, rfl, same⟩ |
    ⟨rest, rfl, same⟩
  · cases rest with
    | nil =>
      obtain rfl : x :: post = ys := same
      exact fun y hy => after y (List.mem_cons_of_mem _ hy)
    | cons z rest =>
      obtain ⟨rfl, -⟩ := List.cons.inj same
      exact absurd first (before x (List.mem_append_right _ List.mem_cons_self))
  · subst same
    exact fun y hy => after y (List.mem_append_right _ (List.mem_cons_of_mem _ hy))

/-- What was shown last is a thread's own, if it has shown something before one of its steps, and
it overlaps with no other thread that shows something. -/
theorem getLast_shown {f : Op → Option σ} {log pre post : List (Event m)} {t : Nat}
    (split : log = pre ++ post) (later : ∃ e ∈ post, e.tid = t)
    (apart : ∀ u, u ≠ t → (∀ e ∈ log, e.tid = u → f e.op = none) ∨
      Precedes log u t ∨ Precedes log t u)
    (own : shows f (pre.filter fun e => e.tid = t) ≠ []) :
    (shows f (pre.filter fun e => e.tid = t)).getLast? = (shows f pre).getLast? := by
  induction pre using List.reverseRecOn generalizing post with
  | nil => rfl
  | append_singleton pre r ih =>
    have split' : log = pre ++ r :: post := by rw [split, List.append_assoc]; rfl
    obtain ⟨e, he, mine⟩ := later
    have kept : (pre ++ [r]).filter (fun e => e.tid = t) =
        pre.filter (fun e => e.tid = t) ++ if r.tid = t then [r] else [] := by
      rw [List.filter_append, List.filter_cons, List.filter_nil]
      simp only [decide_eq_true_eq]
    rw [kept, shows_append] at own ⊢
    rw [shows_append]
    cases shown : f r.op with
    | none =>
      have nothing : shows f [r] = [] := by rw [shows_cons, shown]; rfl
      have nothing' : shows f (if r.tid = t then [r] else []) = [] := by
        split
        · exact nothing
        · rfl
      rw [nothing', List.append_nil] at own
      rw [nothing, nothing', List.append_nil, List.append_nil]
      exact ih split' ⟨e, List.mem_cons_of_mem _ he, mine⟩ own
    | some text =>
      have last : shows f [r] = [text] := by rw [shows_cons, shown]; rfl
      by_cases same : r.tid = t
      · rw [if_pos same, last, List.getLast?_concat, List.getLast?_concat]
      · rw [if_neg same] at own
        obtain ⟨text', shown'⟩ := List.exists_mem_of_ne_nil _ own
        rw [show shows f ([] : List (Event m)) = [] from rfl, List.append_nil] at shown'
        obtain ⟨r', hr', -⟩ := List.mem_filterMap.mp shown'
        obtain ⟨logged, mine'⟩ := List.mem_filter.mp hr'
        rcases apart r.tid same with silent | before | after
        · have mem : r ∈ log := by rw [split']; simp
          rw [silent r mem rfl] at shown
          cases shown
        · obtain ⟨xs, ys, rfl⟩ := List.append_of_mem logged
          have cut : log = xs ++ r' :: (ys ++ r :: post) := by rw [split']; simp
          exact absurd rfl (before.not_after cut (of_decide_eq_true mine') r (by simp))
        · exact absurd mine (after.not_after split' rfl e he)

end Runs

end Webengine.Library.Traces
