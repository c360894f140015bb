/- digest: Programs of atomic operations with exceptions, as trees over an interface.
   uses: nothing of the modelled repository. -/

import Mathlib.Logic.Function.Basic
import Mathlib.Logic.IsEmpty.Basic

set_option autoImplicit false
set_option relaxedAutoImplicit false

namespace Webengine.Library.Programs

/-- A program over the interface `Ans`: each atomic operation `o` is answered by an
`Ans o`, and the program goes on with the answer, returns, or raises an exception. -/
inductive Prog (ε : Type) {Op : Type} (Ans : Op → Type) (α : Type) : Type
  | ret (a : α)
  | raise (e : ε)
  | op (o : Op) (k : Ans o → Prog ε Ans α)

namespace Prog

variable {ε Op Op' α β : Type} {Ans : Op → Type} {Ans' : Op' → Type}

protected def bind : Prog ε Ans α → (α → Prog ε Ans β) → Prog ε Ans β
  | ret a, f => f a
  | raise e, _ => raise e
  | op o k, f => op o (fun a => (k a).bind f)

instance : Monad (Prog ε Ans) where
  pure := ret
  bind := Prog.bind

/-- Run the handler `h` on the exception of `p`, if it raises one. -/
def tryCatch : Prog ε Ans α → (ε → Prog ε Ans α) → Prog ε Ans α
  | ret a, _ => ret a
  | raise e, h => h e
  | op o k, h => op o (fun a => (k a).tryCatch h)

/-- The program of one operation. -/
def perform (o : Op) : Prog ε Ans (Ans o) := op o ret

def ofExcept : Except ε α → Prog ε Ans α
  | .ok a => ret a
  | .error e => raise e

/-- Replace each operation by a program over another interface. -/
def interp (f : (o : Op) → Prog ε Ans' (Ans o)) : Prog ε Ans α → Prog ε Ans' α
  | ret a => ret a
  | raise e => raise e
  | op o k => (f o).bind (fun a => (k a).interp f)

@[simp] theorem pure_def (a : α) : (pure a : Prog ε Ans α) = ret a := rfl

@[simp] theorem ret_bind (a : α) (f : α → Prog ε Ans β) : (ret a >>= f) = f a := rfl

@[simp] theorem raise_bind (e : ε) (f : α → Prog ε Ans β) :
    ((raise e : Prog ε Ans α) >>= f) = raise e := rfl

@[simp] theorem op_bind (o : Op) (k : Ans o → Prog ε Ans α) (f : α → Prog ε Ans β) :
    (op o k >>= f) = op o (fun a => k a >>= f) := rfl

@[simp] theorem perform_bind (o : Op) (f : Ans o → Prog ε Ans β) :
    (perform o >>= f) = op o f := rfl

@[simp] theorem tryCatch_ret (a : α) (h : ε → Prog ε Ans α) :
    (ret a).tryCatch h = ret a := rfl

@[simp] theorem tryCatch_raise (e : ε) (h : ε → Prog ε Ans α) :
    (raise e).tryCatch h = h e := rfl

@[simp] theorem tryCatch_op (o : Op) (k : Ans o → Prog ε Ans α) (h : ε → Prog ε Ans α) :
    (op o k).tryCatch h = op o (fun a => (k a).tryCatch h) := rfl

theorem bind_ret (p : Prog ε Ans α) : p >>= ret = p := by
  induction p with
  | ret a => rfl
  | raise e => rfl
  | op o k ih => exact congrArg (op o) (funext ih)

theorem bind_assoc {γ : Type} (p : Prog ε Ans α) (f : α → Prog ε Ans β)
    (g : β → Prog ε Ans γ) : (p >>= f) >>= g = p >>= fun a => f a >>= g := by
  induction p with
  | ret a => rfl
  | raise e => rfl
  | op o k ih => exact congrArg (op o) (funext ih)

instance : LawfulMonad (Prog ε Ans) :=
  LawfulMonad.mk' (Prog ε Ans) bind_ret (fun _ _ => rfl) bind_assoc

/-- Whatever the answers, the program performs only operations in `P`. -/
def Only (P : Op → Prop) : Prog ε Ans α → Prop
  | ret _ => True
  | raise _ => True
  | op o k => P o ∧ ∀ a, (k a).Only P

@[simp] theorem only_ret (P : Op → Prop) (a : α) : (ret a : Prog ε Ans α).Only P := trivial

@[simp] theorem only_raise (P : Op → Prop) (e : ε) : (raise e : Prog ε Ans α).Only P := trivial

@[simp] theorem only_op {P : Op → Prop} {o : Op} {k : Ans o → Prog ε Ans α} :
    (op o k).Only P ↔ P o ∧ ∀ a, (k a).Only P := Iff.rfl

@[simp] theorem only_perform {P : Op → Prop} {o : Op} :
    (perform o : Prog ε Ans (Ans o)).Only P ↔ P o := by
  simp [perform]

theorem Only.mono {P Q : Op → Prop} {p : Prog ε Ans α} (h : p.Only P) (le : ∀ o, P o → Q o) :
    p.Only Q := by
  induction p with
  | ret a => exact trivial
  | raise e => exact trivial
  | op o k ih =>
    obtain ⟨ho, hk⟩ := h
    exact ⟨le o ho, fun a => ih a (hk a)⟩

theorem only_ofExcept (P : Op → Prop) (x : Except ε α) :
    (ofExcept x : Prog ε Ans α).Only P := by
  cases x <;> exact trivial

theorem only_bind {P : Op → Prop} {p : Prog ε Ans α} {f : α → Prog ε Ans β}
    (hp : p.Only P) (hf : ∀ a, (f a).Only P) : (p >>= f).Only P := by
  induction p with
  | ret a => exact hf a
  | raise e => exact hp
  | op o k ih =>
    obtain ⟨ho, hk⟩ := hp
    exact ⟨ho, fun a => ih a (hk a)⟩

theorem only_interp {P : Op' → Prop} {f : (o : Op) → Prog ε Ans' (Ans o)}
    (hf : ∀ o, (f o).Only P) (p : Prog ε Ans α) : (p.interp f).Only P := by
  induction p with
  | ret a => exact trivial
  | raise e => exact trivial
  | op o k ih => exact only_bind (hf o) ih

/-- As long as the answers meet `R`, the program performs operations in `P` only, and what it
returns meets `Q`. -/
def Relies (R : (o : Op) → Ans o → Prop) (P : Op → Prop) (Q : α → Prop) : Prog ε Ans α → Prop
  | ret a => Q a
  | raise _ => True
  | op o k => P o ∧ ∀ a, R o a → (k a).Relies R P Q

section Relies

variable {R : (o : Op) → Ans o → Prop} {P : Op → Prop} {Q : α → Prop} {Q' : β → Prop}

theorem relies_of_only {p : Prog ε Ans α} (only : p.Only P) :
    p.Relies R P fun _ => True := by
  induction p with
  | ret a => trivial
  | raise e => trivial
  | op o k ih =>
    obtain ⟨ho, hk⟩ := only
    exact ⟨ho, fun a _ => ih a (hk a)⟩

theorem Relies.mono {p : Prog ε Ans α} {Q'' : α → Prop} (h : p.Relies R P Q)
    (le : ∀ a, Q a → Q'' a) : p.Relies R P Q'' := by
  induction p with
  | ret a => exact le a h
  | raise e => trivial
  | op o k ih =>
    obtain ⟨ho, hk⟩ := h
    exact ⟨ho, fun a met => ih a (hk a met)⟩

theorem relies_bind {p : Prog ε Ans α} {f : α → Prog ε Ans β} (hp : p.Relies R P Q)
    (hf : ∀ a, Q a → (f a).Relies R P Q') : (p >>= f).Relies R P Q' := by
  induction p with
  | ret a => exact hf a hp
  | raise e => trivial
  | op o k ih =>
    obtain ⟨ho, hk⟩ := hp
    exact ⟨ho, fun a met => ih a (hk a met)⟩

theorem relies_tryCatch {p : Prog ε Ans α} {h : ε → Prog ε Ans α} (hp : p.Relies R P Q)
    (hh : ∀ e, (h e).Relies R P Q) : (p.tryCatch h).Relies R P Q := by
  induction p with
  | ret a => exact hp
  | raise e => exact hh e
  | op o k ih =>
    obtain ⟨ho, hk⟩ := hp
    exact ⟨ho, fun a met => ih a (hk a met)⟩

/-- A program that relies on nothing keeps what it returns, whatever it is run over. -/
theorem relies_interp {R' : (o : Op') → Ans' o → Prop} {P' : Op' → Prop}
    {f : (o : Op) → Prog ε Ans' (Ans o)} (hf : ∀ o, (f o).Only P') {p : Prog ε Ans α}
    (hp : p.Relies (fun _ _ => True) (fun _ => True) Q) : (p.interp f).Relies R' P' Q := by
  induction p with
  | ret a => exact hp
  | raise e => trivial
  | op o k ih => exact relies_bind (relies_of_only (hf o)) fun a _ => ih a (hp.2 a trivial)

end Relies

/-- Whatever the answers, the program raises no exception. -/
def Quiet : Prog ε Ans α → Prop
  | ret _ => True
  | raise _ => False
  | op _ k => ∀ a, (k a).Quiet

@[simp] theorem quiet_ret (a : α) : (ret a : Prog ε Ans α).Quiet := trivial

@[simp] theorem quiet_op {o : Op} {k : Ans o → Prog ε Ans α} :
    (op o k).Quiet ↔ ∀ a, (k a).Quiet := Iff.rfl

theorem quiet_bind {p : Prog ε Ans α} {f : α → Prog ε Ans β} (hp : p.Quiet)
    (hf : ∀ a, (f a).Quiet) : (p >>= f).Quiet := by
  induction p with
  | ret a => exact hf a
  | raise e => exact hp.elim
  | op o k ih => exact fun a => ih a (hp a)

theorem tryCatch_of_quiet {p : Prog ε Ans α} (quiet : p.Quiet) (h : ε → Prog ε Ans α) :
    p.tryCatch h = p := by
  induction p with
  | ret a => rfl
  | raise e => exact quiet.elim
  | op o k ih => exact congrArg (op o) (funext fun a => ih a (quiet a))

theorem quiet_tryCatch {p : Prog ε Ans α} {h : ε → Prog ε Ans α} (quiet : ∀ e, (h e).Quiet) :
    (p.tryCatch h).Quiet := by
  induction p with
  | ret a => trivial
  | raise e => exact quiet e
  | op o k ih => exact ih

/-- Whatever the answers, the operations that are performed show exactly `bs`, in order. -/
def Shows {σ : Type} (f : Op → Option σ) : Prog ε Ans α → List σ → Prop
  | ret _, bs => bs = []
  | raise _, bs => bs = []
  | op o k, bs => ∃ rest, bs = (f o).toList ++ rest ∧ ∀ a, (k a).Shows f rest

theorem shows_of_only {σ : Type} {f : Op → Option σ} {P : Op → Prop}
    (hidden : ∀ o, P o → f o = none) {p : Prog ε Ans α} (only : p.Only P) : p.Shows f [] := by
  induction p with
  | ret a => rfl
  | raise e => rfl
  | op o k ih =>
    obtain ⟨ho, hk⟩ := only
    exact ⟨[], by rw [hidden o ho]; rfl, fun a => ih a (hk a)⟩

theorem shows_bind [IsEmpty ε] {σ : Type} {f : Op → Option σ} {p : Prog ε Ans α}
    {g : α → Prog ε Ans β} {bs bs' : List σ} (hp : p.Shows f bs) (hg : ∀ a, (g a).Shows f bs') :
    (p >>= g).Shows f (bs ++ bs') := by
  induction p generalizing bs with
  | ret a =>
    obtain rfl : bs = [] := hp
    exact hg a
  | raise e => exact isEmptyElim e
  | op o k ih =>
    obtain ⟨rest, rfl, hk⟩ := hp
    exact ⟨rest ++ bs', List.append_assoc _ _ _, fun a => ih a (hk a)⟩

theorem shows_bind_silent [IsEmpty ε] {σ : Type} {f : Op → Option σ} {p : Prog ε Ans α}
    {g : α → Prog ε Ans β} {bs : List σ} (hp : p.Shows f bs) (hg : ∀ a, (g a).Shows f []) :
    (p >>= g).Shows f bs := by
  have both := shows_bind hp hg
  rwa [List.append_nil] at both

/-- What a program that has ended has returned. -/
def returned : Prog ε Ans α → Option α
  | ret a => some a
  | raise _ => none
  | op _ _ => none

theorem eq_ret_of_returned {p : Prog ε Ans α} {a : α} (h : p.returned = some a) : p = ret a := by
  cases p with
  | ret b => exact congrArg ret (Option.some.inj h)
  | raise e => cases h
  | op o k => cases h

end Prog

end Webengine.Library.Programs
