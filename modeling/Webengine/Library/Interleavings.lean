/- digest: Threads of programs over one machine, interleaved by an arbitrary schedule:
   the history of a run, the part of it each thread took, and the rules of induction.
   uses: nothing of the modelled repository. -/

import Webengine.Library.Machines
import Mathlib.Data.List.Induction

set_option autoImplicit false
set_option relaxedAutoImplicit false

namespace Webengine.Library.Interleavings

open Webengine.Library.Programs
open Webengine.Library.Machines (Machine Event run later)

variable {ε Op α β : Type} {Ans : Op → Type}

/-- What every thread still has to do, the shared state and the steps taken so far.
A thread that has taken no step stands for one that has not arrived yet. -/
structure Config (m : Machine Ans) (ε α : Type) where
  pool : Nat → Prog ε Ans α
  state : m.State
  log : List (Event m)

variable {m : Machine Ans}

namespace Config

def start (pool : Nat → Prog ε Ans α) (s : m.State) : Config m ε α := ⟨pool, s, []⟩

/-- Thread `t` takes its next step; a finished thread takes none. -/
def step (c : Config m ε α) (t : Nat) (env : m.Env) : Config m ε α :=
  match c.pool t with
  | .ret _ => c
  | .raise _ => c
  | .op o k =>
    { pool := Function.update c.pool t (k (m.step env c.state o).1)
      state := (m.step env c.state o).2
      log := c.log ++ [⟨t, c.state, env, o⟩] }

/-- Play a schedule: who takes the next step, and what the outside world chooses there. -/
def play (c : Config m ε α) (sched : List (Nat × m.Env)) : Config m ε α :=
  sched.foldl (fun c x => c.step x.1 x.2) c

/-- The steps of thread `t`, in order. -/
def own (c : Config m ε α) (t : Nat) : List (Event m) := c.log.filter (fun e => e.tid = t)

theorem step_op {c : Config m ε α} {t : Nat} {o : Op} {k : Ans o → Prog ε Ans α}
    (h : c.pool t = .op o k) (env : m.Env) :
    c.step t env = ⟨Function.update c.pool t (k (m.step env c.state o).1),
      (m.step env c.state o).2, c.log ++ [⟨t, c.state, env, o⟩]⟩ := by
  simp only [step, h]

theorem step_cases (c : Config m ε α) (t : Nat) (env : m.Env) :
    c.step t env = c ∨ ∃ o k, c.pool t = .op o k := by
  unfold step
  cases h : c.pool t with
  | ret a => exact Or.inl rfl
  | raise e => exact Or.inl rfl
  | op o k => exact Or.inr ⟨o, k, rfl⟩

section Step

variable {c : Config m ε α} {t : Nat} {o : Op} {k : Ans o → Prog ε Ans α}

theorem pool_step_self (h : c.pool t = .op o k) (env : m.Env) :
    (c.step t env).pool t = k (m.step env c.state o).1 := by
  rw [step_op h]
  exact Function.update_self ..

theorem pool_step_of_ne {t' : Nat} (ne : t' ≠ t) (env : m.Env) :
    (c.step t env).pool t' = c.pool t' := by
  rcases c.step_cases t env with same | ⟨o, k, h⟩
  · rw [same]
  · rw [step_op h]
    exact Function.update_of_ne ne _ _

theorem state_step (h : c.pool t = .op o k) (env : m.Env) :
    (c.step t env).state = (m.step env c.state o).2 := by
  rw [step_op h]

theorem log_step (h : c.pool t = .op o k) (env : m.Env) :
    (c.step t env).log = c.log ++ [⟨t, c.state, env, o⟩] := by
  rw [step_op h]

theorem own_step_self (h : c.pool t = .op o k) (env : m.Env) :
    (c.step t env).own t = c.own t ++ [⟨t, c.state, env, o⟩] := by
  rw [step_op h]
  simp [own, List.filter_append]

theorem own_step_of_ne {t' : Nat} (ne : t' ≠ t) (env : m.Env) :
    (c.step t env).own t' = c.own t' := by
  rcases c.step_cases t env with same | ⟨o, k, h⟩
  · rw [same]
  · rw [step_op h]
    simp [own, List.filter_append, Ne.symm ne]

end Step

theorem play_snoc (c : Config m ε α) (sched : List (Nat × m.Env)) (x : Nat × m.Env) :
    c.play (sched ++ [x]) = (c.play sched).step x.1 x.2 := by
  simp [play]

theorem own_length_of_op {pool : Nat → Prog ε Ans α} {s : m.State} {sched : List (Nat × m.Env)}
    {t : Nat} {o : Op} {k : Ans o → Prog ε Ans α}
    (h : ((start pool s).play sched).pool t = .op o k) :
    (((start pool s).play sched).own t).length = (sched.map Prod.fst).count t := by
  induction sched using List.reverseRecOn generalizing o k with
  | nil => rfl
  | append_singleton sched x ih =>
    obtain ⟨t', env⟩ := x
    rw [play_snoc] at h ⊢
    rw [List.map_append, List.count_append]
    by_cases same : t' = t
    · subst same
      rcases step_cases ((start pool s).play sched) t' env with stays | ⟨o', k', hop⟩
      · cases hp : ((start pool s).play sched).pool t' with
        | op o' k' =>
          rw [step_op hp] at stays
          have log := congrArg (fun c => c.log.length) stays
          simp at log
        | _ =>
          rw [stays, hp] at h
          cases h
      · rw [own_step_self hop, List.length_append, ih hop]
        simp
    · rw [pool_step_of_ne (Ne.symm same)] at h
      rw [own_step_of_ne (Ne.symm same), ih h]
      simp [same]

/-- What every step of an operation preserves holds after every schedule. -/
theorem play_induction {J : Config m ε α → Prop} {c : Config m ε α} (start : J c)
    (step : ∀ (c : Config m ε α) (t : Nat) (env : m.Env) (o : Op) (k : Ans o → Prog ε Ans α),
      J c → c.pool t = .op o k → J (c.step t env))
    (sched : List (Nat × m.Env)) : J (c.play sched) := by
  induction sched using List.reverseRecOn with
  | nil => exact start
  | append_singleton sched x ih =>
    rw [play_snoc]
    rcases step_cases (c.play sched) x.1 x.2 with same | ⟨o, k, h⟩
    · rw [same]
      exact ih
    · exact step _ _ _ o k ih h

/-- An invariant of the history and the state: each step keeps it that is the last one of
some schedule. -/
theorem play_log_induction {J : List (Event m) → m.State → Prop}
    {pool : Nat → Prog ε Ans α} {s : m.State} (begin_ : J [] s)
    (step : ∀ (sched : List (Nat × m.Env)) (l : List (Event m)) (e : Event m),
      ((start pool s).play sched).log = l ++ [e] → J l e.pre → J (l ++ [e]) e.post)
    (sched : List (Nat × m.Env)) :
    J ((start pool s).play sched).log ((start pool s).play sched).state := by
  induction sched using List.reverseRecOn with
  | nil => exact begin_
  | append_singleton sched x ih =>
    rcases step_cases ((start pool s).play sched) x.1 x.2 with same | ⟨o, k, hop⟩
    · rw [play_snoc, same]
      exact ih
    · have last := step (sched ++ [x]) ((start pool s).play sched).log
        ⟨x.1, ((start pool s).play sched).state, x.2, o⟩
      rw [play_snoc, step_op hop] at last ⊢
      exact last rfl ih

/-- Every step of the history was taken from the configuration of a shorter schedule. -/
theorem log_split {pool : Nat → Prog ε Ans α} {s : m.State} {sched : List (Nat × m.Env)}
    {pre post : List (Event m)} {e : Event m}
    (h : ((start pool s).play sched).log = pre ++ e :: post) :
    ∃ sched' k, ((start pool s).play sched').log = pre ∧
      ((start pool s).play sched').state = e.pre ∧
      ((start pool s).play sched').pool e.tid = .op e.op k := by
  induction sched using List.reverseRecOn generalizing post with
  | nil => simp [play, start] at h
  | append_singleton sched x ih =>
    rw [play_snoc] at h
    rcases step_cases ((start pool s).play sched) x.1 x.2 with same | ⟨o, k, hop⟩
    · rw [same] at h
      exact ih h
    · rw [step_op hop] at h
      rcases List.eq_nil_or_concat post with rfl | ⟨post, last, rfl⟩
      · obtain ⟨hpre, he⟩ := List.append_inj' h rfl
        obtain rfl := List.cons.inj he |>.1
        exact ⟨sched, k, hpre, rfl, hop⟩
      · rw [List.concat_eq_append, ← List.cons_append, ← List.append_assoc] at h
        exact ih (List.append_inj' h rfl).1

theorem state_of_log {pool : Nat → Prog ε Ans α} {s : m.State} {sched : List (Nat × m.Env)}
    {pre : List (Event m)} {e : Event m} (h : ((start pool s).play sched).log = pre ++ [e]) :
    ((start pool s).play sched).state = e.post := by
  refine play_log_induction (J := fun l s' => ∀ pre e, l = pre ++ [e] → s' = e.post)
    ?_ ?_ sched pre e h
  · intro pre e h
    simp at h
  · intro sched l e _ _ pre e' h
    rw [(List.append_inj' h rfl).2 |> List.singleton_inj.mp]

theorem related_between {R : m.State → m.State → Prop} (refl : ∀ s, R s s)
    (trans : ∀ s s' s'', R s s' → R s' s'' → R s s'') {pool : Nat → Prog ε Ans α} {s : m.State}
    {sched : List (Nat × m.Env)} {x y z : List (Event m)} {a e : Event m}
    (h : ((start pool s).play sched).log = x ++ a :: (y ++ e :: z))
    (keep : ∀ e' ∈ y, R e'.pre e'.post) : R a.post e.pre := by
  have step : ∀ {w b c v}, ((start pool s).play sched).log = w ++ b :: c :: v →
      c.pre = b.post := by
    intro w b c v h
    rw [List.append_cons w b (c :: v)] at h
    obtain ⟨sched', k, hlog, hstate, -⟩ := log_split h
    rw [← hstate, state_of_log hlog]
  induction y using List.reverseRecOn generalizing e z with
  | nil =>
    rw [step h]
    exact refl _
  | append_singleton y b ih =>
    have before : ((start pool s).play sched).log = x ++ a :: (y ++ b :: e :: z) := by
      rw [h]
      simp
    have up : R a.post b.pre := ih before fun e' he' => keep e' (by simp [he'])
    have last : R b.pre b.post := keep b (by simp)
    rw [← List.cons_append, ← List.append_assoc] at before
    rw [step before]
    exact trans _ _ _ up last

theorem constant_between {T : Type} (f : m.State → T) {pool : Nat → Prog ε Ans α} {s : m.State}
    {sched : List (Nat × m.Env)} {x y z : List (Event m)} {a e : Event m}
    (h : ((start pool s).play sched).log = x ++ a :: (y ++ e :: z))
    (keep : ∀ e' ∈ a :: y, f e'.post = f e'.pre) : f e.pre = f a.pre := by
  have later : f e.pre = f a.post := by
    refine related_between (R := fun s s' => f s' = f s) (fun _ => rfl) ?_ h ?_
    · intro s s' s'' first second
      exact second.trans first
    · intro e' he'
      exact keep e' (List.mem_cons_of_mem _ he')
  rw [later, keep a List.mem_cons_self]

end Config

/-- `Follows p l q`: with the answers the steps `l` got, `p` has become `q`. -/
inductive Follows : Prog ε Ans α → List (Event m) → Prog ε Ans α → Prop
  | nil (p : Prog ε Ans α) : Follows p [] p
  | cons {t : Nat} {s : m.State} {env : m.Env} {o : Op} {k : Ans o → Prog ε Ans α}
      {l : List (Event m)} {q : Prog ε Ans α} :
      Follows (k (m.step env s o).1) l q → Follows (.op o k) (⟨t, s, env, o⟩ :: l) q

namespace Follows

theorem snoc {p : Prog ε Ans α} {l : List (Event m)} {o : Op} {k : Ans o → Prog ε Ans α}
    (h : Follows p l (.op o k)) (t : Nat) (s : m.State) (env : m.Env) :
    Follows p (l ++ [⟨t, s, env, o⟩]) (k (m.step env s o).1) := by
  generalize hq : Prog.op o k = q at h
  induction h with
  | nil p =>
    subst hq
    exact .cons (.nil _)
  | cons h ih => exact .cons (ih hq)

theorem trans {p q r : Prog ε Ans α} {l l' : List (Event m)} (h : Follows p l q)
    (h' : Follows q l' r) : Follows p (l ++ l') r := by
  induction h with
  | nil p => exact h'
  | cons h ih => exact .cons (ih h')

theorem split {p : Prog ε Ans α} {l l' : List (Event m)} {e : Event m} {q : Prog ε Ans α}
    (h : Follows p (l ++ e :: l') q) :
    ∃ k, Follows p l (.op e.op k) ∧ Follows (k e.ans) l' q := by
  induction l generalizing p with
  | nil =>
    cases h with
    | cons rest => exact ⟨_, .nil _, rest⟩
  | cons a l ih =>
    cases h with
    | cons rest =>
      obtain ⟨k, first, after⟩ := ih rest
      exact ⟨k, .cons first, after⟩

theorem of_nil {p q : Prog ε Ans α} (h : Follows (m := m) p [] q) : q = p := by
  cases h with
  | nil => rfl

theorem of_ret {a : α} {l : List (Event m)} {q : Prog ε Ans α} (h : Follows (.ret a) l q) :
    l = [] ∧ q = .ret a := by
  cases h with
  | nil => exact ⟨rfl, rfl⟩

theorem of_raise {e : ε} {l : List (Event m)} {q : Prog ε Ans α}
    (h : Follows (.raise e) l q) : l = [] ∧ q = .raise e := by
  cases h with
  | nil => exact ⟨rfl, rfl⟩

theorem of_op {o : Op} {k : Ans o → Prog ε Ans α} {l : List (Event m)} {q : Prog ε Ans α}
    (h : Follows (.op o k) l q) :
    (l = [] ∧ q = .op o k) ∨ ∃ t s env l', l = ⟨t, s, env, o⟩ :: l' ∧
      Follows (k (m.step env s o).1) l' q := by
  cases h with
  | nil => exact Or.inl ⟨rfl, rfl⟩
  | cons h => exact Or.inr ⟨_, _, _, _, rfl, h⟩

theorem op_ret {o : Op} {k : Ans o → Prog ε Ans α} {a : α} {l : List (Event m)}
    (h : Follows (.op o k) l (.ret a)) :
    ∃ t s env l', l = ⟨t, s, env, o⟩ :: l' ∧ Follows (k (m.step env s o).1) l' (.ret a) := by
  rcases of_op h with ⟨-, same⟩ | taken
  · cases same
  · exact taken

theorem of_op_ne {o o' : Op} {k : Ans o → Prog ε Ans α} {k' : Ans o' → Prog ε Ans α}
    {l : List (Event m)} (h : Follows (.op o k) l (.op o' k')) (ne : o ≠ o') :
    ∃ t s env l', l = ⟨t, s, env, o⟩ :: l' ∧ Follows (k (m.step env s o).1) l' (.op o' k') := by
  rcases of_op h with ⟨-, same⟩ | taken
  · injection same with ho
    exact absurd ho.symm ne
  · exact taken

theorem not_ret_op {a : α} {l : List (Event m)} {o : Op} {k : Ans o → Prog ε Ans α} :
    ¬ Follows (.ret a) l (.op o k) := by
  intro h
  cases (of_ret h).2

theorem not_raise_op {e : ε} {l : List (Event m)} {o : Op} {k : Ans o → Prog ε Ans α} :
    ¬ Follows (.raise e) l (.op o k) := by
  intro h
  cases (of_raise h).2

theorem of_bind_ret {p : Prog ε Ans α} {f : α → Prog ε Ans β} {l : List (Event m)} {b : β}
    (h : Follows (p >>= f) l (.ret b)) :
    ∃ l₁ l₂ a, l = l₁ ++ l₂ ∧ Follows p l₁ (.ret a) ∧ Follows (f a) l₂ (.ret b) := by
  induction p generalizing l with
  | ret a => exact ⟨[], l, a, rfl, .nil _, h⟩
  | raise e => cases (of_raise h).2
  | op o k ih =>
    obtain ⟨t, s, env, l', rfl, rest⟩ := op_ret h
    obtain ⟨l₁, l₂, a, rfl, hp, hf⟩ := ih _ rest
    exact ⟨_ :: l₁, l₂, a, rfl, .cons hp, hf⟩

theorem of_tryCatch {p : Prog ε Ans α} {g : ε → Prog ε Ans α} {l : List (Event m)}
    {q : Prog ε Ans α} (h : Follows (p.tryCatch g) l q) :
    (∃ p', Follows p l p' ∧ q = p'.tryCatch g) ∨
      ∃ l₁ l₂ e, l = l₁ ++ l₂ ∧ Follows p l₁ (.raise e) ∧ Follows (g e) l₂ q := by
  induction p generalizing l with
  | ret a =>
    obtain ⟨rfl, rfl⟩ := of_ret h
    exact Or.inl ⟨_, .nil _, rfl⟩
  | raise e => exact Or.inr ⟨[], l, e, rfl, .nil _, h⟩
  | op o k ih =>
    rcases of_op h with ⟨rfl, rfl⟩ | ⟨t, s, env, l', rfl, h'⟩
    · exact Or.inl ⟨_, .nil _, rfl⟩
    · rcases ih _ h' with ⟨p', hp, rfl⟩ | ⟨l₁, l₂, e, rfl, hp, hg⟩
      · exact Or.inl ⟨p', .cons hp, rfl⟩
      · exact Or.inr ⟨_ :: l₁, l₂, e, rfl, .cons hp, hg⟩

theorem of_tryCatch_op {p : Prog ε Ans α} {f : ε → α} {l : List (Event m)} {o : Op}
    {k : Ans o → Prog ε Ans α} (h : Follows (p.tryCatch fun e => .ret (f e)) l (.op o k)) :
    ∃ k', Follows p l (.op o k') := by
  rcases of_tryCatch h with ⟨p', hp, hq⟩ | ⟨l₁, l₂, e, -, -, hret⟩
  · cases p' with
    | ret a => cases hq
    | raise e => cases hq
    | op o' k' =>
      rw [Prog.tryCatch_op] at hq
      injection hq with ho
      subst ho
      exact ⟨k', hp⟩
  · exact absurd (of_ret hret).2 (by simp)

theorem only {P : Op → Prop} {p : Prog ε Ans α} {l : List (Event m)} {q : Prog ε Ans α}
    (h : Follows p l q) (hp : p.Only P) : (∀ e ∈ l, P e.op) ∧ q.Only P := by
  induction h with
  | nil p => exact ⟨by simp, hp⟩
  | cons h ih =>
    obtain ⟨ho, hk⟩ := hp
    obtain ⟨hl, hq⟩ := ih (hk _)
    exact ⟨List.forall_mem_cons.mpr ⟨ho, hl⟩, hq⟩

theorem relies {R : (o : Op) → Ans o → Prop} {P : Op → Prop} {Q : α → Prop}
    {p : Prog ε Ans α} {l : List (Event m)} {q : Prog ε Ans α} (h : Follows p l q)
    (hp : p.Relies R P Q) (met : ∀ e ∈ l, R e.op e.ans) : q.Relies R P Q := by
  induction h with
  | nil p => exact hp
  | cons h ih =>
    obtain ⟨here, later⟩ := List.forall_mem_cons.mp met
    exact ih (hp.2 _ here) later

theorem quiet {p : Prog ε Ans α} {l : List (Event m)} {q : Prog ε Ans α}
    (h : Follows p l q) (hp : p.Quiet) : q.Quiet := by
  induction h with
  | nil p => exact hp
  | cons h ih => exact ih (hp _)

end Follows

/-- Left alone from any point on, a thread comes to its end. -/
theorem Config.exists_play_ret {t : Nat} {p : Prog ε Ans α} (quiet : p.Quiet) :
    ∀ (c : Config m ε α) (env : Nat → m.Env), c.pool t = p →
    ∃ sched a, (c.play sched).pool t = .ret a ∧ (run m p c.state env).result = .ok a := by
  induction p with
  | ret a =>
    intro c env hp
    exact ⟨[], a, hp, rfl⟩
  | raise e => exact quiet.elim
  | op o k ih =>
    intro c env hp
    have next : (c.step t (env 0)).pool t = k (m.step (env 0) c.state o).1 := by
      rw [step_op hp]
      exact Function.update_self ..
    obtain ⟨sched, a, ended, result⟩ := ih _ (quiet _) _ (later env) next
    refine ⟨(t, env 0) :: sched, a, ended, ?_⟩
    rw [step_op hp] at result
    exact result

/-- Whatever the others do, a thread has followed its own program. -/
theorem Config.play_follows (pool : Nat → Prog ε Ans α) (s : m.State)
    (sched : List (Nat × m.Env)) (t : Nat) :
    Follows (pool t) (((start pool s).play sched).own t)
      (((start pool s).play sched).pool t) := by
  refine play_induction (J := fun c => Follows (pool t) (c.own t) (c.pool t)) (.nil _) ?_ sched
  intro c t' env o k h hop
  rw [step_op hop]
  by_cases ht : t' = t
  · subst ht
    rw [hop] at h
    simpa [own, List.filter_append] using h.snoc t' c.state env
  · simpa [own, List.filter_append, ht, Function.update_of_ne (Ne.symm ht)] using h

/-- Threads that keep an invariant as long as their answers meet `R`, over a machine whose answers
meet it as long as the invariant holds, keep it, and get such answers only. -/
theorem Config.play_relies {J : m.State → Prop} {R : (o : Op) → Ans o → Prop} {P : Op → Prop}
    {Q : Nat → α → Prop} {pool : Nat → Prog ε Ans α} {s : m.State} (begin_ : J s)
    (keeps : ∀ (env : m.Env) (s : m.State) (o : Op), J s → P o →
      R o (m.step env s o).1 ∧ J (m.step env s o).2)
    (threads : ∀ t, (pool t).Relies R P (Q t)) (sched : List (Nat × m.Env)) :
    J ((start pool s).play sched).state ∧
      ∀ e ∈ ((start pool s).play sched).log, R e.op e.ans := by
  have whole : J ((start pool s).play sched).state ∧
      (∀ t, (((start pool s).play sched).pool t).Relies R P (Q t)) ∧
      ∀ e ∈ ((start pool s).play sched).log, R e.op e.ans := by
    refine play_induction (J := fun c : Config m ε α => J c.state ∧
      (∀ t, (c.pool t).Relies R P (Q t)) ∧ ∀ e ∈ c.log, R e.op e.ans) ?_ ?_ sched
    · exact ⟨begin_, threads, by simp [start]⟩
    · rintro c t env o k ⟨holds, relies, answered⟩ hop
      have here := relies t
      rw [hop] at here
      obtain ⟨met, kept⟩ := keeps env c.state o holds here.1
      refine ⟨by rwa [state_step hop], fun t' => ?_, fun e he => ?_⟩
      · by_cases same : t' = t
        · subst same
          rw [pool_step_self hop]
          exact here.2 _ met
        · rw [pool_step_of_ne same]
          exact relies t'
      · rw [log_step hop] at he
        rcases List.mem_append.mp he with he | he
        · exact answered e he
        · rw [List.mem_singleton.mp he]
          exact met
  exact ⟨whole.1, whole.2.2⟩

end Webengine.Library.Interleavings
