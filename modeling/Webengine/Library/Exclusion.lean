/- digest: Threads that do not overlap: a run in which each finds the others before their first
   step or at their end is a run of them one after the other.
   uses: nothing of the modelled repository. -/

import Webengine.Library.Calls
import Webengine.Library.Interleavings

set_option autoImplicit false
set_option relaxedAutoImplicit false

namespace Webengine.Library.Exclusion

open Webengine.Library.Calls
open Webengine.Library.Interleavings
open Webengine.Library.Machines
open Webengine.Library.Programs

variable {ε Op α A : Type} {Ans : Op → Type} {m : Machine Ans}

/-- Whoever takes a step finds every other thread before its first step or at its end. -/
def Exclusive : Config m ε α → List (Nat × m.Env) → Prop
  | _, [] => True
  | c, x :: sched =>
    ((∃ o k, c.pool x.1 = .op o k) → ∀ t, t ≠ x.1 → c.own t = [] ∨ ∃ a, c.pool t = .ret a) ∧
      Exclusive (c.step x.1 x.2) sched

/-- What is left of `a` when the threads do what they mean in the given order. -/
def after (f : Nat → A → α × A) (a : A) (order : List Nat) : A :=
  order.foldl (fun a t => (f t a).2) a

/-- The threads that have begun have ended, as if each had run alone, in the given order. -/
structure Serial (f : Nat → A → α × A) (Is : A → m.State → Prop) (a : A) (order : List Nat)
    (c : Config m ε α) : Prop where
  nodup : order.Nodup
  began : ∀ t, t ∈ order ↔ c.own t ≠ []
  result : ∀ before t rest, order = before ++ t :: rest →
    c.pool t = .ret (f t (after f a before)).1
  state : Is (after f a order) c.state

private theorem log_grows (c : Config m ε α) (sched : List (Nat × m.Env)) :
    c.log <+: (c.play sched).log := by
  induction sched generalizing c with
  | nil => exact List.prefix_rfl
  | cons x sched ih =>
    refine List.IsPrefix.trans ?_ (ih (c.step x.1 x.2))
    rcases c.step_cases x.1 x.2 with same | ⟨o, k, h⟩
    · exact (congrArg Config.log same).symm ▸ List.prefix_rfl
    · rw [Config.step_op h]
      exact List.prefix_append _ _

theorem exclusive_append {c : Config m ε α} {sched sched' : List (Nat × m.Env)} :
    Exclusive c (sched ++ sched') ↔ Exclusive c sched ∧ Exclusive (c.play sched) sched' := by
  induction sched generalizing c with
  | nil => exact ⟨fun h => ⟨trivial, h⟩, fun h => h.2⟩
  | cons x sched ih =>
    rw [List.cons_append, Exclusive, Exclusive, ih, and_assoc]
    rfl

/-- One thread may go on while the others have not begun or have ended. -/
theorem exclusive_alone {c : Config m ε α} {u : Nat} {sched : List (Nat × m.Env)}
    (own : ∀ x ∈ sched, x.1 = u)
    (others : ∀ t, t ≠ u → c.own t = [] ∨ ∃ a, c.pool t = .ret a) : Exclusive c sched := by
  induction sched generalizing c with
  | nil => trivial
  | cons x sched ih =>
    obtain rfl : x.1 = u := own x List.mem_cons_self
    refine ⟨fun _ => others, ih (fun y hy => own y (List.mem_cons_of_mem _ hy)) fun t ne => ?_⟩
    rw [Config.own_step_of_ne ne, Config.pool_step_of_ne ne]
    exact others t ne

section Run

variable {f : Nat → A → α × A} {Is : A → m.State → Prop} {M : Event m → Prop}
  {pool : Nat → Prog ε Ans α} {a : A}

/-- Thread `t` is under way, and the ones before it have ended. -/
structure Under (f : Nat → A → α × A) (Is : A → m.State → Prop) (M : Event m → Prop) (a : A)
    (order : List Nat) (t : Nat) (c : Config m ε α) : Prop where
  nodup : (order ++ [t]).Nodup
  began : ∀ t', t' ∈ order ++ [t] ↔ c.own t' ≠ []
  result : ∀ before t' rest, order = before ++ t' :: rest →
    c.pool t' = .ret (f t' (after f a before)).1
  goesOn : wpIf m M (c.pool t) (fun r s' => r = (f t (after f a order)).1 ∧
    Is (f t (after f a order)).2 s') c.state

theorem after_concat (f : Nat → A → α × A) (a : A) (order : List Nat) (t : Nat) :
    after f a (order ++ [t]) = (f t (after f a order)).2 := by
  rw [after, List.foldl_append]
  rfl

theorem Under.ended {order : List Nat} {t : Nat} {c : Config m ε α} {r : α}
    (h : Under f Is M a order t c) (ret : c.pool t = .ret r) :
    Serial f Is a (order ++ [t]) c := by
  have last := h.goesOn
  rw [ret] at last
  obtain ⟨rfl, state⟩ : _ ∧ _ := last
  refine ⟨h.nodup, h.began, fun before t' rest split => ?_, by rw [after_concat]; exact state⟩
  rcases List.eq_nil_or_concat rest with rfl | ⟨rest, u, rfl⟩
  · obtain ⟨rfl, same⟩ := List.append_inj' split rfl
    obtain rfl := List.singleton_inj.mp same
    exact ret
  · rw [List.concat_eq_append, ← List.cons_append, ← List.append_assoc] at split
    exact h.result before t' rest (List.append_inj' split rfl).1

theorem mem_of_mem_log {c : Config m ε α} {sched : List (Nat × m.Env)} :
    ∀ e ∈ (c.play sched).log, e ∈ c.log ∨ (e.tid, e.env) ∈ sched := by
  induction sched generalizing c with
  | nil => exact fun e he => Or.inl he
  | cons x sched ih =>
    intro e he
    rcases ih (c := c.step x.1 x.2) e he with old | later
    · rcases c.step_cases x.1 x.2 with same | ⟨o, k, h⟩
      · rw [same] at old
        exact Or.inl old
      · rw [Config.step_op h] at old
        rcases List.mem_append.mp old with old | new
        · exact Or.inl old
        · rw [List.mem_singleton] at new
          subst new
          exact Or.inr List.mem_cons_self
    · exact Or.inr (List.mem_cons_of_mem _ later)

section Steps

variable (meets : ∀ t a s, Is a s →
  wpIf m M (pool t) (fun r s' => r = (f t a).1 ∧ Is (f t a).2 s') s)

include meets

theorem Serial.begins {order : List Nat} {c : Config m ε α} (h : Serial f Is a order c)
    (rest : ∀ t, c.own t = [] → c.pool t = pool t) {t : Nat} {env : m.Env} {o : Op}
    {k : Ans o → Prog ε Ans α} (hop : c.pool t = .op o k) (allowed : M ⟨0, c.state, env, o⟩) :
    Under f Is M a order t (c.step t env) := by
  have fresh : t ∉ order := by
    intro ht
    obtain ⟨before, rest, split⟩ := List.append_of_mem ht
    rw [h.result before t rest split] at hop
    cases hop
  have unbegun : c.own t = [] := by
    by_contra begun
    exact fresh ((h.began t).mpr begun)
  refine ⟨?_, fun t' => ?_, fun before t' rest' split => ?_, ?_⟩
  · rw [List.nodup_append]
    refine ⟨h.nodup, by simp, fun u hu v hv same => fresh ?_⟩
    rw [← List.mem_singleton.mp hv, ← same]
    exact hu
  · rw [List.mem_append, List.mem_singleton]
    by_cases same : t' = t
    · subst same
      rw [Config.own_step_self hop]
      simp
    · rw [Config.own_step_of_ne same, h.began t']
      simp [same]
  · have ne : t' ≠ t := by
      intro same
      obtain rfl := same
      exact fresh (by simp [split])
    rw [Config.pool_step_of_ne ne]
    exact h.result before t' rest' split
  · have starts := meets t (after f a order) c.state h.state
    rw [← rest t unbegun, hop] at starts
    rw [Config.step_op hop]
    simp only [Function.update_self]
    exact starts env allowed

omit meets in
theorem Under.goes {order : List Nat} {t : Nat} {c : Config m ε α}
    (h : Under f Is M a order t c) {env : m.Env} {o : Op} {k : Ans o → Prog ε Ans α}
    (hop : c.pool t = .op o k) (allowed : M ⟨0, c.state, env, o⟩) :
    Under f Is M a order t (c.step t env) := by
  refine ⟨h.nodup, fun t' => ?_, fun before t' rest' split => ?_, ?_⟩
  · by_cases same : t' = t
    · subst same
      rw [Config.own_step_self hop]
      simp
    · rw [Config.own_step_of_ne same]
      exact h.began t'
  · have ne : t' ≠ t := by
      intro same
      obtain rfl := same
      have twice := h.nodup
      rw [split] at twice
      simp [List.nodup_append] at twice
    rw [Config.pool_step_of_ne ne]
    exact h.result before t' rest' split
  · have next := h.goesOn
    rw [hop] at next
    rw [Config.step_op hop]
    simp only [Function.update_self]
    exact next env allowed

/-- Threads that do not overlap run one after the other: when all that have begun have ended,
they have done what they mean, in the order in which they began. -/
theorem serial_of_exclusive {s : m.State} (h : Is a s) {sched : List (Nat × m.Env)}
    (exclusive : Exclusive (Config.start pool s) sched)
    (allowed : ∀ e ∈ ((Config.start pool s).play sched).log, M ⟨0, e.pre, e.env, e.op⟩)
    (ended : ∀ t, ((Config.start pool s).play sched).own t ≠ [] →
      ∃ r, ((Config.start pool s).play sched).pool t = .ret r) :
    ∃ order, Serial f Is a order ((Config.start pool s).play sched) := by
  -- what holds of each configuration of the run
  have keeps : ∀ (sched : List (Nat × m.Env)) (c : Config m ε α), Exclusive c sched →
      (∀ e ∈ (c.play sched).log, M ⟨0, e.pre, e.env, e.op⟩) →
      (∀ t, c.own t = [] → c.pool t = pool t) →
      ((∃ order, Serial f Is a order c) ∨ ∃ order t, Under f Is M a order t c) →
      (∃ order, Serial f Is a order (c.play sched)) ∨
        ∃ order t, Under f Is M a order t (c.play sched) := by
    intro sched
    induction sched with
    | nil => exact fun _ _ _ _ h => h
    | cons x sched ih =>
      intro c both allowed rest progress
      obtain ⟨alone, exclusive⟩ := both
      rcases c.step_cases x.1 x.2 with same | ⟨o, k, hop⟩
      · change (∃ order, Serial f Is a order ((c.step x.1 x.2).play sched)) ∨
          ∃ order t, Under f Is M a order t ((c.step x.1 x.2).play sched)
        rw [same] at exclusive ⊢
        refine ih c exclusive (fun e he => allowed e ?_) rest progress
        change e ∈ ((c.step x.1 x.2).play sched).log
        rw [same]
        exact he
      · have now : M ⟨0, c.state, x.2, o⟩ := by
          refine allowed ⟨x.1, c.state, x.2, o⟩ ?_
          refine (log_grows (c.step x.1 x.2) sched).subset ?_
          rw [Config.step_op hop]
          simp
        refine ih (c.step x.1 x.2) exclusive allowed (fun t unbegun => ?_) ?_
        · by_cases same : t = x.1
          · subst same
            rw [Config.own_step_self hop] at unbegun
            simp at unbegun
          · rw [Config.own_step_of_ne same] at unbegun
            rw [Config.pool_step_of_ne same]
            exact rest t unbegun
        · right
          rcases progress with ⟨order, serial⟩ | ⟨order, t, under⟩
          · exact ⟨order, x.1, serial.begins meets rest hop now⟩
          · by_cases same : x.1 = t
            · subst same
              exact ⟨order, x.1, under.goes hop now⟩
            · rcases alone ⟨o, k, hop⟩ t (Ne.symm same) with unbegun | ⟨r, ret⟩
              · exact absurd unbegun ((under.began t).mp (by simp))
              · exact ⟨order ++ [t], x.1, (under.ended ret).begins meets rest hop now⟩
  have first : Serial f Is a [] (Config.start pool s) :=
    ⟨List.nodup_nil, fun t => by simp [Config.own, Config.start],
      fun before t rest split => by simp at split, h⟩
  rcases keeps sched (Config.start pool s) exclusive allowed (fun _ _ => rfl)
    (Or.inl ⟨[], first⟩) with serial | ⟨order, t, under⟩
  · exact serial
  · obtain ⟨r, ret⟩ := ended t ((under.began t).mp (by simp))
    exact ⟨order ++ [t], under.ended ret⟩

theorem exists_serial [Nonempty m.Env] (total : ∀ s o, ∃ env, M ⟨0, s, env, o⟩) {s : m.State}
    (h : Is a s) (order : List Nat) :
    ∃ calls, calls.map Prod.fst = order ∧
      (∀ x ∈ made m pool s calls, (∀ e ∈ x.outcome.log, M e) ∧ ∃ before rest,
        order = before ++ x.call :: rest ∧
          x.outcome.result = .ok (f x.call (after f a before)).1) ∧
      Is (after f a order) (finish m pool s calls) := by
  induction order generalizing a s with
  | nil => exact ⟨[], rfl, by simp [made], h⟩
  | cons t order ih =>
    obtain ⟨env, allowed⟩ := exists_run total (pool t) s
    obtain ⟨r, result, rfl, state⟩ := run_of_wpIf (meets t a s h) allowed
    obtain ⟨calls, sameOrder, each, last⟩ := ih state
    refine ⟨(t, env) :: calls, congrArg _ sameOrder, fun x hx => ?_, last⟩
    rw [made] at hx
    rcases List.mem_cons.mp hx with rfl | hx
    · exact ⟨allowed, [], order, rfl, result⟩
    · obtain ⟨allowed', before, rest, split, result'⟩ := each x hx
      exact ⟨allowed', t :: before, rest, congrArg _ split, result'⟩

end Steps

end Run

end Webengine.Library.Exclusion
