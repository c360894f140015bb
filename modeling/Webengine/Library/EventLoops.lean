/- digest: Event loops: chains of asynchronous operations, one after the other, whose completion
   handlers a pool of workers calls. At most one of a chain's operations or handlers is under way.
   uses: nothing of the modelled repository. -/

import Webengine.Library.Interleavings
import Mathlib.Algebra.GroupWithZero.Nat
import Mathlib.Data.List.Basic

set_option autoImplicit false
set_option relaxedAutoImplicit false

namespace Webengine.Library.EventLoops

open Webengine.Library.Programs
open Webengine.Library.Machines (Machine Event)

/-- What a handler does to the loop: it begins another chain, stops the loop, or does something
the loop knows nothing of. -/
inductive Act (W N : Type)
  | spawn (w : W)
  | stop
  | note (n : N)

/-- How a handler ends: acts on the loop, then the start of its chain's next operation. -/
structure Tail (W N : Type) where
  acts : List (Act W N)
  next : Option W

/-- Asynchronous code: what a chain can wait for and how that can end, and the handler called
then. `body` works on the shared state; what it returns decides how the handler ends. The owner
begins a chain with `first` when it runs the loop on some threads, and may begin others. -/
structure Service (ε : Type) {Op : Type} (Ans : Op → Type) where
  Wait : Type
  Result : Wait → Type
  Note : Type
  Value : Type
  body : (w : Wait) → Result w → Prog ε Ans Value
  tail : (w : Wait) → Result w → Value → Tail Wait Note
  first : Wait
  aside : Wait → Prop
  threads : Nat

variable {ε Op : Type} {Ans : Op → Type}

/-- A completed operation, for whose chain a handler has to be called. -/
structure Job (S : Service ε Ans) where
  chain : Nat
  wait : S.Wait
  result : S.Result wait

/-- An operation that was started, and by which handler; `none` is the owner of the loop. -/
structure Started (S : Service ε Ans) where
  chain : Nat
  wait : S.Wait
  origin : Option Nat

/-- A thread that serves the loop. It is in its call of `run`, in the handler number `t`, or
has returned. -/
inductive Worker (S : Service ε Ans)
  | polling
  | working (t : Nat) (job : Job S) (p : Prog ε Ans S.Value)
  | acting (t : Nat) (job : Job S) (rest : Tail S.Wait S.Note)
  | left

/-- The loop, and its history: the handlers that were called, the operations that were started,
what handlers did besides, the chains an exception has ended, and the steps on the shared state,
each with the number of its handler. -/
structure Loop (m : Machine Ans) (S : Service ε Ans) where
  shared : m.State
  chains : Nat
  pending : List (Nat × S.Wait)
  ready : List (Job S)
  workers : List (Worker S)
  stopped : Bool
  jobs : List (Job S)
  started : List (Started S)
  notes : List (Nat × S.Note)
  broken : List Nat
  log : List (Event m)

variable {m : Machine Ans} {S : Service ε Ans}

namespace Loop

/-- Nothing was started yet. -/
def idle (s : m.State) : Loop m S where
  shared := s
  chains := 0
  pending := []
  ready := []
  workers := []
  stopped := false
  jobs := []
  started := []
  notes := []
  broken := []
  log := []

/-- An operation of a chain is started. -/
def start (l : Loop m S) (c : Nat) (w : S.Wait) (origin : Option Nat) : Loop m S :=
  { l with pending := l.pending ++ [(c, w)], started := l.started ++ [⟨c, w, origin⟩] }

/-- A new chain is begun. -/
def begin_ (l : Loop m S) (w : S.Wait) (origin : Option Nat) : Loop m S :=
  { l.start l.chains w origin with chains := l.chains + 1 }

/-- The effect of an act of the handler number `t`, which belongs to the chain `c`. -/
def perform (l : Loop m S) (t c : Nat) : Act S.Wait S.Note → Loop m S
  | .spawn w => l.begin_ w (some t)
  | .stop => { l with stopped := true }
  | .note n => { l with notes := l.notes ++ [(c, n)] }

end Loop

/-- The handler a worker is in, if it still has something to do. -/
def Worker.job : Worker S → Option (Job S)
  | .polling => none
  | .working _ job _ => some job
  | .acting _ _ ⟨[], none⟩ => none
  | .acting _ job _ => some job
  | .left => none

/-- The worker is in no handler. -/
def Worker.Free (x : Worker S) : Prop := x = .polling ∨ x = .left

/-- A worker that is in no handler may return: the loop is stopped, or no work is left. -/
def Loop.Over (l : Loop m S) : Prop :=
  l.stopped = true ∨ l.pending = [] ∧ l.ready = [] ∧ ∀ x ∈ l.workers, x.Free

/-- One step of the loop, by its owner, the outside world or a worker. A worker calls handlers
only while the loop is not stopped. An exception leaves the handler and the call of `run`; the
worker calls `run` again. -/
inductive Step : Loop m S → Loop m S → Prop
  | launch {l : Loop m S} {w : S.Wait} (may : S.aside w) : Step l (l.begin_ w none)
  | serve {l : Loop m S} (away : ∀ x ∈ l.workers, x = .left) :
      Step l { l.begin_ S.first none with
        stopped := false
        workers := List.replicate S.threads .polling }
  | restart {l : Loop m S} (away : ∀ x ∈ l.workers, x = .left) : Step l { l with stopped := false }
  | stop {l : Loop m S} : Step l { l with stopped := true }
  | complete {l : Loop m S} {ps ps' : List (Nat × S.Wait)} {c : Nat} {w : S.Wait}
      (hp : l.pending = ps ++ (c, w) :: ps') (result : S.Result w) :
      Step l { l with pending := ps ++ ps', ready := l.ready ++ [⟨c, w, result⟩] }
  | call {l : Loop m S} {xs xs' : List (Worker S)} {js js' : List (Job S)} {job : Job S}
      (hx : l.workers = xs ++ .polling :: xs') (hj : l.ready = js ++ job :: js')
      (goes : l.stopped = false) :
      Step l { l with
        ready := js ++ js'
        jobs := l.jobs ++ [job]
        workers := xs ++ .working l.jobs.length job (S.body job.wait job.result) :: xs' }
  | work {l : Loop m S} {xs xs' : List (Worker S)} {t : Nat} {job : Job S} {o : Op}
      {k : Ans o → Prog ε Ans S.Value}
      (hx : l.workers = xs ++ .working t job (.op o k) :: xs') (env : m.Env) :
      Step l { l with
        shared := (m.step env l.shared o).2
        log := l.log ++ [⟨t, l.shared, env, o⟩]
        workers := xs ++ .working t job (k (m.step env l.shared o).1) :: xs' }
  | worked {l : Loop m S} {xs xs' : List (Worker S)} {t : Nat} {job : Job S} {v : S.Value}
      (hx : l.workers = xs ++ .working t job (.ret v) :: xs') :
      Step l { l with
        workers := xs ++ .acting t job (S.tail job.wait job.result v) :: xs' }
  | act {l : Loop m S} {xs xs' : List (Worker S)} {t : Nat} {job : Job S}
      {a : Act S.Wait S.Note} {acts : List (Act S.Wait S.Note)} {next : Option S.Wait}
      (hx : l.workers = xs ++ .acting t job ⟨a :: acts, next⟩ :: xs') :
      Step l { l.perform t job.chain a with
        workers := xs ++ .acting t job ⟨acts, next⟩ :: xs' }
  | next {l : Loop m S} {xs xs' : List (Worker S)} {t : Nat} {job : Job S} {w : S.Wait}
      (hx : l.workers = xs ++ .acting t job ⟨[], some w⟩ :: xs') :
      Step l { l.start job.chain w (some t) with
        workers := xs ++ .acting t job ⟨[], none⟩ :: xs' }
  | finish {l : Loop m S} {xs xs' : List (Worker S)} {t : Nat} {job : Job S}
      (hx : l.workers = xs ++ .acting t job ⟨[], none⟩ :: xs') :
      Step l { l with workers := xs ++ .polling :: xs' }
  | throw {l : Loop m S} {xs xs' : List (Worker S)} {x : Worker S} {job : Job S}
      (hx : l.workers = xs ++ x :: xs') (inside : x.job = some job) :
      Step l { l with workers := xs ++ .polling :: xs', broken := l.broken ++ [job.chain] }
  | leave {l : Loop m S} {xs xs' : List (Worker S)}
      (hx : l.workers = xs ++ .polling :: xs') (past : l.Over) :
      Step l { l with workers := xs ++ .left :: xs' }

/-- What a loop around the shared state `s` can come to. -/
inductive Reachable (s : m.State) : Loop m S → Prop
  | idle : Reachable s (Loop.idle s)
  | step {l l' : Loop m S} : Reachable s l → Step l l' → Reachable s l'

theorem Reachable.induction {J : Loop m S → Prop} {s : m.State} (begins : J (Loop.idle s))
    (step : ∀ l l', Reachable s l → J l → Step l l' → J l') {l : Loop m S} (h : Reachable s l) :
    J l := by
  induction h with
  | idle => exact begins
  | step before taken ih => exact step _ _ before ih taken

section Held

@[simp] theorem job_working (t : Nat) (job : Job S) (p : Prog ε Ans S.Value) :
    (Worker.working t job p).job = some job := rfl

@[simp] theorem job_acting_act (t : Nat) (job : Job S) (a : Act S.Wait S.Note)
    (acts : List (Act S.Wait S.Note)) (next : Option S.Wait) :
    (Worker.acting t job ⟨a :: acts, next⟩).job = some job := rfl

@[simp] theorem job_acting_next (t : Nat) (job : Job S) (acts : List (Act S.Wait S.Note))
    (w : S.Wait) : (Worker.acting t job ⟨acts, some w⟩).job = some job := by
  cases acts <;> rfl

@[simp] theorem job_acting_done (t : Nat) (job : Job S) :
    (Worker.acting t job ⟨[], none⟩).job = none := rfl

theorem job_acting (t : Nat) (job : Job S) (rest : Tail S.Wait S.Note) :
    (Worker.acting t job rest).job = some job ∨ rest = ⟨[], none⟩ := by
  obtain ⟨acts, next⟩ := rest
  cases next with
  | some w => exact Or.inl (job_acting_next t job acts w)
  | none => cases acts with
    | nil => exact Or.inr rfl
    | cons a acts => exact Or.inl rfl

@[simp] theorem job_polling : (Worker.polling : Worker S).job = none := rfl

@[simp] theorem job_left : (Worker.left : Worker S).job = none := rfl

/-- 1 if the worker is in a handler of the chain that still has something to do. -/
def Worker.weight (c : Nat) (x : Worker S) : Nat :=
  x.job.elim 0 fun job => if job.chain = c then 1 else 0

private theorem weight_of_job {x : Worker S} {job : Job S} (h : x.job = some job) (c : Nat) :
    x.weight c = if job.chain = c then 1 else 0 := by
  rw [Worker.weight, h, Option.elim_some]

private theorem weight_of_none {x : Worker S} (h : x.job = none) (c : Nat) : x.weight c = 0 := by
  rw [Worker.weight, h, Option.elim_none]

/-- How much of a chain is under way: operations, completions and handlers. -/
def Loop.held (l : Loop m S) (c : Nat) : Nat :=
  l.pending.countP (fun p => p.1 = c) + l.ready.countP (fun job => job.chain = c) +
    (l.workers.map (Worker.weight c)).sum

section Change

variable {l l' : Loop m S} {xs xs' : List (Worker S)} {x y : Worker S} {c : Nat}

private theorem held_change (hx : l.workers = xs ++ x :: xs') (hy : l'.workers = xs ++ y :: xs')
    {n : Nat} (pending : l'.pending.countP (fun p => p.1 = c) =
      l.pending.countP (fun p => p.1 = c) + n)
    (ready : l'.ready = l.ready) : l'.held c + x.weight c = l.held c + y.weight c + n := by
  simp only [Loop.held, hx, hy, pending, ready, List.map_append, List.map_cons, List.sum_append,
    List.sum_cons]
  omega

private theorem held_same (hx : l.workers = xs ++ x :: xs') (hy : l'.workers = xs ++ y :: xs')
    (pending : l'.pending = l.pending) (ready : l'.ready = l.ready)
    (same : y.weight c = x.weight c) : l'.held c = l.held c := by
  have change := held_change (n := 0) (c := c) hx hy (by rw [pending]; rfl) ready
  omega

private theorem held_less (hx : l.workers = xs ++ x :: xs') (hy : l'.workers = xs ++ y :: xs')
    (pending : l'.pending = l.pending) (ready : l'.ready = l.ready)
    (had : x.weight c = 1) (none : y.weight c = 0) : l'.held c + 1 = l.held c := by
  have change := held_change (n := 0) (c := c) hx hy (by rw [pending]; rfl) ready
  omega

private theorem weight_sum (free : ∀ x ∈ xs, x.job = none) (c : Nat) :
    (xs.map (Worker.weight c)).sum = 0 := by
  induction xs with
  | nil => rfl
  | cons x xs ih =>
    rw [List.map_cons, List.sum_cons, weight_of_none (free x List.mem_cons_self),
      ih fun y hy => free y (List.mem_cons_of_mem _ hy)]

private theorem count_begin (l : Loop m S) (w : S.Wait) (origin : Option Nat) (c : Nat) :
    (l.begin_ w origin).pending.countP (fun p => p.1 = c) =
      l.pending.countP (fun p => p.1 = c) + if l.chains = c then 1 else 0 := by
  simp [Loop.begin_, Loop.start, List.countP_append, List.countP_singleton]

end Change

/-- The worker is in the handler of chain `c`, which ends without another operation. -/
def Worker.Ends (c : Nat) (x : Worker S) : Prop :=
  ∃ job, x.job = some job ∧ job.chain = c ∧
    ((∃ t v, x = .working t job (.ret v) ∧ (S.tail job.wait job.result v).next = none) ∨
      ∃ t acts, x = .acting t job ⟨acts, none⟩)

/-- What a step does to what is under way of the chain `c`: it begins the chain, a handler of
the chain ends without another operation or is left by an exception, or all stays. -/
inductive Change (l l' : Loop m S) (c : Nat) : Prop
  | begun : l'.chains = l.chains + 1 → l.chains = c → l'.held c = l.held c + 1 → Change l l' c
  | ended {x : Worker S} : x ∈ l.workers → x.Ends c → l'.held c + 1 = l.held c → Change l l' c
  | broken : c ∈ l'.broken → l'.held c + 1 = l.held c → Change l l' c
  | kept : l'.held c = l.held c → Change l l' c

theorem mem_of_split {α : Type} {l xs xs' : List α} {x : α} (h : l = xs ++ x :: xs') : x ∈ l := by
  rw [h]
  exact List.mem_append_right _ List.mem_cons_self

private theorem held_begin (l : Loop m S) (w : S.Wait) (origin : Option Nat) (c : Nat) :
    (l.begin_ w origin).held c = l.held c + if l.chains = c then 1 else 0 := by
  simp only [Loop.held, count_begin]
  change _ + l.ready.countP _ + (l.workers.map _).sum = _
  omega

private theorem change_begin {l l' : Loop m S} (chains : l'.chains = l.chains + 1) {c : Nat}
    (held : l'.held c = l.held c + if l.chains = c then 1 else 0) : Change l l' c := by
  by_cases new : l.chains = c
  · rw [if_pos new] at held
    exact .begun chains new held
  · rw [if_neg new] at held
    exact .kept held

/-- A handler comes to what is left of its tail; it may have begun a chain. -/
private theorem change_tail {l l' : Loop m S} {xs xs' : List (Worker S)} {x : Worker S} {t : Nat}
    {job : Job S} {rest : Tail S.Wait S.Note} {c n : Nat} (hx : l.workers = xs ++ x :: xs')
    (hy : l'.workers = xs ++ .acting t job rest :: xs') (inside : x.job = some job)
    (ends : rest.next = none → job.chain = c → x.Ends c)
    (pending : l'.pending.countP (fun p => p.1 = c) = l.pending.countP (fun p => p.1 = c) + n)
    (ready : l'.ready = l.ready)
    (begun : n = 0 ∨ n = 1 ∧ l'.chains = l.chains + 1 ∧ l.chains = c) : Change l l' c := by
  have change := held_change hx hy pending ready
  rw [weight_of_job inside] at change
  have goesOn : l'.held c = l.held c + n → Change l l' c := by
    intro held
    rcases begun with rfl | ⟨rfl, chains, new⟩
    · exact .kept held
    · exact .begun chains new held
  rcases job_acting t job rest with still | rfl
  · rw [weight_of_job still] at change
    exact goesOn (by omega)
  · rw [weight_of_none (job_acting_done t job)] at change
    by_cases mine : job.chain = c
    · rw [if_pos mine] at change
      rcases begun with rfl | ⟨rfl, chains, new⟩
      · exact .ended (mem_of_split hx) (ends rfl mine) (by omega)
      · exact .kept (by omega)
    · rw [if_neg mine] at change
      exact goesOn (by omega)

theorem held_step {l l' : Loop m S} (h : Step l l') (c : Nat) : Change l l' c := by
  cases h with
  | launch may => exact change_begin rfl (held_begin l _ none c)
  | serve away =>
    refine change_begin rfl ?_
    have free : (l.workers.map (Worker.weight c)).sum = 0 :=
      weight_sum (fun x hx => by rw [away x hx]; rfl) c
    have polls : ((List.replicate S.threads (Worker.polling : Worker S)).map
        (Worker.weight c)).sum = 0 :=
      weight_sum (fun x hx => by rw [(List.mem_replicate.mp hx).2]; rfl) c
    have held := held_begin l S.first none c
    simp only [Loop.held, polls, free] at held ⊢
    change _ + (l.workers.map (Worker.weight c)).sum = _ at held
    rw [free] at held
    exact held
  | restart away => exact .kept rfl
  | stop => exact .kept rfl
  | complete hp result =>
    refine .kept ?_
    simp only [Loop.held, hp, List.countP_append, List.countP_cons, List.countP_nil]
    omega
  | @call xs xs' js js' job hx hj goes =>
    refine .kept ?_
    have weight : (Worker.working l.jobs.length job (S.body job.wait job.result)).weight c =
        if job.chain = c then 1 else 0 := rfl
    simp only [Loop.held, hx, hj, List.countP_append, List.countP_cons, List.map_append,
      List.map_cons, List.sum_append, List.sum_cons, weight, weight_of_none job_polling,
      decide_eq_true_eq]
    omega
  | work hx env => exact .kept (held_same hx rfl rfl rfl rfl)
  | @worked xs xs' t job v hx =>
    exact change_tail (n := 0) hx rfl rfl
      (fun none mine => ⟨job, rfl, mine, Or.inl ⟨t, v, rfl, none⟩⟩) rfl rfl (Or.inl rfl)
  | @act xs xs' t job a acts next hx =>
    have ends : next = none → job.chain = c →
        (Worker.acting t job ⟨a :: acts, next⟩ : Worker S).Ends c := by
      rintro rfl mine
      exact ⟨job, rfl, mine, Or.inr ⟨t, a :: acts, rfl⟩⟩
    cases a with
    | spawn w =>
      refine change_tail hx rfl rfl ends (count_begin l w (some t) c) rfl ?_
      by_cases new : l.chains = c
      · exact Or.inr ⟨if_pos new, rfl, new⟩
      · exact Or.inl (if_neg new)
    | stop => exact change_tail (n := 0) hx rfl rfl ends rfl rfl (Or.inl rfl)
    | note n => exact change_tail (n := 0) hx rfl rfl ends rfl rfl (Or.inl rfl)
  | @next xs xs' t job w hx =>
    refine .kept ?_
    simp only [Loop.held, Loop.start, hx, List.countP_append, List.countP_singleton,
      List.map_append, List.map_cons, List.sum_append, List.sum_cons, decide_eq_true_eq,
      weight_of_job (job_acting_next t job [] w), weight_of_none (job_acting_done t job)]
    omega
  | finish hx => exact .kept (held_same hx rfl rfl rfl rfl)
  | @throw xs xs' x job hx inside =>
    by_cases mine : job.chain = c
    · refine .broken ?_ (held_less hx rfl rfl rfl ?_ rfl)
      · simp [mine]
      · rw [weight_of_job inside, if_pos mine]
    · refine .kept (held_same hx rfl rfl rfl ?_)
      rw [weight_of_job inside, if_neg mine]
      rfl
  | leave hx past => exact .kept (held_same hx rfl rfl rfl rfl)

private theorem chains_le {l l' : Loop m S} (h : Step l l') : l.chains ≤ l'.chains := by
  cases h with
  | launch may => exact Nat.le_succ _
  | serve away => exact Nat.le_succ _
  | @act xs xs' t job a acts next hx =>
    cases a with
    | spawn w => exact Nat.le_succ _
    | stop => exact Nat.le_refl _
    | note n => exact Nat.le_refl _
  | _ => exact Nat.le_refl _

/-- In every reachable loop at most one operation or handler of a chain is under way, and
nothing of a chain that has not begun. -/
theorem Reachable.held_le {s : m.State} {l : Loop m S} (h : Reachable s l) (c : Nat) :
    l.held c ≤ 1 ∧ (l.chains ≤ c → l.held c = 0) := by
  refine h.induction (J := fun l => l.held c ≤ 1 ∧ (l.chains ≤ c → l.held c = 0))
    ⟨Nat.zero_le _, fun _ => rfl⟩ fun l l' _ both step => ?_
  obtain ⟨one, unborn⟩ := both
  have grows := chains_le step
  rcases held_step step c with ⟨chains, new, held⟩ | ⟨-, -, held⟩ | ⟨-, held⟩ | held
  · have none := unborn (by omega)
    exact ⟨by omega, fun later => by omega⟩
  · exact ⟨by omega, fun later => by have none := unborn (by omega); omega⟩
  · exact ⟨by omega, fun later => by have none := unborn (by omega); omega⟩
  · exact ⟨by omega, fun later => by have none := unborn (by omega); omega⟩

private theorem held_pos {l : Loop m S} {x : Worker S} (hx : x ∈ l.workers) {job : Job S}
    (inside : x.job = some job) : 0 < l.held job.chain := by
  obtain ⟨xs, xs', split⟩ := List.append_of_mem hx
  simp only [Loop.held, split, List.map_append, List.map_cons, List.sum_append, List.sum_cons,
    weight_of_job inside, if_true]
  omega

theorem Reachable.chain_lt {s : m.State} {l : Loop m S} (h : Reachable s l) {x : Worker S}
    (hx : x ∈ l.workers) {job : Job S} (inside : x.job = some job) : job.chain < l.chains := by
  have held := held_pos hx inside
  have unborn := (h.held_le job.chain).2
  omega

theorem Reachable.alone {s : m.State} {l : Loop m S} (h : Reachable s l)
    {xs xs' : List (Worker S)} {x : Worker S} {job : Job S} (hx : l.workers = xs ++ x :: xs')
    (inside : x.job = some job) :
    (∀ p ∈ l.pending, p.1 ≠ job.chain) ∧ (∀ r ∈ l.ready, r.chain ≠ job.chain) ∧
      ∀ y ∈ xs ++ xs', ∀ job', y.job = some job' → job'.chain ≠ job.chain := by
  have one := (h.held_le job.chain).1
  simp only [Loop.held, hx, List.map_append, List.map_cons, List.sum_append, List.sum_cons,
    weight_of_job inside, if_true] at one
  have pending : l.pending.countP (fun p => p.1 = job.chain) = 0 := by omega
  have ready : l.ready.countP (fun r => r.chain = job.chain) = 0 := by omega
  have others : ((xs ++ xs').map (Worker.weight job.chain)).sum = 0 := by
    rw [List.map_append, List.sum_append]
    omega
  rw [List.countP_eq_zero] at pending ready
  refine ⟨fun p hp => by simpa using pending p hp, fun r hr => by simpa using ready r hr,
    fun y hy job' inside' same => ?_⟩
  obtain ⟨ys, ys', split⟩ := List.append_of_mem hy
  rw [split, List.map_append, List.sum_append, List.map_cons, List.sum_cons, weight_of_job inside',
    if_pos same] at others
  omega

end Held

section Endless

theorem forall_replaced {P : Worker S → Prop} {ys xs xs' : List (Worker S)} {x y : Worker S}
    (h : ∀ z ∈ ys, P z) (hx : ys = xs ++ x :: xs') (hy : P y) : ∀ z ∈ xs ++ y :: xs', P z := by
  subst hx
  intro z hz
  rcases List.mem_append.mp hz with before | after
  · exact h z (List.mem_append_left _ before)
  · rcases List.mem_cons.mp after with rfl | after
    · exact hy
    · exact h z (List.mem_append_right _ (List.mem_cons_of_mem _ after))

theorem broken_mono {l l' : Loop m S} (h : Step l l') {c : Nat} (hc : c ∈ l.broken) :
    c ∈ l'.broken := by
  cases h with
  | throw hx inside => exact List.mem_append_left _ hc
  | @act xs xs' t job a acts next hx => cases a <;> exact hc
  | _ => exact hc

variable (E : S.Wait → Prop)

/-- The worker keeps the chain `c` among the endless operations. -/
def Worker.Keeps (c : Nat) : Worker S → Prop
  | .working _ job _ => job.chain = c → E job.wait
  | .acting _ job rest => job.chain = c → rest = ⟨[], none⟩ ∨ ∃ w, rest.next = some w ∧ E w
  | _ => True

/-- The chain `c` waits only for endless operations, and is under way unless an exception has
ended it. -/
structure Endless (c : Nat) (l : Loop m S) : Prop where
  pending : ∀ p ∈ l.pending, p.1 = c → E p.2
  ready : ∀ r ∈ l.ready, r.chain = c → E r.wait
  workers : ∀ x ∈ l.workers, x.Keeps E c
  goesOn : 0 < l.held c ∨ c ∈ l.broken
  born : c < l.chains

variable {E} (renews : ∀ w, E w → ∀ r v, ∃ w', (S.tail w r v).next = some w' ∧ E w')

include renews

omit renews in
private theorem endless_begin {s : m.State} {l : Loop m S} (h : Reachable s l) {w : S.Wait}
    (hw : E w)
    (origin : Option Nat) : Endless E l.chains (l.begin_ w origin) := by
  have none := (h.held_le l.chains).2 (Nat.le_refl _)
  simp only [Loop.held] at none
  have pending : l.pending.countP (fun p => p.1 = l.chains) = 0 := by omega
  have ready : l.ready.countP (fun r => r.chain = l.chains) = 0 := by omega
  rw [List.countP_eq_zero] at pending ready
  refine ⟨fun p hp same => ?_, fun r hr same => ?_, fun x hx => ?_, Or.inl ?_, Nat.lt_succ_self _⟩
  · rcases List.mem_append.mp hp with old | new
    · exact absurd same (by simpa using pending p old)
    · rw [List.mem_singleton.mp new]
      exact hw
  · exact absurd same (by simpa using ready r hr)
  · -- no handler of a chain that has not begun is being called
    have begun : ∀ job, x.job = some job → job.chain ≠ l.chains := fun job inside =>
      Nat.ne_of_lt (h.chain_lt hx inside)
    cases x with
    | working t job p => exact fun same => absurd same (begun job rfl)
    | acting t job rest =>
      intro same
      rcases job_acting t job rest with inside | past
      · exact absurd same (begun job inside)
      · exact Or.inl past
    | _ => trivial
  · rw [held_begin, if_pos rfl]
    omega

/-- Every step keeps an endless chain going, unless an exception ends it. -/
private theorem endless_step {l l' : Loop m S} (step : Step l l') {c : Nat} (h : Endless E c l) :
    Endless E c l' := by
  obtain ⟨pending, ready, workers, goesOn, born⟩ := h
  have held : 0 < l'.held c ∨ c ∈ l'.broken := by
    rcases goesOn with under | past
    · rcases held_step step c with ⟨-, -, held⟩ | ⟨hx, ⟨job, inside, mine, ends⟩, held⟩ |
        ⟨past, -⟩ | held
      · exact Or.inl (by omega)
      · have keeps := workers _ hx
        rcases ends with ⟨t, v, rfl, none⟩ | ⟨t, acts, rfl⟩
        · obtain ⟨w, next, -⟩ := renews job.wait (keeps mine) job.result v
          rw [none] at next
          cases next
        · rcases keeps mine with done | ⟨w, next, -⟩
          · rw [done] at inside
            cases inside
          · cases next
      · exact Or.inr past
      · exact Or.inl (by omega)
    · exact Or.inr (broken_mono step past)
  have born' := Nat.lt_of_lt_of_le born (chains_le step)
  -- the first operation of another chain
  have other : ∀ w, ∀ p ∈ l.pending ++ [(l.chains, w)], p.1 = c → E p.2 := by
    intro w p hp same
    rcases List.mem_append.mp hp with old | new
    · exact pending p old same
    · rw [List.mem_singleton.mp new] at same
      exact absurd same (Nat.ne_of_gt born)
  cases step with
  | launch may => exact ⟨other _, ready, workers, held, born'⟩
  | serve away =>
    refine ⟨other _, ready, fun x hx => ?_, held, born'⟩
    rw [(List.mem_replicate.mp hx).2]
    trivial
  | restart away => exact ⟨pending, ready, workers, held, born'⟩
  | stop => exact ⟨pending, ready, workers, held, born'⟩
  | @complete ps ps' c' w hp result =>
    rw [hp] at pending
    refine ⟨fun p hm => pending p ?_, fun r hr same => ?_, workers, held, born'⟩
    · rcases List.mem_append.mp hm with before | after
      · exact List.mem_append_left _ before
      · exact List.mem_append_right _ (List.mem_cons_of_mem _ after)
    · rcases List.mem_append.mp hr with old | new
      · exact ready r old same
      · rw [List.mem_singleton.mp new] at same ⊢
        exact pending (c', w) (List.mem_append_right _ List.mem_cons_self) same
  | @call xs xs' js js' job hx hj goes =>
    rw [hj] at ready
    refine ⟨pending, fun r hr => ready r ?_, forall_replaced workers hx fun same => ?_, held, born'⟩
    · rcases List.mem_append.mp hr with before | after
      · exact List.mem_append_left _ before
      · exact List.mem_append_right _ (List.mem_cons_of_mem _ after)
    · exact ready job (List.mem_append_right _ List.mem_cons_self) same
  | work hx env =>
    refine ⟨pending, ready, forall_replaced workers hx fun mine => ?_, held, born'⟩
    exact workers _ (mem_of_split hx) mine
  | @worked xs xs' t job v hx =>
    refine ⟨pending, ready, forall_replaced workers hx fun mine => Or.inr ?_, held, born'⟩
    exact renews job.wait (workers _ (mem_of_split hx) mine) job.result v
  | @act xs xs' t job a acts next hx =>
    have keeps : Worker.Keeps E c (.acting t job ⟨acts, next⟩) := by
      intro mine
      rcases workers _ (mem_of_split hx) mine with done | goes
      · cases done
      · exact Or.inr goes
    cases a with
    | spawn w => exact ⟨other w, ready, forall_replaced workers hx keeps, held, born'⟩
    | stop => exact ⟨pending, ready, forall_replaced workers hx keeps, held, born'⟩
    | note n => exact ⟨pending, ready, forall_replaced workers hx keeps, held, born'⟩
  | @next xs xs' t job w hx =>
    refine ⟨fun p hp same => ?_, ready, forall_replaced workers hx fun _ => Or.inl rfl, held, born'⟩
    rcases List.mem_append.mp hp with old | new
    · exact pending p old same
    · rw [List.mem_singleton.mp new] at same ⊢
      rcases workers _ (mem_of_split hx) same with done | ⟨w', next, hw⟩
      · cases done
      · cases next
        exact hw
  | finish hx => exact ⟨pending, ready, forall_replaced workers hx trivial, held, born'⟩
  | throw hx inside => exact ⟨pending, ready, forall_replaced workers hx trivial, held, born'⟩
  | leave hx past => exact ⟨pending, ready, forall_replaced workers hx trivial, held, born'⟩

/-- A chain the owner has begun with an endless operation is under way until an exception leaves
one of its handlers. -/
theorem Reachable.isEndless {s : m.State} {l : Loop m S} (h : Reachable s l) {c : Nat}
    {w : S.Wait} (launched : ⟨c, w, none⟩ ∈ l.started) (hw : E w) : Endless E c l := by
  refine h.induction (J := fun l => ⟨c, w, none⟩ ∈ l.started → Endless E c l)
    (fun none => absurd none List.not_mem_nil) (fun l l' before ih step launched => ?_) launched
  by_cases old : ⟨c, w, none⟩ ∈ l.started
  · exact endless_step renews step (ih old)
  -- the chain is the one this step has begun
  have new : ∀ w', ⟨c, w, none⟩ ∈ l.started ++ [⟨l.chains, w', none⟩] → c = l.chains ∧ w = w' := by
    intro w' hm
    rcases List.mem_append.mp hm with older | new
    · exact absurd older old
    · cases List.mem_singleton.mp new
      exact ⟨rfl, rfl⟩
  cases step with
  | launch may =>
    obtain ⟨rfl, rfl⟩ := new _ launched
    exact endless_begin before hw none
  | serve away =>
    obtain ⟨rfl, rfl⟩ := new _ launched
    obtain ⟨pending, ready, workers, goesOn, born⟩ := endless_begin before hw none
    refine ⟨pending, ready, fun x hx => ?_, Or.inl ?_, born⟩
    · rw [(List.mem_replicate.mp hx).2]
      trivial
    · have counted := count_begin l S.first none l.chains
      simp only [Loop.held, counted, if_true]
      omega
  | @act xs xs' t job a acts next hx =>
    cases a with
    | spawn w' =>
      rcases List.mem_append.mp launched with older | new
      · exact absurd older old
      · cases List.mem_singleton.mp new
    | stop => exact absurd launched old
    | note n => exact absurd launched old
  | next hx =>
    rcases List.mem_append.mp launched with older | new
    · exact absurd older old
    · cases List.mem_singleton.mp new
  | _ => exact absurd launched old

omit renews in
theorem Endless.not_over {c : Nat} {l : Loop m S} (h : Endless E c l) (unbroken : c ∉ l.broken)
    (goes : l.stopped = false) : ¬ l.Over := by
  rintro (stopped | ⟨pending, ready, free⟩)
  · rw [goes] at stopped
    cases stopped
  rcases h.goesOn with held | past
  · have none : (l.workers.map (Worker.weight c)).sum = 0 := by
      refine weight_sum (fun x hx => ?_) c
      rcases free x hx with rfl | rfl
      · rfl
      · rfl
    rw [Loop.held, pending, ready, none] at held
    exact absurd held (Nat.lt_irrefl 0)
  · exact unbroken past

end Endless

end Webengine.Library.EventLoops
