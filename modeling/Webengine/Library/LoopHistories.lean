/- digest: What an event loop has done: its steps on the shared state are those of its handlers,
   interleaved, and each operation of a chain was started by the handler of the one before.
   uses: nothing of the modelled repository. -/

import Webengine.Library.EventLoops
import Mathlib.Data.List.Chain

set_option autoImplicit false
set_option relaxedAutoImplicit false

namespace Webengine.Library.LoopHistories

open Webengine.Library.EventLoops
open Webengine.Library.Interleavings
open Webengine.Library.Programs
open Webengine.Library.Machines (Machine Event)

variable {ε Op : Type} {Ans : Op → Type} {m : Machine Ans} {S : Service ε Ans}

private theorem kept_job {jobs : List (Job S)} {t : Nat} {job : Job S} (h : jobs[t]? = some job)
    (new : Job S) : (jobs ++ [new])[t]? = some job := by
  rw [List.getElem?_append_left (List.getElem?_eq_some_iff.mp h).1, h]

/-- The worker is in the handler of the job that has this number. -/
def Numbered (jobs : List (Job S)) : Worker S → Prop
  | .working t job _ => jobs[t]? = some job
  | .acting t job _ => jobs[t]? = some job
  | _ => True

theorem Numbered.kept {jobs : List (Job S)} {x : Worker S} (h : Numbered jobs x) (new : Job S) :
    Numbered (jobs ++ [new]) x := by
  cases x with
  | working t job p => exact kept_job h new
  | acting t job rest => exact kept_job h new
  | _ => trivial

private theorem numbered {s : m.State} {l : Loop m S} (h : Reachable s l) :
    ∀ x ∈ l.workers, Numbered l.jobs x := by
  refine h.induction (J := fun l => ∀ x ∈ l.workers, Numbered l.jobs x)
    (fun x none => absurd none List.not_mem_nil) fun l l' _ all step => ?_
  cases step with
  | serve away =>
    intro x hx
    rw [(List.mem_replicate.mp hx).2]
    trivial
  | call hx hj goes =>
    refine forall_replaced (fun x hx => (all x hx).kept _) hx ?_
    exact List.getElem?_concat_length
  | work hx env =>
    have now := all _ (mem_of_split hx)
    exact forall_replaced all hx now
  | worked hx =>
    have now := all _ (mem_of_split hx)
    exact forall_replaced all hx now
  | @act xs xs' t job a acts next hx =>
    have now := all _ (mem_of_split hx)
    cases a <;> exact forall_replaced all hx now
  | next hx =>
    have now := all _ (mem_of_split hx)
    exact forall_replaced all hx now
  | finish hx => exact forall_replaced all hx trivial
  | throw hx inside => exact forall_replaced all hx trivial
  | leave hx past => exact forall_replaced all hx trivial
  | _ => exact all

section Simulation

/-- A handler that has something left to do stands where the thread with its number does. -/
def Traces (pool : Nat → Prog ε Ans S.Value) : Worker S → Prop
  | .working t _ p => pool t = p
  | .acting t job rest => rest = ⟨[], none⟩ ∨ ∃ v, pool t = .ret v ∧
      rest.acts <:+ (S.tail job.wait job.result v).acts ∧
      rest.next = (S.tail job.wait job.result v).next
  | _ => True

/-- The operation was started at the end of a handler that had come to its end: on the chain of
the handler, or on one it has begun. -/
def Accounted (l : Loop m S) (pool : Nat → Prog ε Ans S.Value) (st : Started S) : Prop :=
  ∀ t, st.origin = some t → ∃ job v, l.jobs[t]? = some job ∧ pool t = .ret v ∧
    ((job.chain = st.chain ∧ (S.tail job.wait job.result v).next = some st.wait) ∨
      job.chain ≠ st.chain ∧ Act.spawn st.wait ∈ (S.tail job.wait job.result v).acts)

/-- The threads have done what the handlers of the loop have. -/
structure Traced (pool : Nat → Prog ε Ans S.Value) (l : Loop m S) (c : Config m ε S.Value) :
    Prop where
  log : c.log = l.log
  state : c.state = l.shared
  fresh : ∀ t, l.jobs.length ≤ t → c.pool t = pool t
  workers : ∀ x ∈ l.workers, Traces c.pool x
  started : ∀ st ∈ l.started, Accounted l c.pool st

private theorem jobs_mono {l l' : Loop m S} (h : Step l l') {t : Nat} {job : Job S}
    (ht : l.jobs[t]? = some job) : l'.jobs[t]? = some job := by
  cases h with
  | call hx hj goes => exact kept_job ht _
  | @act xs xs' t job a acts next hx => cases a <;> exact ht
  | _ => exact ht

theorem Accounted.mono {l l' : Loop m S} (step : Step l l') {pool : Nat → Prog ε Ans S.Value}
    {st : Started S} (h : Accounted l pool st) : Accounted l' pool st := by
  intro t origin
  obtain ⟨job, v, ht, ended, made⟩ := h t origin
  exact ⟨job, v, jobs_mono step ht, ended, made⟩

theorem Traced.quiet {pool : Nat → Prog ε Ans S.Value} {l l' : Loop m S}
    {c : Config m ε S.Value} (h : Traced pool l c) (step : Step l l') (log : l'.log = l.log)
    (shared : l'.shared = l.shared) (jobs : l'.jobs = l.jobs)
    (workers : ∀ x ∈ l'.workers, Traces c.pool x)
    (started : ∀ st ∈ l'.started, st ∈ l.started ∨ Accounted l' c.pool st) : Traced pool l' c where
  log := h.log.trans log.symm
  state := h.state.trans shared.symm
  fresh t ht := h.fresh t (by rwa [jobs] at ht)
  workers := workers
  started st hs := by
    rcases started st hs with old | new
    · exact (h.started st old).mono step
    · exact new

private theorem accounted_owner {l : Loop m S} {pool : Nat → Prog ε Ans S.Value} (c : Nat)
    (w : S.Wait) :
    Accounted l pool ⟨c, w, none⟩ := fun _ none => nomatch none

private theorem Traces.of_ne {pool : Nat → Prog ε Ans S.Value} {x : Worker S} (h : Traces pool x)
    {jobs : List (Job S)} (number : Numbered jobs x) {t : Nat} {job : Job S}
    (ht : jobs[t]? = some job) (other : ∀ job', x.job = some job' → job'.chain ≠ job.chain)
    (p : Prog ε Ans S.Value) : Traces (Function.update pool t p) x := by
  have apart : ∀ t' job', jobs[t']? = some job' → job'.chain ≠ job.chain →
      Function.update pool t p t' = pool t' := by
    intro t' job' ht' ne
    refine Function.update_of_ne (fun same => ne ?_) _ _
    rw [same, ht] at ht'
    rw [Option.some.inj ht']
  cases x with
  | working t' job' q => exact (apart t' job' number (other job' rfl)).trans h
  | acting t' job' rest =>
    rcases h with past | ⟨v, ended, suffix, next⟩
    · exact Or.inl past
    rcases job_acting t' job' rest with inside | past
    · exact Or.inr ⟨v, (apart t' job' number (other job' inside)).trans ended, suffix, next⟩
    · exact Or.inl past
  | _ => trivial

/-- The steps of a loop on its shared state are a run of its handlers as threads, the handler
number `t` being thread `t`. -/
theorem simulated {s : m.State} {l : Loop m S} (h : Reachable s l)
    (pool : Nat → Prog ε Ans S.Value)
    (handlers : ∀ t job, l.jobs[t]? = some job → pool t = S.body job.wait job.result) :
    ∃ sched, Traced pool l ((Config.start pool s).play sched) := by
  refine h.induction (J := fun l =>
    (∀ t job, l.jobs[t]? = some job → pool t = S.body job.wait job.result) →
      ∃ sched, Traced pool l ((Config.start pool s).play sched))
    (fun _ => ⟨[], rfl, rfl, fun _ _ => rfl, by simp [Loop.idle], by simp [Loop.idle]⟩)
    (fun l l' before ih step handlers => ?_) handlers
  obtain ⟨sched, traced⟩ := ih fun t job ht => handlers t job (jobs_mono step ht)
  have all := traced.workers
  -- an operation more that was started
  have more : ∀ {l' : Loop m S} {sts : List (Started S)} {new : Started S},
      Accounted l' ((Config.start pool s).play sched).pool new → ∀ st ∈ sts ++ [new],
        st ∈ sts ∨ Accounted l' ((Config.start pool s).play sched).pool st := by
    intro l' sts new accounted st hs
    rcases List.mem_append.mp hs with old | last
    · exact Or.inl old
    · rw [List.mem_singleton.mp last]
      exact Or.inr accounted
  cases step with
  | launch may =>
    exact ⟨sched, traced.quiet (.launch may) rfl rfl rfl all (more (accounted_owner _ _))⟩
  | serve away =>
    refine ⟨sched, traced.quiet (.serve away) rfl rfl rfl (fun x hx => ?_)
      (more (accounted_owner _ _))⟩
    rw [(List.mem_replicate.mp hx).2]
    trivial
  | restart away =>
    exact ⟨sched, traced.quiet (.restart away) rfl rfl rfl all fun _ => Or.inl⟩
  | stop => exact ⟨sched, traced.quiet .stop rfl rfl rfl all fun _ => Or.inl⟩
  | complete hp result =>
    exact ⟨sched, traced.quiet (.complete hp result) rfl rfl rfl all fun _ => Or.inl⟩
  | @call xs xs' js js' job hx hj goes =>
    have last : (l.jobs ++ [job])[l.jobs.length]? = some job := List.getElem?_concat_length
    refine ⟨sched, traced.log, traced.state, fun t ht => traced.fresh t ?_,
      forall_replaced all hx ?_, fun st hs => ?_⟩
    · rw [List.length_append] at ht
      exact Nat.le_of_succ_le ht
    · exact (traced.fresh _ (Nat.le_refl _)).trans (handlers _ job last)
    · exact (traced.started st hs).mono (.call hx hj goes)
  | @work xs xs' t job o k hx env =>
    have hop : ((Config.start pool s).play sched).pool t = .op o k := all _ (mem_of_split hx)
    have number : l.jobs[t]? = some job := numbered before _ (mem_of_split hx)
    obtain ⟨-, -, alone⟩ := before.alone hx rfl
    have state := traced.state
    refine ⟨sched ++ [(t, env)], ?_⟩
    rw [Config.play_snoc, Config.step_op hop, state]
    refine ⟨by rw [traced.log], rfl, fun t' ht' => ?_, fun x hm => ?_, fun st hs t' origin => ?_⟩
    · have ne : t' ≠ t := by
        rintro rfl
        exact absurd (List.getElem?_eq_some_iff.mp number).1 (Nat.not_lt.mpr ht')
      exact (Function.update_of_ne ne _ _).trans (traced.fresh t' ht')
    · -- another handler has another number
      have kept : ∀ y ∈ xs ++ xs', Traces (Function.update
          ((Config.start pool s).play sched).pool t (k (m.step env l.shared o).1)) y := by
        intro y hy
        have mem : y ∈ l.workers := by
          rw [hx]
          rcases List.mem_append.mp hy with hy | hy
          · exact List.mem_append_left _ hy
          · exact List.mem_append_right _ (List.mem_cons_of_mem _ hy)
        exact (all y mem).of_ne (numbered before y mem) number (alone y hy) _
      rcases List.mem_append.mp hm with hm | hm
      · exact kept x (List.mem_append_left _ hm)
      · rcases List.mem_cons.mp hm with rfl | hm
        · exact Function.update_self ..
        · exact kept x (List.mem_append_right _ hm)
    · obtain ⟨job', v, ht', ended, made⟩ := traced.started st hs t' origin
      have ne : t' ≠ t := by
        rintro rfl
        rw [hop] at ended
        cases ended
      exact ⟨job', v, ht', (Function.update_of_ne ne _ _).trans ended, made⟩
  | @worked xs xs' t job v hx =>
    have ended : ((Config.start pool s).play sched).pool t = .ret v := all _ (mem_of_split hx)
    refine ⟨sched, traced.quiet (.worked hx) rfl rfl rfl (forall_replaced all hx ?_)
      fun _ => Or.inl⟩
    exact Or.inr ⟨v, ended, List.suffix_rfl, rfl⟩
  | @act xs xs' t job a acts next hx =>
    have number : l.jobs[t]? = some job := numbered before _ (mem_of_split hx)
    rcases all _ (mem_of_split hx) with past | ⟨v, ended, rest, same⟩
    · cases past
    have mem : a ∈ (S.tail job.wait job.result v).acts := rest.subset List.mem_cons_self
    have begun : job.chain < l.chains := before.chain_lt (mem_of_split hx) rfl
    have workers : ∀ x ∈ xs ++ .acting t job ⟨acts, next⟩ :: xs',
        Traces ((Config.start pool s).play sched).pool x :=
      forall_replaced all hx (Or.inr ⟨v, ended, (List.suffix_cons a acts).trans rest, same⟩)
    refine ⟨sched, ?_⟩
    cases a with
    | spawn w =>
      refine traced.quiet (.act hx) rfl rfl rfl workers (more ?_)
      rintro t' origin
      cases origin
      exact ⟨job, v, number, ended, Or.inr ⟨Nat.ne_of_lt begun, mem⟩⟩
    | stop => exact traced.quiet (.act hx) rfl rfl rfl workers fun _ => Or.inl
    | note n => exact traced.quiet (.act hx) rfl rfl rfl workers fun _ => Or.inl
  | @next xs xs' t job w hx =>
    have number : l.jobs[t]? = some job := numbered before _ (mem_of_split hx)
    rcases all _ (mem_of_split hx) with past | ⟨v, ended, -, same⟩
    · cases past
    refine ⟨sched, traced.quiet (.next hx) rfl rfl rfl (forall_replaced all hx (Or.inl rfl))
      (more ?_)⟩
    rintro t' origin
    cases origin
    exact ⟨job, v, number, ended, Or.inl ⟨rfl, same.symm⟩⟩
  | finish hx =>
    exact ⟨sched, traced.quiet (.finish hx) rfl rfl rfl (forall_replaced all hx trivial)
      fun _ => Or.inl⟩
  | throw hx inside =>
    exact ⟨sched, traced.quiet (.throw hx inside) rfl rfl rfl (forall_replaced all hx trivial)
      fun _ => Or.inl⟩
  | leave hx past =>
    exact ⟨sched, traced.quiet (.leave hx past) rfl rfl rfl (forall_replaced all hx trivial)
      fun _ => Or.inl⟩

end Simulation

theorem owner_began {s : m.State} {l : Loop m S} (h : Reachable s l) :
    ∀ st ∈ l.started, st.origin = none → st.wait = S.first ∨ S.aside st.wait := by
  refine h.induction (J := fun l => ∀ st ∈ l.started, st.origin = none →
    st.wait = S.first ∨ S.aside st.wait) (fun st none => absurd none List.not_mem_nil)
    fun l l' _ all step => ?_
  have more : ∀ new : Started S, (new.origin = none → new.wait = S.first ∨ S.aside new.wait) →
      ∀ st ∈ l.started ++ [new], st.origin = none → st.wait = S.first ∨ S.aside st.wait := by
    intro new hnew st hs
    rcases List.mem_append.mp hs with old | last
    · exact all st old
    · rw [List.mem_singleton.mp last]
      exact hnew
  cases step with
  | launch may => exact more _ fun _ => Or.inr may
  | serve away => exact more _ fun _ => Or.inl rfl
  | @act xs xs' t job a acts next hx =>
    cases a with
    | spawn w => exact more _ fun none => nomatch none
    | stop => exact all
    | note n => exact all
  | next hx => exact more _ fun none => nomatch none
  | _ => exact all

/-- Threads that end with a function of what other threads end with take the same steps. -/
theorem play_mapped {α β : Type} (pool : Nat → Prog ε Ans α) (g : Nat → α → β) (s : m.State)
    (sched : List (Nat × m.Env)) :
    ((Config.start (fun t => pool t >>= fun a => .ret (g t a)) s).play sched).log =
        ((Config.start pool s).play sched).log ∧
      ((Config.start (fun t => pool t >>= fun a => .ret (g t a)) s).play sched).state =
        ((Config.start pool s).play sched).state ∧
      ∀ t, ((Config.start (fun t => pool t >>= fun a => .ret (g t a)) s).play sched).pool t =
        ((Config.start pool s).play sched).pool t >>= fun a => .ret (g t a) := by
  induction sched using List.reverseRecOn with
  | nil => exact ⟨rfl, rfl, fun _ => rfl⟩
  | append_singleton sched x ih =>
    rw [Config.play_snoc, Config.play_snoc]
    generalize (Config.start pool s).play sched = c at ih
    generalize (Config.start (fun t => pool t >>= fun a => .ret (g t a)) s).play sched = d at ih
    obtain ⟨log, state, threads⟩ := ih
    have same := threads x.1
    cases h : c.pool x.1 with
    | ret a =>
      rw [h, Prog.ret_bind] at same
      simp only [Config.step, h, same]
      exact ⟨log, state, threads⟩
    | raise e =>
      rw [h, Prog.raise_bind] at same
      simp only [Config.step, h, same]
      exact ⟨log, state, threads⟩
    | op o k =>
      rw [h, Prog.op_bind] at same
      rw [Config.step_op h, Config.step_op same, log, state]
      refine ⟨rfl, rfl, fun t => ?_⟩
      by_cases ht : t = x.1
      · subst ht
        simp only [Function.update_self]
      · simp only [Function.update_of_ne ht]
        exact threads t

section Order

variable (l : Loop m S) (c : Nat)

/-- The operations of a chain, in the order in which they were started. -/
def ops : List (Started S) := l.started.filter fun st => st.chain = c

/-- The handlers of a chain that were called, in order. -/
def turns : List (Job S) := l.jobs.filter fun job => job.chain = c

/-- The operations of a chain that are pending, or have completed and wait for their handler. -/
def outstanding : List S.Wait :=
  (l.pending.filter fun p => p.1 = c).map Prod.snd ++
    (l.ready.filter fun job => job.chain = c).map Job.wait

/-- The operation was started by the handler of the other one, which the chain has called. -/
def StartedBy (before after : Started S) : Prop :=
  ∃ t job, after.origin = some t ∧ l.jobs[t]? = some job ∧ job.chain = c ∧ job.wait = before.wait

/-- The operation was started by the owner, or by a handler of another chain. -/
def FromOutside (first : Started S) : Prop :=
  ∀ t, first.origin = some t → ∃ job, l.jobs[t]? = some job ∧ job.chain ≠ c

/-- Each operation of the chain has been handled once, but for the one that is outstanding, and
each but the first was started by the handler of the one before. -/
structure Linked : Prop where
  handled : (ops l c).map Started.wait = (turns l c).map Job.wait ++ outstanding l c
  current : ∀ x ∈ l.workers, ∀ job, x.job = some job → job.chain = c →
    (turns l c).getLast? = some job
  linked : (ops l c).IsChain (StartedBy l c)
  first : ∀ st ∈ (ops l c).head?, FromOutside l c st
  unborn : l.chains ≤ c → ops l c = []

variable {l c}

theorem length_outstanding : (outstanding l c).length ≤ l.held c := by
  simp only [outstanding, Loop.held, List.length_append, List.length_map,
    List.countP_eq_length_filter]
  omega

private theorem outstanding_of_held (h : l.held c = 0) : outstanding l c = [] :=
  List.eq_nil_of_length_eq_zero (Nat.le_zero.mp (h ▸ length_outstanding))

theorem Linked.quiet {l' : Loop m S} (h : Linked l c) (started : l'.started = l.started)
    (jobs : l'.jobs = l.jobs) (chains : l'.chains = l.chains)
    (outstanding_ : outstanding l' c = outstanding l c)
    (workers : ∀ x ∈ l'.workers, ∀ job, x.job = some job → job.chain = c →
      (turns l c).getLast? = some job) : Linked l' c := by
  obtain ⟨handled, current, linked, first, unborn⟩ := h
  have sameOps : ops l' c = ops l c := by rw [ops, ops, started]
  have sameTurns : turns l' c = turns l c := by rw [turns, turns, jobs]
  refine ⟨?_, ?_, ?_, ?_, ?_⟩
  · rw [sameOps, sameTurns, outstanding_, handled]
  · rw [sameTurns]
    exact workers
  · rw [sameOps]
    refine linked.imp fun st st' follows => ?_
    rw [StartedBy, jobs]
    exact follows
  · rw [sameOps]
    intro st hs
    rw [FromOutside, jobs]
    exact first st hs
  · rw [sameOps, chains]
    exact unborn

theorem Linked.begin_ (h : Linked l c) (held : l.chains ≤ c → l.held c = 0) (w : S.Wait)
    (origin : Option Nat) (outside : l.chains = c → FromOutside l c ⟨c, w, origin⟩) :
    Linked (l.begin_ w origin) c := by
  obtain ⟨handled, current, linked, first, unborn⟩ := h
  by_cases mine : l.chains = c
  · have none := outstanding_of_held (held (Nat.le_of_eq mine))
    have noOps := unborn (Nat.le_of_eq mine)
    rw [none, List.append_nil, noOps] at handled
    have newOps : ops (l.begin_ w origin) c = [⟨c, w, origin⟩] := by
      have old : l.started.filter (fun st => st.chain = c) = [] := noOps
      simp [ops, Loop.begin_, Loop.start, List.filter_append, old, mine]
    have newOutstanding : outstanding (l.begin_ w origin) c = [w] := by
      have old : outstanding l c = [] := none
      simp only [outstanding, List.append_eq_nil_iff, List.map_eq_nil_iff] at old
      simp [outstanding, Loop.begin_, Loop.start, List.filter_append, old.1, old.2, mine]
    refine ⟨?_, current, ?_, fun st hs => ?_, fun later => ?_⟩
    · rw [newOps, newOutstanding]
      change _ = (turns l c).map Job.wait ++ [w]
      rw [← handled]
      rfl
    · rw [newOps]
      exact .singleton _
    · rw [newOps] at hs
      cases hs
      exact outside mine
    · have grows : l.chains + 1 ≤ c := later
      omega
  · have sameOps : ops (l.begin_ w origin) c = ops l c := by
      simp [ops, Loop.begin_, Loop.start, List.filter_append, mine]
    have sameOutstanding : outstanding (l.begin_ w origin) c = outstanding l c := by
      simp [outstanding, Loop.begin_, Loop.start, List.filter_append, mine]
    refine ⟨?_, current, ?_, ?_, fun later => ?_⟩
    · rw [sameOps, sameOutstanding]
      exact handled
    · rw [sameOps]
      exact linked
    · rw [sameOps]
      exact first
    · rw [sameOps]
      exact unborn (Nat.le_of_succ_le later)

private theorem outstanding_alone (one : l.held c ≤ 1) {ws ws' : List S.Wait} {w : S.Wait}
    (split : outstanding l c = ws ++ w :: ws') : ws = [] ∧ ws' = [] := by
  have length := (length_outstanding (l := l) (c := c)).trans one
  rw [split, List.length_append, List.length_cons] at length
  exact ⟨List.eq_nil_of_length_eq_zero (by omega), List.eq_nil_of_length_eq_zero (by omega)⟩

private theorem outstanding_complete {l' : Loop m S} {ps ps' : List (Nat × S.Wait)} {c' : Nat}
    {w : S.Wait}
    (result : S.Result w) (hp : l.pending = ps ++ (c', w) :: ps') (one : l.held c ≤ 1)
    (pending : l'.pending = ps ++ ps') (ready : l'.ready = l.ready ++ [⟨c', w, result⟩]) :
    outstanding l' c = outstanding l c := by
  by_cases mine : c' = c
  · have split : outstanding l c = (ps.filter fun p => p.1 = c).map Prod.snd ++ w ::
        ((ps'.filter fun p => p.1 = c).map Prod.snd ++
          (l.ready.filter fun job => job.chain = c).map Job.wait) := by
      simp [outstanding, hp, List.filter_append, mine]
    obtain ⟨before, after⟩ := outstanding_alone one split
    rw [split, before, after]
    rw [List.append_eq_nil_iff] at after
    simp [outstanding, pending, ready, List.filter_append, mine, before, after.1, after.2]
  · simp [outstanding, hp, pending, ready, List.filter_append, mine]

private theorem outstanding_call {js js' : List (Job S)} {job : Job S}
    (hj : l.ready = js ++ job :: js')
    (one : l.held c ≤ 1) (mine : job.chain = c) :
    outstanding l c = [job.wait] ∧ outstanding { l with ready := js ++ js' } c = [] := by
  have split : outstanding l c = ((l.pending.filter fun p => p.1 = c).map Prod.snd ++
      (js.filter fun job => job.chain = c).map Job.wait) ++ job.wait ::
        (js'.filter fun job => job.chain = c).map Job.wait := by
    simp [outstanding, hj, List.filter_append, mine]
  obtain ⟨before, after⟩ := outstanding_alone one split
  rw [before, after] at split
  rw [List.append_eq_nil_iff] at before
  refine ⟨split, ?_⟩
  simp [outstanding, List.filter_append, before.1, before.2, after]

private theorem current_replaced {xs xs' : List (Worker S)} {x y : Worker S} {last : Option (Job S)}
    (hx : l.workers = xs ++ x :: xs') (current : ∀ z ∈ l.workers, ∀ job, z.job = some job →
      job.chain = c → last = some job) (same : ∀ job, y.job = some job → x.job = some job) :
    ∀ z ∈ xs ++ y :: xs', ∀ job, z.job = some job → job.chain = c → last = some job := by
  refine forall_replaced current hx fun job inside => ?_
  exact current x (mem_of_split hx) job (same job inside)

theorem Linked.call {s : m.State} (before : Reachable s l) (h : Linked l c)
    {xs xs' : List (Worker S)} {js js' : List (Job S)} {job : Job S}
    (hx : l.workers = xs ++ .polling :: xs') (hj : l.ready = js ++ job :: js') :
    Linked { l with
      ready := js ++ js'
      jobs := l.jobs ++ [job]
      workers := xs ++ .working l.jobs.length job (S.body job.wait job.result) :: xs' } c := by
  have one := before.held_le c
  have current := h.current
  obtain ⟨handled, -, linked, first, unborn⟩ := h
  have first' : ∀ st ∈ (ops l c).head?, FromOutside { l with jobs := l.jobs ++ [job] } c st := by
    intro st hs t origin
    obtain ⟨job', number, other⟩ := first st hs t origin
    exact ⟨job', kept_job number job, other⟩
  have linked' : (ops l c).IsChain (StartedBy { l with jobs := l.jobs ++ [job] } c) := by
    refine linked.imp fun st st' follows => ?_
    obtain ⟨t, job', origin, number, mine, wait⟩ := follows
    exact ⟨t, job', origin, kept_job number job, mine, wait⟩
  by_cases mine : job.chain = c
  · obtain ⟨had, none⟩ := outstanding_call hj one.1 mine
    have newTurns : (l.jobs ++ [job]).filter (fun job => job.chain = c) = turns l c ++ [job] := by
      simp [turns, List.filter_append, mine]
    refine ⟨?_, ?_, linked', first', unborn⟩
    · change (ops l c).map Started.wait = ((l.jobs ++ [job]).filter _).map Job.wait ++
        outstanding { l with ready := js ++ js' } c
      rw [newTurns, none, handled, had]
      simp
    · change ∀ z ∈ xs ++ _ :: xs', ∀ job', z.job = some job' → job'.chain = c →
        ((l.jobs ++ [job]).filter _).getLast? = some job'
      rw [newTurns, List.getLast?_concat]
      refine forall_replaced (fun x hm job' inside same => ?_) hx fun job' inside _ => inside
      -- no other handler of the chain is being called
      obtain ⟨ys, ys', split⟩ := List.append_of_mem hm
      refine absurd (mine.trans same.symm) ((before.alone split inside).2.1 job ?_)
      exact mem_of_split hj
  · have sameTurns : (l.jobs ++ [job]).filter (fun job => job.chain = c) = turns l c := by
      simp [turns, List.filter_append, mine]
    have same : outstanding { l with ready := js ++ js' } c = outstanding l c := by
      simp [outstanding, hj, List.filter_append, mine]
    refine ⟨?_, ?_, linked', first', unborn⟩
    · change (ops l c).map Started.wait = ((l.jobs ++ [job]).filter _).map Job.wait ++
        outstanding { l with ready := js ++ js' } c
      rw [sameTurns, same, handled]
    · change ∀ z ∈ xs ++ _ :: xs', ∀ job', z.job = some job' → job'.chain = c →
        ((l.jobs ++ [job]).filter _).getLast? = some job'
      rw [sameTurns]
      refine forall_replaced current hx fun job' inside same => ?_
      cases inside
      exact absurd same mine

theorem Linked.next {s : m.State} (before : Reachable s l) (h : Linked l c)
    {xs xs' : List (Worker S)} {t : Nat} {job : Job S} {w : S.Wait}
    (hx : l.workers = xs ++ .acting t job ⟨[], some w⟩ :: xs') (mine : job.chain = c) :
    (ops (l.start c w (some t)) c).map Started.wait =
        (turns l c).map Job.wait ++ outstanding (l.start c w (some t)) c ∧
      (ops (l.start c w (some t)) c).IsChain (StartedBy l c) ∧
      (ops (l.start c w (some t)) c).head? = (ops l c).head? := by
  obtain ⟨handled, current, linked, -, -⟩ := h
  have number : l.jobs[t]? = some job := numbered before _ (mem_of_split hx)
  have last : (turns l c).getLast? = some job := current _ (mem_of_split hx) job rfl mine
  obtain ⟨noPending, noReady, -⟩ := before.alone hx rfl
  have pending : l.pending.filter (fun p => p.1 = c) = [] := by
    rw [List.filter_eq_nil_iff]
    intro p hp
    simpa [mine] using noPending p hp
  have ready : l.ready.filter (fun r => r.chain = c) = [] := by
    rw [List.filter_eq_nil_iff]
    intro r hr
    simpa [mine] using noReady r hr
  have none : outstanding l c = [] := by simp [outstanding, pending, ready]
  have newOps : ops (l.start c w (some t)) c = ops l c ++ [⟨c, w, some t⟩] := by
    simp [ops, Loop.start, List.filter_append]
  have newOutstanding : outstanding (l.start c w (some t)) c = [w] := by
    simp [outstanding, Loop.start, List.filter_append, pending, ready]
  rw [none, List.append_nil] at handled
  rw [newOps, newOutstanding, List.map_append, handled]
  -- the last operation is the one whose handler this is
  have wait : ((ops l c).map Started.wait).getLast? = ((turns l c).map Job.wait).getLast? := by
    rw [handled]
  rw [List.getLast?_map, List.getLast?_map, last] at wait
  refine ⟨rfl, linked.append (.singleton _) fun st hs st' hs' => ?_, ?_⟩
  · rw [hs] at wait
    cases hs'
    exact ⟨t, job, rfl, number, mine, (Option.some.inj wait).symm⟩
  · cases h : ops l c with
    | nil =>
      rw [h] at wait
      cases wait
    | cons st sts => rfl

private theorem no_job {x y : Worker S} (h : y.job = none) (job : Job S)
    (inside : y.job = some job) :
    x.job = some job := by
  rw [h] at inside
  cases inside

theorem Linked.step {s : m.State} (before : Reachable s l) {l' : Loop m S} (step : Step l l')
    (h : Linked l c) : Linked l' c := by
  have one := before.held_le c
  have current := h.current
  cases step with
  | launch may => exact h.begin_ one.2 _ none fun _ _ origin => by cases origin
  | serve away =>
    obtain ⟨handled, -, linked, first, unborn⟩ :=
      h.begin_ one.2 S.first none fun _ _ origin => by cases origin
    refine ⟨handled, fun x hx job inside => ?_, linked, first, unborn⟩
    rw [(List.mem_replicate.mp hx).2] at inside
    cases inside
  | restart away => exact h.quiet rfl rfl rfl rfl current
  | stop => exact h.quiet rfl rfl rfl rfl current
  | complete hp result =>
    exact h.quiet rfl rfl rfl (outstanding_complete result hp one.1 rfl rfl) current
  | call hx hj goes => exact h.call before hx hj
  | work hx env => exact h.quiet rfl rfl rfl rfl (current_replaced hx current fun _ => id)
  | @worked xs xs' t job v hx =>
    refine h.quiet rfl rfl rfl rfl (current_replaced hx current fun job' inside => ?_)
    rcases job_acting t job (S.tail job.wait job.result v) with still | past
    · rw [still] at inside
      exact inside
    · rw [past] at inside
      cases inside
  | @act xs xs' t job a acts next hx =>
    have workers := current_replaced (y := .acting t job ⟨acts, next⟩) hx current
      fun job' inside => by
        rcases job_acting t job ⟨acts, next⟩ with still | past
        · rw [still] at inside
          exact inside
        · rw [past] at inside
          cases inside
    cases a with
    | spawn w =>
      obtain ⟨handled, -, linked, first, unborn⟩ := h.begin_ one.2 w (some t)
        fun new t' origin => by
        cases origin
        refine ⟨job, numbered before _ (mem_of_split hx), ?_⟩
        rw [← new]
        exact Nat.ne_of_lt (before.chain_lt (mem_of_split hx) rfl)
      exact ⟨handled, workers, linked, first, unborn⟩
    | stop => exact h.quiet rfl rfl rfl rfl workers
    | note n => exact h.quiet rfl rfl rfl rfl workers
  | @next xs xs' t job w hx =>
    have workers := current_replaced hx current (no_job (job_acting_done t job))
    by_cases mine : job.chain = c
    · obtain ⟨handled, linked, same⟩ := h.next before hx mine
      have first := h.first
      rw [← same] at first
      rw [← mine] at handled linked first workers ⊢
      refine ⟨handled, workers, linked, first, fun later => ?_⟩
      have begun : job.chain < l.chains := before.chain_lt (mem_of_split hx) rfl
      exact absurd later (Nat.not_le.mpr begun)
    obtain ⟨handled, -, linked, first, unborn⟩ := h
    have sameOps : ops (l.start job.chain w (some t)) c = ops l c := by
      simp [ops, Loop.start, List.filter_append, mine]
    have same : outstanding (l.start job.chain w (some t)) c = outstanding l c := by
      simp [outstanding, Loop.start, List.filter_append, mine]
    refine ⟨?_, workers, ?_, ?_, ?_⟩
    · change (ops (l.start job.chain w (some t)) c).map Started.wait = (turns l c).map Job.wait ++
        outstanding (l.start job.chain w (some t)) c
      rw [sameOps, same, handled]
    · change (ops (l.start job.chain w (some t)) c).IsChain _
      rw [sameOps]
      exact linked
    · change ∀ st ∈ (ops (l.start job.chain w (some t)) c).head?, FromOutside l c st
      rw [sameOps]
      exact first
    · change _ → ops (l.start job.chain w (some t)) c = []
      rw [sameOps]
      exact unborn
  | finish hx =>
    exact h.quiet rfl rfl rfl rfl (current_replaced hx current (no_job job_polling))
  | throw hx inside =>
    exact h.quiet rfl rfl rfl rfl (current_replaced hx current (no_job job_polling))
  | leave hx past =>
    exact h.quiet rfl rfl rfl rfl (current_replaced hx current (no_job job_left))

/-- In every reachable loop the operations of a chain come one after the other. -/
theorem isLinked {s : m.State} {l : Loop m S} (h : Reachable s l) (c : Nat) : Linked l c :=
  h.induction (J := fun l => Linked l c)
    ⟨rfl, fun _ none => absurd none List.not_mem_nil, .nil, (fun _ none => nomatch none),
      fun _ => rfl⟩
    fun _ _ before ih step => ih.step before step

end Order

end Webengine.Library.LoopHistories
