/- source: backend/src/ProcessUtil.cpp (write_file_atomic)
   digest: Replacements of one file by any number of calls at once, which share the name of the
   temporary file. What the path shows is whole, as long as a call writes to the temporary file
   and renames it only if no other call has opened it since. A stream that has failed writes once
   more when it is destroyed. -/

import Webengine.Control.Nginx
import Webengine.Control.Replacement
import Webengine.Library.Exclusion

set_option autoImplicit false
set_option relaxedAutoImplicit false

namespace Webengine.Results.WholeFiles

open Webengine.Control
open Webengine.Control.Host
open Webengine.Control.ProcessUtil
open Webengine.Control.Replacement
open Webengine.Engine.Roles (Str)
open Webengine.Library.Exclusion (Exclusive exclusive_append exclusive_alone)
open Webengine.Library.Files (Fs oneFile read_oneFile)
open Webengine.Library.Interleavings
open Webengine.Library.Machines
open Webengine.Library.Programs (Prog)

variable {d : Daemon} {path content : Str}

section Moments

/-- The calls that replace the file at `path`, one a thread, after a schedule. -/
abbrev calls (d : Daemon) (path : Str) (contents : Nat → Str) (s : State)
    (sched : List (Nat × Env)) : Config (host d) Empty Bool :=
  (Config.start (fun t => writeFileAtomic path (contents t)) s).play sched

/-- The call that was the last to open the temporary file, after a step. -/
def after (path : Str) (last : Option Nat) (e : Event (host d)) : Option Nat :=
  if opens path e.env e.op then some e.tid else last

/-- A call writes to the temporary file, with its stream's last write, and renames it only while
it is the last one that has opened it. -/
def Unshared (path : Str) : Option Nat → List (Event (host d)) → Prop
  | _, [] => True
  | last, e :: l => (touches e.op → last = some e.tid) ∧ Unshared path (after path last e) l

/-- What the path shows at any moment, and what the calls that have returned have done. -/
structure Whole (path : Str) (contents : Nat → Str) (s : State) (c : Config (host d) Empty Bool) :
    Prop where
  shown : c.state.fs.read path = s.fs.read path ∨
    ∃ e ∈ c.log, c.state.fs.read path = some (contents e.tid)
  replaced : ∀ t, c.pool t = .ret true → ∃ e ∈ c.log, e.tid = t ∧
    e.op = .rename (tmpName path) path ∧ e.post.fs.read path = some (contents t)
  unchanged : ∀ t, c.pool t = .ret false → ∀ e ∈ c.own t,
    e.post.fs.read path = e.pre.fs.read path

end Moments

section Runs

variable {contents : Nat → Str} {s : State}

private theorem calls_concat (sched : List (Nat × Env)) (x : Nat × Env) :
    calls d path contents s (sched ++ [x]) = (calls d path contents s sched).step x.1 x.2 :=
  Config.play_snoc (m := host d) _ sched x

private theorem unshared_concat {last : Option Nat} {l : List (Event (host d))}
    {e : Event (host d)} :
    Unshared path last (l ++ [e]) ↔
      Unshared path last l ∧ (touches e.op → l.foldl (after path) last = some e.tid) := by
  induction l generalizing last with
  | nil => simp [Unshared]
  | cons e' l ih =>
    rw [List.cons_append, Unshared, Unshared, ih, List.foldl_cons, and_assoc]

/-- Every call stands somewhere, and the path shows what the calls have promoted. -/
structure Inv (path : Str) (contents : Nat → Str) (s : State) (c : Config (host d) Empty Bool) :
    Prop where
  stage : ∀ t,
    Stage path (contents t) (c.log.foldl (after path) none = some t) c.state.fs (c.pool t)
  shown : c.state.fs.read path = s.fs.read path ∨
    ∃ e ∈ c.log, c.state.fs.read path = some (contents e.tid)
  replaced : ∀ t, c.pool t = .ret true → ∃ e ∈ c.log, e.tid = t ∧
    e.op = .rename (tmpName path) path ∧ e.post.fs.read path = some (contents t)
  unchanged : ∀ e ∈ c.log, c.pool e.tid ≠ .ret true →
    e.post.fs.read path = e.pre.fs.read path

private theorem inv_start :
    Inv path contents s (calls d path contents s []) where
  stage t := .before rfl
  shown := Or.inl rfl
  replaced t returned := by
    have begins : writeFileAtomic path (contents t) = .ret true := returned
    rw [writeFileAtomic_eq] at begins
    cases begins
  unchanged e he := by cases he

section Step

variable {c : Config (host d) Empty Bool} {t : Nat} {env : Env} {o : Op} {k : Ans o → Code Bool}

private theorem last_step (hop : c.pool t = .op o k) :
    (c.step t env).log.foldl (after path) none =
      if opens path env o then some t else c.log.foldl (after path) none := by
  rw [Config.log_step hop, List.foldl_append]
  rfl

private theorem stage_step (h : Inv path contents s c) (hop : c.pool t = .op o k)
    (allowed : touches o → c.log.foldl (after path) none = some t) (u : Nat) :
    Stage path (contents u) ((c.step t env).log.foldl (after path) none = some u)
      (c.step t env).state.fs ((c.step t env).pool u) := by
  rw [last_step hop, Config.state_step hop]
  by_cases same : u = t
  · subst same
    rw [Config.pool_step_self hop]
    refine (goes_next ((h.stage u).next hop) allowed).stage.of_imp fun now => ?_
    by_cases opening : opens path env o = true
    · exact Or.inl opening
    · rw [if_neg opening] at now
      exact Or.inr now
  · rw [Config.pool_step_of_ne same]
    refine (h.stage u).of_keeps fun now => ?_
    by_cases opening : opens path env o = true
    · rw [if_pos opening] at now
      exact absurd (Option.some.inj now).symm same
    · rw [if_neg opening] at now
      refine ⟨now, fun file text owned => ?_⟩
      -- the temporary file is the other call's, so this one does not touch it
      have passive : ¬ touches o := fun touching =>
        same (Option.some.inj (now.symm.trans (allowed touching)))
      have shut : opens path env o = false := Bool.eq_false_iff.mpr opening
      rcases fs_of_passive (d := d) ((h.stage t).next hop) passive shut with fs | fs
      · rw [fs]
        exact owned
      · rw [fs]
        exact owned.unlink (Ne.symm (tmpName_ne path))

private theorem inv_step (h : Inv path contents s c) (hop : c.pool t = .op o k)
    (allowed : touches o → c.log.foldl (after path) none = some t) :
    Inv path contents s (c.step t env) := by
  have goes : Goes path (contents t) _ c.state o (hostStep d env c.state o).2 _ :=
    goes_next ((h.stage t).next hop) allowed
  have logged : ∀ e, e ∈ (c.step t env).log ↔ e ∈ c.log ∨ e = ⟨t, c.state, env, o⟩ := by
    intro e
    rw [Config.log_step hop, List.mem_append, List.mem_singleton]
  have last : (⟨t, c.state, env, o⟩ : Event (host d)) ∈ (c.step t env).log :=
    (logged _).mpr (Or.inr rfl)
  refine ⟨stage_step h hop allowed, ?_, fun u returned => ?_, fun e he unfinished => ?_⟩
  · rw [Config.state_step hop]
    rcases goes.shown with ⟨-, same⟩ | ⟨-, -, promoted⟩
    · rw [same]
      refine h.shown.imp_right ?_
      rintro ⟨e, he, shown⟩
      exact ⟨e, (logged e).mpr (Or.inl he), shown⟩
    · exact Or.inr ⟨_, last, promoted⟩
  · by_cases same : u = t
    · subst same
      rw [Config.pool_step_self hop] at returned
      rcases goes.shown with ⟨unfinished, -⟩ | ⟨-, renamed, promoted⟩
      · exact absurd returned unfinished
      · exact ⟨_, last, rfl, renamed, promoted⟩
    · rw [Config.pool_step_of_ne same] at returned
      obtain ⟨e, he, rest⟩ := h.replaced u returned
      exact ⟨e, (logged e).mpr (Or.inl he), rest⟩
  · rcases (logged e).mp he with earlier | rfl
    · refine h.unchanged e earlier fun done => unfinished ?_
      have other : e.tid ≠ t := by
        intro same
        rw [same, hop] at done
        cases done
      rw [Config.pool_step_of_ne other, done]
    · have waiting : k (hostStep d env c.state o).1 ≠ .ret true := by
        intro done
        exact unfinished ((Config.pool_step_self hop env).trans done)
      rcases goes.shown with ⟨-, same⟩ | ⟨done, -⟩
      · exact same
      · exact absurd done waiting

end Step

/-- The invariant holds after every schedule whose steps leave another call's temporary file
alone. -/
private theorem inv_play (sched : List (Nat × Env))
    (unshared : Unshared path none (calls d path contents s sched).log) :
    Inv path contents s (calls d path contents s sched) := by
  refine Config.play_induction (J := fun c => Unshared path none c.log → Inv path contents s c)
    (fun _ => inv_start) (fun c t env o k ih hop unshared => ?_) sched unshared
  rw [Config.log_step hop, unshared_concat] at unshared
  exact inv_step (ih unshared.1) hop unshared.2

/-- Calls of `write_file_atomic` on one path, in any interleaving, with any failures and stopped
anywhere: in a run in which a call writes to the temporary file, and renames it, only while it
is the last one that has opened it, the path shows whole contents only. -/
theorem whole_of_unshared (d : Daemon) (path : Str) (contents : Nat → Str) (s : State)
    (sched : List (Nat × Env))
    (unshared : Unshared path none (calls d path contents s sched).log) :
    Whole path contents s (calls d path contents s sched) := by
  have inv := inv_play sched unshared
  refine ⟨inv.shown, inv.replaced, fun t returned e he => ?_⟩
  obtain ⟨logged, own⟩ := List.mem_filter.mp he
  refine inv.unchanged e logged ?_
  rw [of_decide_eq_true own, returned]
  exact fun same => by cases same

/-- A call that has the temporary file open was the last to open it. -/
def Held (path : Str) (c : Config (host d) Empty Bool) : Prop :=
  ∀ t, hasOpen (c.pool t) → c.log.foldl (after path) none = some t

theorem held_step {c : Config (host d) Empty Bool} {t : Nat} {env : Env} {o : Op}
    {k : Ans o → Code Bool} (inv : Inv path contents s c) (held : Held path c)
    (hop : c.pool t = .op o k)
    (alone : ∀ u, u ≠ t → c.pool u = writeFileAtomic path (contents u) ∨ ∃ r, c.pool u = .ret r) :
    Held path (c.step t env) := by
  intro u now
  by_cases same : u = t
  · subst same
    rw [Config.pool_step_self hop] at now
    rw [last_step hop]
    by_cases opening : opens path env o = true
    · exact if_pos opening
    · rw [if_neg opening]
      have shut : opens path env o = false := Bool.eq_false_iff.mpr opening
      exact held u (hop ▸ hasOpen_before ((inv.stage u).next hop) shut now)
  · rw [Config.pool_step_of_ne same] at now
    rcases alone u same with unbegun | ⟨r, ended⟩
    · rw [unbegun] at now
      exact now.elim
    · rw [ended] at now
      exact absurd trivial now

private theorem pool_of_unbegun {sched : List (Nat × Env)} {t : Nat}
    (unbegun : (calls d path contents s sched).own t = []) :
    (calls d path contents s sched).pool t = writeFileAtomic path (contents t) := by
  have follows : Follows (writeFileAtomic path (contents t))
      ((calls d path contents s sched).own t) ((calls d path contents s sched).pool t) :=
    Config.play_follows (m := host d) (fun t => writeFileAtomic path (contents t)) s sched t
  rw [unbegun] at follows
  exact follows.of_nil

private theorem unshared_of_exclusive {sched : List (Nat × Env)}
    (exclusive : Exclusive (calls d path contents s []) sched) :
    Unshared path none (calls d path contents s sched).log := by
  suffices both : Unshared path none (calls d path contents s sched).log ∧
      Held path (calls d path contents s sched) from both.1
  induction sched using List.reverseRecOn with
  | nil => exact ⟨trivial, fun t now => now.elim⟩
  | append_singleton sched x ih =>
    obtain ⟨earlier, now, -⟩ := exclusive_append.mp exclusive
    obtain ⟨unshared, held⟩ := ih earlier
    have inv : Inv path contents s (calls d path contents s sched) := inv_play sched unshared
    rw [calls_concat]
    rcases Config.step_cases (calls d path contents s sched) x.1 x.2 with same | ⟨o, k, hop⟩
    · rw [same]
      exact ⟨unshared, held⟩
    · refine ⟨?_, held_step inv held hop fun u ne => ?_⟩
      · rw [Config.log_step hop, unshared_concat]
        refine ⟨unshared, fun touching => ?_⟩
        exact held x.1 (hop ▸ hasOpen_of_touches touching k)
      · rcases now ⟨o, k, hop⟩ u ne with unbegun | ended
        · exact Or.inl (pool_of_unbegun unbegun)
        · exact Or.inr ended

section Instance

/-- No call fails, and a stream hands on its text in one piece. -/
def smooth : Env := ⟨[], none, [], 0, .notSpawned [], 0⟩

def listenFile : Str := "listen.conf".toList

/-- Two port changes. -/
def snippets (t : Nat) : Str :=
  if t = 0 then "listen 8080;\n".toList else "listen 9090;\n".toList

def deployed : State :=
  ⟨8080, 8443, [], oneFile listenFile "listen 80;\n".toList, none, .stopped, fun _ => none⟩

/-- The theorem at the run of one call. -/
theorem whole_of_unshared_alone :
    Whole listenFile snippets deployed (calls (Nginx.daemon {}) listenFile snippets deployed
      [(0, smooth), (0, smooth), (0, smooth), (0, smooth)]) := by
  refine whole_of_unshared (Nginx.daemon {}) listenFile snippets deployed _ ?_
  refine unshared_of_exclusive (exclusive_alone (u := 0) ?_ fun t _ => Or.inl rfl)
  simp

/-- The second call opens the temporary file, and so empties it, when the first has written it
and is about to rename it. -/
theorem not_whole_of_shared :
    ¬ Whole listenFile snippets deployed (calls (Nginx.daemon {}) listenFile snippets deployed
      [(0, smooth), (0, smooth), (0, smooth), (1, smooth), (0, smooth)]) := by
  intro whole
  have shown := whole.shown
  have empty : (calls (Nginx.daemon {}) listenFile snippets deployed
      [(0, smooth), (0, smooth), (0, smooth), (1, smooth), (0, smooth)]).state.fs.read listenFile =
        some [] := rfl
  rw [empty] at shown
  rcases shown with original | ⟨e, -, complete⟩
  · have before : deployed.fs.read listenFile = some "listen 80;\n".toList :=
      read_oneFile _ _
    rw [before] at original
    exact absurd original (by decide)
  · have nonempty : snippets e.tid ≠ [] := by
      unfold snippets
      split <;> decide
    exact nonempty (Option.some.inj complete).symm

end Instance

end Runs

end Webengine.Results.WholeFiles
