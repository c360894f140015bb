/- digest: When proc::spawn reports how its child really ended, for every answer of every call,
   and what a config test that passes then means. -/

import Webengine.Control.Controllers
import Webengine.Control.Spawning

set_option autoImplicit false
set_option relaxedAutoImplicit false

namespace Webengine.Results.ChildOutcomes

open Webengine.Engine.Roles (Str)
open Webengine.Control.Host
open Webengine.Control.ProcessUtil
open Webengine.Control.Controllers
open Webengine.Control.Spawning
open Webengine.Library.Machines
open Webengine.Library.Programs (Prog)

/-- `run(...) == 0` in the controllers is decided by the code that `spawn` returns. -/
private theorem exitsZero_result {m : Machine Ans} {name : Str} {argv : List Str} {capture : Bool}
    {s : m.State} {env : Nat → m.Env} :
    (run m (exitsZero (runCommand name argv capture)) s env).result =
      .ok (decide ((m.step (env 0) s (.spawn argv capture)).1.code = 0)) := by
  unfold exitsZero runCommand sys
  simp only [Prog.perform_bind, Prog.op_bind, run_op]
  generalize (m.step (env 0) s (.spawn argv capture)).1 = r
  split
  · rename_i negative
    have nonzero : r.code ≠ 0 := by omega
    rw [decide_eq_false nonzero]
    rfl
  · split
    · rfl
    · rfl

/-- The child was spawned, it was reaped, and it had exited with the code. -/
structure ExitedWith (capture : Bool) (w : World) (code : UInt8) : Prop where
  started : Started capture w
  reaped : w.Reaped
  ending : w.ending = .exited code

/-- What a caller reads in the result: the exit code of a child that exited, -1 in every other
case, the whole output with the code, and in a test of the controllers that passes, an exit
with 0. -/
structure Reports (argv : List Str) (capture : Bool) (w : World) (r : Spawned) : Prop where
  exited : ∀ code, ExitedWith capture w code → r.code = code.toNat
  code : 0 ≤ r.code → ∃ code, ExitedWith capture w code ∧ r.code = code.toNat
  otherwise : (¬ ∃ code, ExitedWith capture w code) → r.code = -1
  output : 0 ≤ r.code → capture = true → r.output = w.wrote
  test : ∀ (m : Machine Ans) (name : Str) (s : m.State) (env : Nat → m.Env),
    (m.step (env 0) s (.spawn argv capture)).1 = r →
      (run m (exitsZero (runCommand name argv capture)) s env).result = .ok true →
        ExitedWith capture w 0

variable {capture : Bool} {w : World} {argv : List Str} {r : Spawned}

private theorem Reports.of_code (exited : ∀ code, ExitedWith capture w code → r.code = code.toNat)
    (otherwise : (¬ ∃ code, ExitedWith capture w code) → r.code = -1)
    (output : ∀ code, ExitedWith capture w code → capture = true → r.output = w.wrote) :
    Reports argv capture w r := by
  have known : 0 ≤ r.code → ∃ code, ExitedWith capture w code := by
    intro nonneg
    by_contra unknown
    have failed := otherwise unknown
    omega
  refine ⟨exited, fun nonneg => ?_, otherwise, fun nonneg => ?_, ?_⟩
  · obtain ⟨code, h⟩ := known nonneg
    exact ⟨code, h, exited code h⟩
  · obtain ⟨code, h⟩ := known nonneg
    exact output code h
  · intro m name s env answered passed
    rw [exitsZero_result, answered] at passed
    injection passed with passed
    have zero : r.code = 0 := of_decide_eq_true passed
    obtain ⟨code, h⟩ := known (le_of_eq zero.symm)
    have same : (code.toNat : Int) = 0 := (exited code h).symm.trans zero
    have isZero : code = 0 := UInt8.toNat_inj.mp (by simpa using same)
    exact isZero ▸ h

private theorem child_of_exited {code : UInt8} (h : ExitedWith capture w code) :
    w.child argv capture = .exited code w.wrote := by
  have noError : startError argv capture w = none := startError_isNone_iff.mpr h.started
  simp only [World.child, noError, h.ending]

private theorem code_of_not_exited (reaped : Started capture w → w.Reaped)
    (none_ : ¬ ∃ code, ExitedWith capture w code) :
    ((w.child argv capture).spawned capture).code = -1 := by
  unfold World.child
  cases herr : startError argv capture w with
  | some err => rfl
  | none =>
    have started : Started capture w := startError_isNone_iff.mp herr
    cases ending : w.ending with
    | exited code => exact absurd ⟨code, started, reaped started, ending⟩ none_
    | signalled sig core => rfl

theorem reports_of_undisturbed (undisturbed : Undisturbed capture w)
    (returned : spawn argv capture w = some r) : Reports argv capture w r := by
  have reaped := fun started => reaped_of_undisturbed undisturbed started returned
  obtain rfl := eq_spawned_of_undisturbed undisturbed returned
  refine Reports.of_code (fun code h => ?_) (code_of_not_exited reaped) fun code h whole => ?_
  · rw [child_of_exited h, Child.spawned]
  · rw [child_of_exited h, Child.spawned, if_pos whole]

/-- A failed wait reads as an exit with 0. -/
private theorem code_of_failed_wait (started : Started capture w) {e : Errno}
    (failed : w.settled = some (.failed e)) (returned : spawn argv capture w = some r) :
    r.code = 0 := by
  obtain ⟨output, status, -, hwaited, rfl⟩ := exists_of_spawn started returned
  rw [waited_of_failed failed] at hwaited
  cases hwaited
  exact exitCode_zero

private theorem undisturbed_of_reports (returned : spawn argv capture w = some r)
    (reports : Reports argv capture w r) : Undisturbed capture w := by
  refine ⟨fun started e failed => ?_, fun started reaped code ending whole => ?_⟩
  · have zero := code_of_failed_wait started failed returned
    obtain ⟨code, h, -⟩ := reports.code (le_of_eq zero.symm)
    have settled : w.settled = some .reaped := h.reaped
    rw [failed] at settled
    cases settled
  · subst whole
    have code_ := reports.exited code ⟨started, reaped, ending⟩
    have output_ := reports.output (by omega) rfl
    obtain ⟨output, status, hcollected, -, rfl⟩ := exists_of_spawn started returned
    have took : w.wrote = w.wrote.take (taken w.reads) :=
      output_.symm.trans (collected_eq hcollected)
    have length := congrArg List.length took
    rw [List.length_take] at length
    omega

/-- `spawn` returns once its calls have answered, and then reports the outcome of the child
exactly if no wait failed and no read failed before the output of a child that exited was
read. -/
theorem spawn_reports_iff (argv : List Str) (capture : Bool) (w : World) :
    ((spawn argv capture w).isSome ↔ Answered capture w) ∧
      ∀ r, spawn argv capture w = some r → (Reports argv capture w r ↔ Undisturbed capture w) :=
  ⟨isSome_spawn_iff, fun _ returned =>
    ⟨undisturbed_of_reports returned,
      fun undisturbed => reports_of_undisturbed undisturbed returned⟩⟩

section Instance

/-- A test of a configuration nginx rejects. -/
def rejecting (reads : List ReadReply) (waits : List WaitReply) : World where
  pipe := none
  devnull := true
  spawnp := none
  writes := [(.stderr, "nginx: [emerg] ".toList), (.stderr, "invalid port".toList)]
  ending := .exited 1
  reads := reads
  waits := waits

def testArgv : List Str := ["nginx".toList, "-t".toList]

/-- The theorem at a child whose wait is interrupted once. -/
theorem spawn_reports_iff_rejecting :
    Reports testArgv true (rejecting [.data 15, .data 600, .data 1] [.interrupted, .reaped])
      ⟨1, "nginx: [emerg] invalid port".toList, []⟩ := by
  refine ((spawn_reports_iff testArgv true _).2 _ rfl).mpr ⟨?_, ?_⟩
  · intro started e failed
    cases failed
  · intro started reaped code ending whole
    decide

/-- A wait that fails turns the rejection into a pass. -/
theorem not_reports_of_failed_wait :
    let w := rejecting [.data 27, .data 1] [.failed (.other "No child processes".toList)]
    ∃ r, spawn testArgv true w = some r ∧ r.code = 0 ∧ ¬ Reports testArgv true w r := by
  refine ⟨⟨0, "nginx: [emerg] invalid port".toList, []⟩, rfl, rfl, fun reports => ?_⟩
  obtain ⟨code, h, -⟩ := reports.code (le_refl 0)
  cases h.reaped

/-- A read that is interrupted loses the rest of the output. -/
example :
    spawn testArgv true (rejecting [.data 15, .interrupted] [.reaped]) =
      some ⟨1, "nginx: [emerg] ".toList, []⟩ := rfl

end Instance

end Webengine.Results.ChildOutcomes
