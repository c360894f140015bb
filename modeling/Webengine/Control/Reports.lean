/- source: backend/src/NginxController.cpp, backend/src/LighttpdController.cpp,
   backend/src/ProcessUtil.cpp
   digest: What the controllers record as their last error: a call that returns false has recorded
   a text, one that returns true none. -/

import Webengine.Control.Lifecycle
import Webengine.Control.Lighttpd
import Webengine.Control.Nginx
import Webengine.Library.Traces

set_option autoImplicit false
set_option relaxedAutoImplicit false

namespace Webengine.Control.Reports

open Webengine.Control.Host
open Webengine.Control.ProcessUtil
open Webengine.Control.Controllers
open Webengine.Control.Lifecycle (Call)
open Webengine.Engine.Roles (Str)
open Webengine.Library.Machines
open Webengine.Library.Programs (Prog)
open Webengine.Library.Traces

/-- The text a step records as the last error. -/
def recorded : Op → Option Str
  | .setLastError text => some text
  | _ => none

/-- What is recorded is not empty. -/
def explains (o : Op) : Prop := ∀ text, recorded o = some text → text ≠ []

private theorem explains_of_hidden {o : Op} (h : Hidden recorded o) : explains o :=
  fun _ same => nomatch h.symm.trans same

private theorem hidden_of_observes {o : Op} (h : observes o) : Hidden recorded o := by
  cases o with
  | setLastError text => exact h.elim
  | _ => rfl

private theorem ends_fail {α : Type} {text : Str} {a : α} {Q : α → List Str → Prop}
    (h : Q a [text]) :
    Ends recorded (do sys (.setLastError text); pure a) Q := fun _ => h

/-- It returns false exactly if it has recorded an error; it records no empty one. -/
structure Truthful (p : Code Bool) : Prop where
  explained : p.Only explains
  outcome : Ends recorded p fun ok texts => ok = true ↔ texts = []

namespace Truthful

theorem done : Truthful (pure true) := ⟨trivial, by simp⟩

theorem fail {text : Str} (filled : text ≠ []) :
    Truthful (do sys (.setLastError text); pure false) where
  explained := by
    refine ⟨fun text' same => ?_, fun _ => trivial⟩
    cases same
    exact filled
  outcome := ends_fail (by simp)

theorem after {α : Type} {p : Code α} {g : α → Code Bool} (silent : p.Only (Hidden recorded))
    (rest : ∀ a, Truthful (g a)) : Truthful (p >>= g) where
  explained := Prog.only_bind (silent.mono fun _ => explains_of_hidden) fun a => (rest a).explained
  outcome := ends_bind_of_hidden silent fun a => (rest a).outcome

theorem test {p : Code Bool} {g : Bool → Code Bool} (hp : Truthful p) (yes : Truthful (g true))
    (explained : (g false).Only explains) (no : Ends recorded (g false) fun ok _ => ok = false) :
    Truthful (p >>= g) where
  explained := Prog.only_bind hp.explained fun ok => by
    cases ok
    · exact explained
    · exact yes.explained
  outcome := by
    rw [ends_bind]
    refine hp.outcome.mono fun ok texts reported => ?_
    cases ok with
    | true =>
      obtain rfl : texts = [] := reported.mp rfl
      exact yes.outcome
    | false =>
      have recorded_ : texts ≠ [] := fun none => nomatch reported.mpr none
      refine no.mono fun ok more failed => ?_
      simp [failed, recorded_]

theorem and {p q : Code Bool} (hp : Truthful p) (hq : Truthful q) :
    Truthful (do if !(← p) then pure false else q) := test hp hq trivial rfl

end Truthful

section Parts

private theorem readPid_silent (pidfile : Str) : (readPid pidfile).Only (Hidden recorded) :=
  (readPid_only pidfile).mono fun _ => hidden_of_observes

theorem isRunning_silent (pidfile name : Str) :
    (ProcessUtil.isRunning pidfile name).Only (Hidden recorded) :=
  (isRunning_only pidfile name).mono fun _ => hidden_of_observes

private theorem ensureDir_silent (path : Str) : (ensureDir path).Only (Hidden recorded) :=
  ensureDir_only path rfl

private theorem append_ne_nil {xs ys : Str} (h : ys ≠ []) : xs ++ ys ≠ [] := by
  simp [h]

private theorem append_ne_nil_left {xs ys : Str} (h : xs ≠ []) : xs ++ ys ≠ [] := by
  simp [h]

private theorem signalPid_truthful (pid sig : Int) : Truthful (signalPid pid sig) := by
  refine Truthful.after (p := sys (.kill (toPidT pid) sig)) ⟨rfl, fun _ => trivial⟩ fun failed => ?_
  cases failed with
  | none => exact .done
  | some e => exact .fail (by simp)

private theorem writePieces_silent (file offset : Nat) (ps : List Str) :
    (writePieces file offset ps).Only (Hidden recorded) := by
  induction ps generalizing offset with
  | nil => trivial
  | cons piece ps ih =>
    refine ⟨rfl, fun n => ?_⟩
    change (if n = piece.length then writePieces file (offset + piece.length) ps
      else .ret (some (offset + n, piece)) : Code _).Only (Hidden recorded)
    split_ifs
    · exact ih _
    · trivial

private theorem closeFailed_silent (file offset : Nat) (piece : Str) :
    (closeFailed file offset piece).Only (Hidden recorded) := by
  refine ⟨rfl, fun left => ?_⟩
  change (if left = [] then .ret () else .op (.write file offset left) fun _ => .ret () :
    Code Unit).Only (Hidden recorded)
  split_ifs
  · trivial
  · exact ⟨rfl, fun _ => trivial⟩

private theorem Truthful.fail_then {text : Str} {p : Code Unit} (filled : text ≠ [])
    (silent : p.Only (Hidden recorded)) :
    Truthful (do sys (.setLastError text); p; pure false) where
  explained := by
    refine ⟨fun text' same => ?_, fun _ => ?_⟩
    · cases same
      exact filled
    · change (p >>= fun _ => .ret false).Only explains
      exact Prog.only_bind (silent.mono fun _ => explains_of_hidden) fun _ => trivial
  outcome := by
    intro _
    change Ends recorded (p >>= fun _ => .ret false) _
    exact ends_bind_of_hidden silent fun _ => by simp [recorded]

private theorem writeFileAtomic_truthful (path content : Str) :
    Truthful (writeFileAtomic path content) := by
  have removes : (sys (.remove (tmpName path))).Only (Hidden recorded) := ⟨rfl, fun _ => trivial⟩
  refine Truthful.after (p := sys (.openTrunc (tmpName path))) ⟨rfl, fun _ => trivial⟩
    fun opened => ?_
  cases opened with
  | none => exact .fail (by simp)
  | some file =>
    refine Truthful.after (p := sys (.buffer content)) ⟨rfl, fun _ => trivial⟩ fun ps => ?_
    refine Truthful.after (writePieces_silent file 0 ps) fun written => ?_
    rcases written with _ | ⟨offset, piece⟩
    · refine Truthful.after (p := sys (.rename (tmpName path) path)) ⟨rfl, fun _ => trivial⟩
        fun failed => ?_
      cases failed with
      | none => exact .done
      | some e => exact .fail_then (by simp) removes
    · have leaves : (sys (.remove (tmpName path)) >>= fun _ =>
          closeFailed file offset piece).Only (Hidden recorded) :=
        Prog.only_bind removes fun _ => closeFailed_silent file offset piece
      exact .fail_then (by simp) leaves

variable {name : Str}

private theorem runCommand_explained (argv : List Str) (capture : Bool) :
    (runCommand name argv capture).Only explains := by
  refine ⟨explains_of_hidden rfl, fun r => ?_⟩
  simp only [Prog.bind]
  split
  · refine ⟨fun text same => ?_, fun _ => trivial⟩
    cases same
    split
    · simp
    · assumption
  · split
    · refine ⟨fun text same => ?_, fun _ => trivial⟩
      cases same
      split
      · simp
      · assumption
    · trivial

private theorem runCommand_outcome (name : Str) (argv : List Str) (capture : Bool) :
    Ends recorded (runCommand name argv capture) fun code texts => code = 0 ↔ texts = [] := by
  refine ends_bind_of_hidden (p := sys (.spawn argv capture)) ⟨rfl, fun _ => trivial⟩ fun r => ?_
  split
  · exact ends_fail (iff_of_false (by decide) (List.cons_ne_nil _ _))
  · split
    · rename_i nonzero
      exact ends_fail (iff_of_false nonzero (List.cons_ne_nil _ _))
    · rename_i zero
      exact iff_of_true (not_not.mp zero) rfl

private theorem exitsZero_truthful (argv : List Str) (capture : Bool) :
    Truthful (exitsZero (runCommand name argv capture)) where
  explained := Prog.only_bind (runCommand_explained argv capture) fun _ => trivial
  outcome := by
    refine ends_bind.mpr ((runCommand_outcome name argv capture).mono fun code texts reported => ?_)
    simp [reported]

private theorem start_truthful (argv : List Str) (capture : Bool) {text : Str}
    (filled : text ≠ []) {rest : Code Bool} (hrest : Truthful rest) :
    Truthful (do
      if (← runCommand name argv capture) ≠ 0 then
        sys (.setLastError text)
        pure false
      else rest) where
  explained := by
    refine Prog.only_bind (runCommand_explained argv capture) fun code => ?_
    split
    · exact (Truthful.fail filled).explained
    · exact hrest.explained
  outcome := by
    refine ends_bind.mpr ((runCommand_outcome name argv capture).mono fun code texts reported => ?_)
    split
    · exact ends_fail (by simp)
    · rename_i zero
      obtain rfl : texts = [] := reported.mp (not_not.mp zero)
      exact hrest.outcome

private theorem pollRunning_silent {isRunning : Code Bool}
    (probes : isRunning.Only (Hidden recorded))
    (up : Bool) (n : Nat) : (pollRunning isRunning up n).Only (Hidden recorded) :=
  pollRunning_only probes (fun _ => rfl) up n

private theorem writeListenSnippetWith_truthful (listenFile : Str) (httpsEnabled : Bool)
    (snippet : Port → Port → Str) :
    Truthful (writeListenSnippetWith listenFile httpsEnabled snippet) := by
  refine Truthful.after (p := sys .httpPort) ⟨rfl, fun _ => trivial⟩ fun http => ?_
  cases httpsEnabled with
  | true =>
    exact Truthful.after (p := sys .httpsPort) ⟨rfl, fun _ => trivial⟩ fun https =>
      writeFileAtomic_truthful _ _
  | false => exact writeFileAtomic_truthful _ _

section Combined

variable {isRunning ensureDirs writeListenSnippet testConfig start off on apply : Code Bool}
  (probes : isRunning.Only (Hidden recorded))

include probes

private theorem onWith_truthful (mkdirs : Truthful ensureDirs)
    (writes : Truthful writeListenSnippet)
    (tests : Truthful testConfig) (starts : Truthful start) :
    Truthful (do
      if ← isRunning then pure true
      else if !(← ensureDirs) then pure false
      else if !(← writeListenSnippet) then pure false
      else if !(← testConfig) then pure false
      else start) := by
  refine .after probes fun up => ?_
  cases up with
  | true => exact .done
  | false => exact mkdirs.and (writes.and (tests.and starts))

private theorem resetWith_truthful (stops : Truthful off) (starts : Truthful on) :
    Truthful (resetWith name isRunning off on) := by
  refine .after probes fun up => ?_
  cases up with
  | false => exact starts
  | true =>
    refine stops.test ?_ trivial rfl
    refine .after (pollRunning_silent probes false 50) fun _ => ?_
    refine .after probes fun still => ?_
    cases still with
    | true => exact .fail (append_ne_nil (by decide))
    | false => exact starts

private theorem reloadWith_truthful (tests : Truthful testConfig) (applies : Truthful apply) :
    Truthful (reloadWith name isRunning testConfig apply) := by
  refine .after probes fun up => ?_
  cases up with
  | false => exact .fail (append_ne_nil (by decide))
  | true => exact tests.and applies

private theorem setListenPortsWith_truthful {reload : Code Bool}
    (writes : Truthful writeListenSnippet)
    (reloads : Truthful reload) (http https : Port) :
    Truthful (setListenPortsWith writeListenSnippet isRunning reload http https) := by
  refine .after (p := sys .httpPort) ⟨rfl, fun _ => trivial⟩ fun prevHttp => ?_
  refine .after (p := sys .httpsPort) ⟨rfl, fun _ => trivial⟩ fun prevHttps => ?_
  refine .after (p := sys (.setHttpPort http)) ⟨rfl, fun _ => trivial⟩ fun _ => ?_
  refine .after (p := sys (.setHttpsPort https)) ⟨rfl, fun _ => trivial⟩ fun _ => ?_
  have sets : ∀ o, Hidden recorded o → explains o := fun _ => explains_of_hidden
  refine writes.test (.after probes fun up => ?_) ?_ fun _ _ => rfl
  · cases up with
    | false => exact .done
    | true =>
      -- the snippet that is written back may record another error
      have explained : (writeListenSnippet >>= fun _ => .ret false).Only explains :=
        Prog.only_bind writes.explained fun _ => trivial
      have outcome : Ends recorded (writeListenSnippet >>= fun _ => .ret false)
          fun ok _ => ok = false :=
        ends_bind.mpr ((ends_true writeListenSnippet).mono fun _ _ _ => rfl)
      refine reloads.test .done ?_ fun _ _ => outcome
      exact ⟨sets _ rfl, fun _ => ⟨sets _ rfl, fun _ => explained⟩⟩
  · exact ⟨sets _ rfl, fun _ => ⟨sets _ rfl, fun _ => trivial⟩⟩

end Combined

private theorem setListenPortWith_truthful {setListenPorts : Port → Port → Code Bool}
    (sets : ∀ http https, Truthful (setListenPorts http https)) (http : Port) :
    Truthful (setListenPortWith setListenPorts http) :=
  .after (p := sys .httpsPort) ⟨rfl, fun _ => trivial⟩ fun https => sets http https

end Parts

section Members

variable {d : Daemon} {s : State}

@[simp] theorem arrive_lastError (env : Env) : (arrive d env s).lastError = s.lastError := by
  refine arrive_keeps (J := fun s' => s'.lastError = s.lastError) (fun move _ s' h => ?_) rfl
  cases move with
  | crash => exact h
  | _ =>
    simp only [Move.apply]
    split <;> exact h

private theorem effect_lastError (child : Child) (argv : List Str) (pid : Int) :
    (child.effect d argv pid s).lastError = s.lastError := by
  cases child with
  | exited code output =>
    simp only [Child.effect]
    split
    · cases d.command argv with
      | none => rfl
      | some command =>
        cases command with
        | test => rfl
        | _ =>
          simp only [Command.effect]
          split <;> rfl
    · rfl
  | _ => rfl

private theorem signalled_lastError (pid sig : Int) :
    (s.signalled pid sig).lastError = s.lastError := by
  unfold State.signalled
  split <;> rfl

theorem lastError_step (env : Env) (s : State) (o : Op) :
    (hostStep d env s o).2.lastError = (recorded o).getD s.lastError := by
  have kept : (arrive d env s).lastError = s.lastError := arrive_lastError env
  cases o with
  | setLastError text => rfl
  | spawn argv capture => exact (effect_lastError env.child argv env.pid).trans kept
  | kill pid sig =>
    simp only [hostStep]
    split
    · exact kept
    · exact kept
    · exact (signalled_lastError pid sig).trans kept
  | _ =>
    simp only [hostStep]
    repeat' split
    all_goals exact kept

theorem lastError_run {α : Type} (p : Code α) (s : State) (env : Nat → Env) :
    (run (host d) p s env).state.lastError =
      (shows recorded (run (host d) p s env).log).getLast?.getD s.lastError := by
  induction p generalizing s env with
  | ret a => rfl
  | raise e => exact e.elim
  | op o k ih =>
    have first : ((host d).step (env 0) s o).2.lastError = (recorded o).getD s.lastError :=
      lastError_step (env 0) s o
    rw [run_op, ih, shows_cons, first]
    cases recorded o with
    | none => rfl
    | some text =>
      rw [List.getLast?_append]
      cases (shows recorded _).getLast? with
      | none => rfl
      | some last => rfl

end Members

/-- The calls that do more than to look. -/
def Call.Acts : Call → Prop
  | .isRunning => False
  | .pause => False
  | _ => True

section Nginx

variable (opts : Nginx.Options)

theorem nginx_on : Truthful (Nginx.on opts) := by
  have made : ∀ paths ok, (Nginx.ensureAll ok paths).Only (Hidden recorded) := by
    intro paths
    induction paths with
    | nil => exact fun _ => trivial
    | cons path paths ih =>
      exact fun ok => Prog.only_bind (ensureDir_silent path) fun made => ih _
  have mkdirs : Truthful (Nginx.ensureDirs opts) := by
    refine .after (made _ _) fun ok => ?_
    cases ok with
    | true => exact .done
    | false => exact .fail (append_ne_nil_left (by decide))
  exact onWith_truthful (isRunning_silent _ _) mkdirs (writeListenSnippetWith_truthful _ _ _)
    (exitsZero_truthful _ _) (start_truthful _ _ (by decide) .done)

theorem nginx_off : Truthful (Nginx.off opts) := by
  refine .after (isRunning_silent _ _) fun up => ?_
  cases up with
  | false => exact .done
  | true => exact exitsZero_truthful _ _

theorem nginx_reload : Truthful (Nginx.reload opts) :=
  reloadWith_truthful (isRunning_silent _ _) (exitsZero_truthful _ _) (exitsZero_truthful _ _)

theorem nginx_setListenPorts (http https : Port) :
    Truthful (Nginx.setListenPorts opts http https) :=
  setListenPortsWith_truthful (isRunning_silent _ _) (writeListenSnippetWith_truthful _ _ _)
    (nginx_reload opts) http https

theorem nginx_truthful (call : Call) (acts : Call.Acts call) :
    Truthful (call.code (Nginx.controller opts)) := by
  cases call with
  | on => exact nginx_on opts
  | off => exact nginx_off opts
  | reset => exact resetWith_truthful (isRunning_silent _ _) (nginx_off opts) (nginx_on opts)
  | reload => exact nginx_reload opts
  | setListenPort http => exact setListenPortWith_truthful (nginx_setListenPorts opts) http
  | setListenPorts http https => exact nginx_setListenPorts opts http https
  | isRunning => exact acts.elim
  | testConfig => exact exitsZero_truthful _ _
  | pause => exact acts.elim

end Nginx

section Lighttpd

variable (opts : Lighttpd.Options)

theorem lighttpd_on : Truthful (Lighttpd.on opts) := by
  have mkdirs : Truthful (Lighttpd.ensureDirs opts) := by
    refine .after (ensureDir_silent _) fun ok => ?_
    cases ok with
    | true => exact .done
    | false => exact .fail (append_ne_nil_left (by decide))
  have waits : Truthful (do
      pollRunning (Lighttpd.isRunning opts) true 30
      if !(← Lighttpd.isRunning opts) then
        sys (.setLastError "lighttpd did not come up (port in use? see stderr)".toList)
        pure false
      else pure true) := by
    refine .after (pollRunning_silent (isRunning_silent _ _) true 30) fun _ => ?_
    refine .after (isRunning_silent _ _) fun up => ?_
    cases up with
    | false => exact .fail (by decide)
    | true => exact .done
  exact onWith_truthful (isRunning_silent _ _) mkdirs (writeListenSnippetWith_truthful _ _ _)
    (exitsZero_truthful _ _) (start_truthful _ _ (by decide) waits)

theorem lighttpd_off : Truthful (Lighttpd.off opts) := by
  refine .after (isRunning_silent _ _) fun up => ?_
  cases up with
  | false => exact .done
  | true =>
    refine .after (readPid_silent _) fun pid => ?_
    split
    · exact .done
    · exact signalPid_truthful _ _

theorem lighttpd_reset : Truthful (Lighttpd.reset opts) :=
  resetWith_truthful (isRunning_silent _ _) (lighttpd_off opts) (lighttpd_on opts)

theorem lighttpd_reload : Truthful (Lighttpd.reload opts) :=
  reloadWith_truthful (isRunning_silent _ _) (exitsZero_truthful _ _) (lighttpd_reset opts)

theorem lighttpd_setListenPorts (http https : Port) :
    Truthful (Lighttpd.setListenPorts opts http https) :=
  setListenPortsWith_truthful (isRunning_silent _ _) (writeListenSnippetWith_truthful _ _ _)
    (lighttpd_reload opts) http https

theorem lighttpd_truthful (call : Call) (acts : Call.Acts call) :
    Truthful (call.code (Lighttpd.controller opts)) := by
  cases call with
  | on => exact lighttpd_on opts
  | off => exact lighttpd_off opts
  | reset => exact lighttpd_reset opts
  | reload => exact lighttpd_reload opts
  | setListenPort http => exact setListenPortWith_truthful (lighttpd_setListenPorts opts) http
  | setListenPorts http https => exact lighttpd_setListenPorts opts http https
  | isRunning => exact acts.elim
  | testConfig => exact exitsZero_truthful _ _
  | pause => exact acts.elim

end Lighttpd

end Webengine.Control.Reports
