/- source: backend/include/webengine/WebServerController.hpp, backend/src/NginxController.cpp,
   backend/src/LighttpdController.cpp
   digest: What the two controllers have in common, as programs over what differs. -/

import Webengine.Control.ProcessUtil

set_option autoImplicit false
set_option relaxedAutoImplicit false

namespace Webengine.Control.Controllers

open Webengine.Engine.Roles (Str)
open Webengine.Control.Host
open Webengine.Control.ProcessUtil
open Webengine.Library.Decimals (decimal integer)
open Webengine.Library.Machines
open Webengine.Library.Programs (Prog)

/-- `std::to_string` of a port. -/
def portText (port : Port) : Str := decimal port.toNat

/-- The interface. -/
structure WebServerController where
  on : Code Bool
  off : Code Bool
  reset : Code Bool
  reload : Code Bool
  setListenPort : Port → Code Bool
  setListenPorts : Port → Port → Code Bool
  isRunning : Code Bool
  testConfig : Code Bool

/-- Spawn the binary `name` and keep its diagnostics. -/
def runCommand (name : Str) (argv : List Str) (capture : Bool) : Code Int := do
  let r ← sys (.spawn argv capture)
  if r.code < 0 then
    sys (.setLastError (if r.err = [] then name ++ " terminated abnormally".toList else r.err))
    pure (-1)
  else if r.code ≠ 0 then
    sys (.setLastError (if r.output = [] then
      name ++ " exited with code ".toList ++ integer r.code else r.output))
    pure r.code
  else pure r.code

/-- `run(...) == 0`. -/
def exitsZero (code : Code Int) : Code Bool := do
  pure ((← code) = 0)

/-- Validate the configuration of a running server, then apply it. -/
def reloadWith (name : Str) (isRunning testConfig apply : Code Bool) : Code Bool := do
  if !(← isRunning) then
    sys (.setLastError (name ++ " is not running".toList))
    pure false
  else if !(← testConfig) then pure false
  else apply

/-- Write the snippet of the current ports; the HTTPS port is read only if it is enabled. -/
def writeListenSnippetWith (listenFile : Str) (httpsEnabled : Bool)
    (snippet : Port → Port → Str) : Code Bool := do
  let http ← sys .httpPort
  if httpsEnabled then writeFileAtomic listenFile (snippet http (← sys .httpsPort))
  else writeFileAtomic listenFile (snippet http 0)

/-- At most `n` probes, each after the last one failed, 100 ms apart, until the answer is
`up`. -/
def pollRunning (isRunning : Code Bool) (up : Bool) : Nat → Code Unit
  | 0 => pure ()
  | n + 1 => do
    if (← isRunning) = up then pure ()
    else
      sys (.usleep (100 * 1000))
      pollRunning isRunning up n

/-- Stop, wait up to 5 s for the master to exit, start. -/
def resetWith (name : Str) (isRunning off on : Code Bool) : Code Bool := do
  if ← isRunning then
    if ← off then
      pollRunning isRunning false 50
      if ← isRunning then
        sys (.setLastError (name ++ " did not stop within timeout".toList))
        pure false
      else on
    else pure false
  else on

/-- Rewrite the snippet and apply it to a running server; on failure take it back. -/
def setListenPortsWith (writeListenSnippet isRunning reload : Code Bool)
    (httpPort httpsPort : Port) : Code Bool := do
  let prevHttp ← sys .httpPort
  let prevHttps ← sys .httpsPort
  sys (.setHttpPort httpPort)
  sys (.setHttpsPort httpsPort)
  if ← writeListenSnippet then
    if ← isRunning then
      if ← reload then pure true
      else
        sys (.setHttpPort prevHttp)
        sys (.setHttpsPort prevHttps)
        let _ ← writeListenSnippet
        pure false
    else pure true
  else
    sys (.setHttpPort prevHttp)
    sys (.setHttpsPort prevHttps)
    pure false

/-- The HTTPS port stays. -/
def setListenPortWith (setListenPorts : Port → Port → Code Bool) (httpPort : Port) :
    Code Bool := do
  setListenPorts httpPort (← sys .httpsPort)

section Only

variable {S : Op → Prop}

theorem runCommand_only {argv : List Str} {capture : Bool} (spawns : S (.spawn argv capture))
    (reports : ∀ text, S (.setLastError text)) (name : Str) :
    (runCommand name argv capture).Only S := by
  refine ⟨spawns, fun r => ?_⟩
  simp only [Prog.bind]
  split
  · exact ⟨reports _, fun _ => trivial⟩
  · split
    · exact ⟨reports _, fun _ => trivial⟩
    · trivial

theorem runCommand_quiet {d : Daemon} {argv : List Str} {command : Command}
    (told : d.command argv = some command) (harmless : command = .test ∨ command = .start)
    (name : Str) (capture : Bool) : (runCommand name argv capture).Only (quiet d) := by
  refine runCommand_only ?_ (fun _ => trivial) name
  have spares : ∀ other, other ≠ command → d.command argv ≠ some other := by
    rintro other ne same
    rw [told] at same
    cases same
    exact ne rfl
  rcases harmless with rfl | rfl
  · exact ⟨spares .quit Command.noConfusion, spares .reload Command.noConfusion⟩
  · exact ⟨spares .quit Command.noConfusion, spares .reload Command.noConfusion⟩

theorem writeListenSnippetWith_only (reads : S .httpPort ∧ S .httpsPort)
    (files : ∀ o, replaces o → S o) (listenFile : Str) (httpsEnabled : Bool)
    (snippet : Port → Port → Str) :
    (writeListenSnippetWith listenFile httpsEnabled snippet).Only S := by
  have writes : ∀ text, (writeFileAtomic listenFile text).Only S := fun text =>
    (writeFileAtomic_only _ _).mono files
  refine ⟨reads.1, fun http => ?_⟩
  cases httpsEnabled with
  | true => exact ⟨reads.2, fun https => writes _⟩
  | false => exact writes _

theorem writeListenSnippetWith_quiet {d : Daemon} (listenFile : Str) (httpsEnabled : Bool)
    (snippet : Port → Port → Str) :
    (writeListenSnippetWith listenFile httpsEnabled snippet).Only (quiet d) :=
  writeListenSnippetWith_only ⟨trivial, trivial⟩ (fun _ => quiet_of_replaces) _ _ _

theorem pollRunning_only {isRunning : Code Bool} (probes : isRunning.Only S)
    (sleeps : ∀ us, S (.usleep us)) (up : Bool) (n : Nat) :
    (pollRunning isRunning up n).Only S := by
  induction n with
  | zero => trivial
  | succ n ih =>
    refine Prog.only_bind probes fun running => ?_
    split
    · trivial
    · exact ⟨sleeps _, fun _ => ih⟩

theorem onWith_only {isRunning ensureDirs writeListenSnippet testConfig start : Code Bool}
    (probes : isRunning.Only S) (mkdirs : ensureDirs.Only S) (writes : writeListenSnippet.Only S)
    (tests : testConfig.Only S) (starts : start.Only S) :
    Prog.Only S (do
      if ← isRunning then pure true
      else if !(← ensureDirs) then pure false
      else if !(← writeListenSnippet) then pure false
      else if !(← testConfig) then pure false
      else start) := by
  refine Prog.only_bind probes fun up => ?_
  split
  · trivial
  refine Prog.only_bind mkdirs fun made => ?_
  split
  · trivial
  refine Prog.only_bind writes fun written => ?_
  split
  · trivial
  refine Prog.only_bind tests fun passed => ?_
  split
  · trivial
  · exact starts

theorem resetWith_only {isRunning off on : Code Bool} (probes : isRunning.Only S)
    (stops : off.Only S) (starts : on.Only S) (sleeps : ∀ us, S (.usleep us))
    (reports : ∀ text, S (.setLastError text)) (name : Str) :
    (resetWith name isRunning off on).Only S := by
  refine Prog.only_bind probes fun running => ?_
  cases running with
  | false => exact starts
  | true =>
    refine Prog.only_bind stops fun stopped => ?_
    cases stopped with
    | false => trivial
    | true =>
      refine Prog.only_bind (pollRunning_only probes sleeps false 50) fun _ => ?_
      refine Prog.only_bind probes fun running => ?_
      cases running with
      | true => exact ⟨reports _, fun _ => trivial⟩
      | false => exact starts

end Only

section Specs

variable {d : Daemon} {E : Env → Prop}

private theorem wp_server {α : Type} {p : Code α} (only : p.Only (quiet d)) {s : State} {pid : Int}
    {text : Str} (h : s.server = .running pid text false) :
    wp (host d) Obedient p (fun _ s' _ => s'.server = .running pid text false) s := by
  refine wp_keeps (m := host d) (J := fun s' : State => s'.server = .running pid text false)
    ?_ only h
  intro env s' o obedient ho h'
  rcases server_of_patient obedient (patient_of_quiet ho) h' with kept | hit
  · exact kept
  · obtain ⟨rfl, -⟩ := hit
    exact absurd rfl ho

/-- The command was run and exited with 0. -/
def Succeeded (argv : List Str) (e : Event (host d)) : Prop :=
  (∃ capture, e.op = .spawn argv capture) ∧ ∃ output, e.env.child = .exited 0 output

theorem runCommand_spec (name : Str) (argv : List Str) (capture : Bool) {s : State} {pid : Int}
    {text : Str} (h : s.server = .running pid text false) :
    wp (host d) Obedient (runCommand name argv capture) (fun r s' l =>
      (r = .ok 0 ∧ ∃ e ∈ l, Succeeded argv e) ∨
        ∃ code, code ≠ 0 ∧ r = .ok code ∧ s'.server = .running pid text false) s := by
  intro env obedient
  have goesOn : (arrive d env s).server = .running pid text false := server_arrive obedient h
  simp only [hostStep]
  cases hc : env.child with
  | exited code output =>
    by_cases zero : code = 0
    · subst zero
      exact Or.inl ⟨rfl, _, List.mem_singleton_self _, ⟨capture, rfl⟩, output, hc⟩
    · have hcode : (code.toNat : Int) ≠ 0 := by
        intro h0
        exact zero (UInt8.toNat_inj.mp (by simpa using h0))
      have nonneg : ¬ (code.toNat : Int) < 0 := by omega
      have alone : (Child.effect d argv env.pid (arrive d env s) (.exited code output)).server =
          .running pid text false := by
        simp only [Child.effect, if_neg zero]
        exact goesOn
      simp only [Child.spawned, Prog.bind, if_neg nonneg, ne_eq, hcode, not_false_eq_true, if_true]
      intro env' obedient'
      exact Or.inr ⟨_, hcode, rfl, server_arrive obedient' alone⟩
  | notSpawned err =>
    intro env' obedient'
    exact Or.inr ⟨-1, by decide, rfl, server_arrive obedient' goesOn⟩
  | killed output =>
    intro env' obedient'
    exact Or.inr ⟨-1, by decide, rfl, server_arrive obedient' goesOn⟩

/-- A config test leaves the server alone, and passes only if its command succeeded. -/
theorem testConfig_spec {name : Str} {argv : List Str} {capture : Bool}
    (test : d.command argv = some .test) {s : State} {pid : Int} {text : Str}
    (h : s.server = .running pid text false) :
    wp (host d) Obedient (exitsZero (runCommand name argv capture)) (fun r s' l =>
      s'.server = .running pid text false ∧ (r = .ok true → ∃ e ∈ l, Succeeded argv e)) s := by
  have alone : (runCommand name argv capture).Only (quiet d) :=
    runCommand_quiet test (Or.inl rfl) name capture
  unfold exitsZero
  rw [wp_bind]
  refine wp_mono (wp_and (wp_server alone h) (runCommand_spec name argv capture h)) ?_
  rintro r s' l ⟨kept, ⟨rfl, e, he, success⟩ | ⟨code, nonzero, rfl, -⟩⟩
  · exact ⟨kept, fun _ => ⟨e, by simpa using he, success⟩⟩
  · refine ⟨kept, fun passed => ?_⟩
    injection passed with passed
    exact absurd (of_decide_eq_true passed) nonzero

/-- A reload that fails leaves a running server as it is, except for what applying a
configuration that passed its test did. -/
theorem reloadWith_spec {name : Str} {isRunning testConfig apply : Code Bool} {argv : List Str}
    {pid : Int} {text : Str} {K T : List (Event (host d)) → Prop}
    (isRunning_quiet : isRunning.Only (quiet d))
    (tests : ∀ s : State, s.server = .running pid text false →
      wp (host d) Obedient testConfig (fun r s' l =>
        s'.server = .running pid text false ∧ (r = .ok true → ∃ e ∈ l, Succeeded argv e)) s)
    (applies : ∀ s : State, s.server = .running pid text false →
      wp (host d) Obedient apply
        (fun r s' l => r = .ok false → s'.server = .running pid text false ∨ T l) s)
    (after : ∀ l₀ l₁ l, (∃ e ∈ l₁, Succeeded argv e) → T l → K (l₀ ++ (l₁ ++ l)))
    {s : State} (h : s.server = .running pid text false) :
    wp (host d) Obedient (reloadWith name isRunning testConfig apply)
      (fun r s' l => r = .ok false → s'.server = .running pid text false ∨ K l) s := by
  unfold reloadWith
  rw [wp_bind]
  refine wp_mono (wp_server isRunning_quiet h) fun r s₁ l₁ h₁ => ?_
  cases r with
  | error e => exact e.elim
  | ok up =>
    cases up with
    | false =>
      intro env obedient _
      exact Or.inl (server_arrive obedient h₁)
    | true =>
      simp only [Post.seq_ok, Bool.not_true, Bool.false_eq_true, if_false]
      rw [wp_bind]
      refine wp_mono (tests s₁ h₁) ?_
      rintro r s₂ l₂ ⟨h₂, passes⟩
      cases r with
      | error e => exact e.elim
      | ok passed =>
        cases passed with
        | false => exact fun _ => Or.inl h₂
        | true =>
          simp only [Post.seq_ok, Bool.not_true, Bool.false_eq_true, if_false]
          refine wp_mono (applies s₂ h₂) fun r s₃ l₃ outcome failed => ?_
          exact (outcome failed).imp_right (after l₁ l₂ l₃ (passes rfl))

theorem writeListenSnippetWith_spec {listenFile : Str} {httpsEnabled : Bool}
    {snippet : Port → Port → Str}
    (disabled : httpsEnabled = false → ∀ http https https',
      snippet http https = snippet http https') (s : State) :
    wp (host d) E (writeListenSnippetWith listenFile httpsEnabled snippet)
      (Replaced listenFile (snippet s.http s.https) s) s := by
  have writes : ∀ s' l₀, SameBut (tmpName listenFile) s s' →
      wp (host d) E (writeFileAtomic listenFile (snippet s.http s.https)) (fun r s'' l =>
        Replaced listenFile (snippet s.http s.https) s r s'' (l₀ ++ l)) s' := by
    intro s' l₀ same
    refine wp_mono (writeFileAtomic_spec _ _ s') fun r s'' l done => ?_
    exact (done.of_sameBut same).append_left l₀
  intro env he
  have same : SameBut (tmpName listenFile) s (arrive d env s) :=
    ⟨by simp, by simp, fun c _ => by simp⟩
  simp only [hostStep, arrive_http]
  cases httpsEnabled with
  | true =>
    intro env' he'
    have same' : SameBut (tmpName listenFile) s (arrive d env' (arrive d env s)) :=
      ⟨by simp, by simp, fun c _ => by simp⟩
    simp only [hostStep, arrive_https]
    exact writes _ [_, _] same'
  | false =>
    have written := writes _ [⟨0, s, env, .httpPort⟩] same
    rw [disabled rfl s.http s.https 0] at written
    rw [disabled rfl s.http s.https 0]
    exact written

/-- If the server does not crash, one that runs, and has no reload to do, still does. -/
def RunsOn (E : Env → Prop) (s s' : State) : Prop :=
  (∀ env, E env → Obedient env) → ∀ pid text,
    s.server = .running pid text false → s'.server = .running pid text false

private theorem wp_readPorts {α : Type} {f : Port → Port → Code α} {Q : Post (host d) Empty α}
    {s : State}
    (rest : ∀ s' e₁ e₂, s'.http = s.http → s'.https = s.https → s'.fs = s.fs → RunsOn E s s' →
      wp (host d) E (f s.http s.https) (fun r s'' l => Q r s'' (e₁ :: e₂ :: l)) s') :
    wp (host d) E (do f (← sys .httpPort) (← sys .httpsPort)) Q s := by
  intro env he env' he'
  have runsOn : RunsOn E s (arrive d env' (arrive d env s)) := by
    intro obedient pid text h
    exact server_arrive (obedient env' he') (server_arrive (obedient env he) h)
  have next := rest (arrive d env' (arrive d env s)) ⟨0, s, env, .httpPort⟩
    ⟨0, arrive d env s, env', .httpsPort⟩ (by simp) (by simp) (by simp) runsOn
  simp only [hostStep, arrive_http, arrive_https]
  exact next

private theorem wp_setPorts {α : Type} {p : Code α} {Q : Post (host d) Empty α} {s : State}
    (http https : Port)
    (rest : ∀ s' e₁ e₂, s'.http = http → s'.https = https → s'.fs = s.fs → RunsOn E s s' →
      e₁.op = .setHttpPort http →
      wp (host d) E p (fun r s'' l => Q r s'' (e₁ :: e₂ :: l)) s') :
    wp (host d) E (do sys (.setHttpPort http); sys (.setHttpsPort https); p) Q s := by
  intro env he env' he'
  refine rest _ ⟨0, s, env, .setHttpPort http⟩ ⟨0, _, env', .setHttpsPort https⟩
    (by simp [hostStep]) (by simp [hostStep]) (by simp [hostStep]) ?_ rfl
  intro obedient pid text h
  have first : (hostStep d env s (.setHttpPort http)).2.server = .running pid text false :=
    server_arrive (obedient env he) h
  exact server_arrive (obedient env' he') first

/-- After the HTTP port was set to `new` and then back to `old`, a step of a file replacement
failed. -/
def RollbackFailed (new old : Port) (l : List (Event (host d))) : Prop :=
  ∃ before a between b after, l = before ++ a :: (between ++ b :: after) ∧
    a.op = .setHttpPort new ∧ b.op = .setHttpPort old ∧ ∃ e ∈ after, FileFailed e

/-- What a failed change leaves: the ports, the listen file unless taking it back failed, and
the server except for what a failed reload did. -/
structure TakenBack (listenFile snippet : Str) (pid : Int) (K : List (Event (host d)) → Prop)
    (httpPort : Port) (s s' : State) (l : List (Event (host d))) : Prop where
  http : s'.http = s.http
  https : s'.https = s.https
  file : s'.fs.read listenFile = some snippet ∨ RollbackFailed httpPort s.http l
  server : s'.server = .running pid snippet false ∨ K l

/-- A change of the ports of a running server that fails is taken back. -/
theorem setListenPortsWith_spec {write isRunning reload : Code Bool} {listenFile : Str}
    {snippet : Port → Port → Str} {pid : Int} {K : List (Event (host d)) → Prop} {s : State}
    (mono : ∀ l₀ l l₁, K l → K (l₀ ++ (l ++ l₁)))
    (writes : ∀ s, wp (host d) Obedient write (Replaced listenFile (snippet s.http s.https) s) s)
    (write_quiet : write.Only (quiet d)) (isRunning_quiet : isRunning.Only (quiet d))
    (reloads : ∀ s₀ : State, s₀.server = .running pid (snippet s.http s.https) false →
      wp (host d) Obedient reload (fun r s' l => r = .ok false →
        s'.server = .running pid (snippet s.http s.https) false ∨ K l) s₀)
    (shows : s.fs.read listenFile = some (snippet s.http s.https))
    (runs : s.server = .running pid (snippet s.http s.https) false) (httpPort httpsPort : Port) :
    wp (host d) Obedient (setListenPortsWith write isRunning reload httpPort httpsPort)
      (fun r s' l => r = .ok false →
        TakenBack listenFile (snippet s.http s.https) pid K httpPort s s' l) s := by
  refine wp_readPorts fun s₁ r₁ r₂ _ _ fs₁ runs₁ => ?_
  refine wp_setPorts httpPort httpsPort fun s₂ a a' _ _ fs₂ runs₂ ha => ?_
  have h₂ := runs₂ (fun _ obedient => obedient) _ _ (runs₁ (fun _ obedient => obedient) _ _ runs)
  rw [wp_bind]
  refine wp_mono (wp_and (writes s₂) (wp_server write_quiet h₂)) ?_
  rintro r s₃ l₃ ⟨⟨-, -, ⟨rfl, -⟩ | ⟨rfl, unchanged, -⟩⟩, h₃⟩
  · -- the new snippet is there
    change wp (host d) Obedient (isRunning >>= _) _ _
    rw [wp_bind]
    refine wp_mono (wp_server isRunning_quiet h₃) fun r s₄ l₄ h₄ => ?_
    cases r with
    | error e => exact e.elim
    | ok up =>
      cases up with
      | false => exact fun h => nomatch h
      | true =>
        change wp (host d) Obedient (reload >>= _) _ _
        rw [wp_bind]
        refine wp_mono (reloads s₄ h₄) fun r s₅ l₅ outcome => ?_
        cases r with
        | error e => exact e.elim
        | ok done =>
          cases done with
          | true => exact fun h => nomatch h
          | false =>
            simp only [Post.seq_ok, Bool.false_eq_true, if_false]
            refine wp_setPorts s.http s.https fun s₆ b b' http₆ https₆ _ runs₆ hb => ?_
            rw [wp_bind]
            have server : wp (host d) Obedient write (fun _ s' _ =>
                s'.server = .running pid (snippet s.http s.https) false ∨ K l₅) s₆ := by
              rcases outcome rfl with h₅ | told
              · have h₆ := runs₆ (fun _ obedient => obedient) _ _ h₅
                exact wp_mono (wp_server write_quiet h₆) fun _ _ _ h => Or.inl h
              · exact wp_mono (wp_true _ _) fun _ _ _ _ => Or.inr told
            refine wp_mono (wp_and (writes s₆) server) ?_
            rintro r s₇ l₇ ⟨written, h₇⟩
            have told : K l₅ →
                K (r₁ :: r₂ :: a :: a' :: (l₃ ++ (l₄ ++ (l₅ ++ (b :: b' :: l₇))))) := by
              intro told
              have whole := mono (r₁ :: r₂ :: a :: a' :: (l₃ ++ l₄)) l₅ (b :: b' :: l₇) told
              simpa using whole
            obtain ⟨http₇, https₇, ⟨rfl, back⟩ | ⟨rfl, -, e, he, failed⟩⟩ := written
            · intro _
              rw [http₆, https₆] at back
              exact ⟨http₇.trans http₆, https₇.trans https₆, Or.inl back,
                h₇.imp_right (by simpa using told)⟩
            · intro _
              refine ⟨http₇.trans http₆, https₇.trans https₆, Or.inr ?_,
                h₇.imp_right (by simpa using told)⟩
              refine ⟨[r₁, r₂], a, a' :: (l₃ ++ (l₄ ++ l₅)), b, b' :: l₇, by simp, ha, hb, e, ?_,
                failed⟩
              exact List.mem_cons_of_mem _ he
  · -- nothing was written
    simp only [Post.seq_ok, Bool.false_eq_true, if_false]
    refine wp_setPorts s.http s.https fun s₄ _ _ http₄ https₄ fs₄ runs₄ _ => ?_
    intro _
    refine ⟨http₄, https₄, Or.inl ?_, Or.inl (runs₄ (fun _ obedient => obedient) _ _ h₃)⟩
    rw [fs₄, unchanged, fs₂, fs₁, shows]

theorem setListenPortWith_spec {setListenPorts : Port → Port → Code Bool} {listenFile : Str}
    {snippet : Port → Port → Str} {pid : Int} {K : List (Event (host d)) → Prop} {httpPort : Port}
    (mono : ∀ l₀ l l₁, K l → K (l₀ ++ (l ++ l₁)))
    (changes : ∀ (httpsPort : Port) (s : State),
      s.fs.read listenFile = some (snippet s.http s.https) →
      s.server = .running pid (snippet s.http s.https) false →
      wp (host d) Obedient (setListenPorts httpPort httpsPort) (fun r s' l => r = .ok false →
        TakenBack listenFile (snippet s.http s.https) pid K httpPort s s' l) s) {s : State}
    (shows : s.fs.read listenFile = some (snippet s.http s.https))
    (runs : s.server = .running pid (snippet s.http s.https) false) :
    wp (host d) Obedient (setListenPortWith setListenPorts httpPort) (fun r s' l =>
      r = .ok false → TakenBack listenFile (snippet s.http s.https) pid K httpPort s s' l) s := by
  intro env obedient
  have changed := changes s.https (arrive d env s) (by simpa using shows)
    (by simpa using server_arrive obedient runs)
  simp only [hostStep, arrive_https, arrive_http] at changed ⊢
  refine wp_mono changed fun r s' l outcome failed => ?_
  obtain ⟨http, https, file, server⟩ := outcome failed
  refine ⟨by simpa using http, by simpa using https, ?_, ?_⟩
  · rcases file with back | ⟨before, a, between, b, after, rfl, ha, hb, he⟩
    · exact Or.inl back
    · exact Or.inr ⟨_ :: before, a, between, b, after, rfl, ha, by simpa using hb, he⟩
  · rcases server with kept | told
    · exact Or.inl kept
    · have whole := mono [⟨0, s, env, .httpsPort⟩] l [] told
      exact Or.inr (by simpa using whole)

end Specs

end Webengine.Control.Controllers
