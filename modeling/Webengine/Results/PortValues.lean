/- source: backend/example/main.cpp (env_int, main, /api/admin/server/port)
   digest: The ports the application hands to its controller are those it was asked for, exactly
   if these are ports. -/

import Webengine.Control.Application

set_option autoImplicit false
set_option relaxedAutoImplicit false

namespace Webengine.Results.PortValues

open Webengine.Control
open Webengine.Control.Application
open Webengine.Control.Host (Port)
open Webengine.Engine.Messages (Response)
open Webengine.Engine.Payloads (Glaze)
open Webengine.Engine.Roles (Str)
open Webengine.Engine.TestProvider (stoi stoi_eq_some_iff)
open Webengine.Library.Decimals (StartsWith)
open Webengine.Library.Machines
open Webengine.Library.Programs (Prog)

/-- The ports a call hands to the controller. -/
def ports : ServerOp → Option (List Port)
  | .setListenPorts http https => some [http, https]
  | .setListenPort http => some [http]
  | _ => none

/-- A port that can be listened on. -/
def InRange (n : Int) : Prop := 1 ≤ n ∧ n ≤ 65535

instance (n : Int) : Decidable (InRange n) := inferInstanceAs (Decidable (_ ∧ _))

/-- The value a text gives a setting: the integer it starts with, if that is an `int`; else, and
without a text, the default. -/
def Configured (text : Option Str) (default n : Int) : Prop :=
  (∃ s, text = some s ∧ StartsWith s n ∧ -2147483648 ≤ n ∧ n ≤ 2147483647) ∨
    (n = default ∧ ∀ s m, text = some s → StartsWith s m → ¬ (-2147483648 ≤ m ∧ m ≤ 2147483647))

section Asked

variable (glz : ServerGlaze) (vars : Variables)

/-- The number a request names, if it lies in the range of the requests that are accepted. -/
def Names (portMin portMax : Int) (request : ServerRequest) (p : Int) : Prop :=
  ∃ body, request = .port body ∧ glz.readPortReq body = (false, ⟨some p⟩) ∧
    portMin ≤ p ∧ p ≤ portMax

/-- The numbers the requests name, in order; the others name none. -/
inductive AllNamed (portMin portMax : Int) : List ServerRequest → List Int → Prop
  | nil : AllNamed portMin portMax [] []
  | named {request : ServerRequest} {p : Int} {requests : List ServerRequest} {ps : List Int} :
      Names glz portMin portMax request p → AllNamed portMin portMax requests ps →
        AllNamed portMin portMax (request :: requests) (p :: ps)
  | other {request : ServerRequest} {requests : List ServerRequest} {ps : List Int} :
      (∀ p, ¬ Names glz portMin portMax request p) → AllNamed portMin portMax requests ps →
        AllNamed portMin portMax (request :: requests) ps

/-- The values the configuration and the accepted requests ask for, one list for each call. -/
def Asked (requests : List ServerRequest) (calls : List (List Int)) : Prop :=
  ∃ http https portMin portMax ps, Configured vars.httpPort 8080 http ∧
    Configured vars.httpsPort 8443 https ∧ Configured vars.httpPortMin 1 portMin ∧
    Configured vars.httpPortMax 65535 portMax ∧ AllNamed glz portMin portMax requests ps ∧
    calls = [http, https] :: ps.map fun p => [p]

/-- In every run, on whatever controller, the ports handed over are the values asked for, and
can be listened on. -/
def PortsKept (requests : List ServerRequest) : Prop :=
  ∀ (m : Machine ServerAns) (s : m.State) (env : Nat → m.Env),
    Asked glz vars requests ((shows ports (run m (main glz vars requests) s env).log).map
      (List.map fun port : Port => (port.toNat : Int))) ∧
    ∀ call ∈ shows ports (run m (main glz vars requests) s env).log, ∀ port ∈ call,
      1 ≤ port.toNat ∧ port.toNat ≤ 65535

/-- The two configured values are ports, and no request names a number that is in the configured
range and is none. -/
structure AskedInRange (requests : List ServerRequest) : Prop where
  http : ∀ n, Configured vars.httpPort 8080 n → InRange n
  https : ∀ n, Configured vars.httpsPort 8443 n → InRange n
  requests : ∀ portMin portMax, Configured vars.httpPortMin 1 portMin →
    Configured vars.httpPortMax 65535 portMax → ∀ request ∈ requests, ∀ p,
      Names glz portMin portMax request p → InRange p

end Asked

section Settings

/-- `env_int` gives a setting its value, and no other. -/
private theorem configured_iff {text : Option Str} {default n : Int} :
    Configured text default n ↔ envInt text default = n := by
  cases text with
  | none => simp [Configured, envInt, eq_comm]
  | some s =>
    have value : ∀ m, stoi s = some m ↔
        StartsWith s m ∧ -2147483648 ≤ m ∧ m ≤ 2147483647 := fun m => stoi_eq_some_iff
    simp only [Configured, envInt, Option.some.injEq, exists_eq_left']
    rw [← value n]
    cases read : stoi s with
    | none =>
      have none_ : ∀ s' m, s = s' → StartsWith s' m → ¬ (-2147483648 ≤ m ∧ m ≤ 2147483647) := by
        rintro s' m rfl starts inside
        have found := (value m).mpr ⟨starts, inside⟩
        rw [read] at found
        cases found
      simp only [reduceCtorEq, false_or, Option.getD_none]
      exact ⟨fun h => h.1.symm, fun h => ⟨h.symm, none_⟩⟩
    | some m =>
      simp only [Option.some.injEq, Option.getD_some]
      refine or_iff_left ?_
      rintro ⟨-, absent⟩
      obtain ⟨starts, inside⟩ := (value m).mp read
      exact absent s m rfl starts inside

end Settings

section Values

variable (glz : ServerGlaze) (vars : Variables)

/-- The number of a request, computed. -/
private def named : ServerRequest → Option Int
  | .port body =>
    match (glz.readPortReq body).1, (glz.readPortReq body).2.http with
    | false, some p => if p < vars.portMin ∨ vars.portMax < p then none else some p
    | _, _ => none
  | _ => none

/-- The values that are asked for, computed. -/
private def values (requests : List ServerRequest) : List (List Int) :=
  [vars.http, vars.https] :: (requests.filterMap (named glz vars)).map fun p => [p]

variable {glz : ServerGlaze} {vars : Variables}

private theorem named_eq_some_iff {request : ServerRequest} {p : Int} :
    named glz vars request = some p ↔ Names glz vars.portMin vars.portMax request p := by
  unfold Names
  cases request with
  | port body =>
    simp only [named, ServerRequest.port.injEq, exists_eq_left']
    rcases glz.readPortReq body with ⟨_ | _, ⟨_ | q⟩⟩
    · simp
    · simp only [Prod.mk.injEq, true_and, PortReq.mk.injEq, Option.some.injEq]
      split
      · simp only [reduceCtorEq, false_iff]
        omega
      · simp only [Option.some.injEq]
        omega
    · simp
    · simp
  | _ => simp [named]

private theorem allNamed_iff {requests : List ServerRequest} {ps : List Int} :
    AllNamed glz vars.portMin vars.portMax requests ps ↔
      requests.filterMap (named glz vars) = ps := by
  constructor
  · intro all
    induction all with
    | nil => rfl
    | named names _ ih => rw [List.filterMap_cons_some (named_eq_some_iff.mpr names), ih]
    | @other request requests ps none_ _ ih =>
      have absent : named glz vars request = none := by
        rw [Option.eq_none_iff_forall_ne_some]
        exact fun p names => none_ p (named_eq_some_iff.mp names)
      rw [List.filterMap_cons_none absent, ih]
  · intro same
    subst same
    induction requests with
    | nil => exact .nil
    | cons request requests ih =>
      cases names : named glz vars request with
      | none =>
        rw [List.filterMap_cons_none names]
        refine .other (fun p hp => ?_) ih
        rw [named_eq_some_iff.mpr hp] at names
        cases names
      | some p =>
        rw [List.filterMap_cons_some names]
        exact .named (named_eq_some_iff.mp names) ih

private theorem asked_iff {requests : List ServerRequest} {calls : List (List Int)} :
    Asked glz vars requests calls ↔ calls = values glz vars requests := by
  unfold Asked
  simp only [configured_iff, exists_and_left, exists_eq_left', values]
  constructor
  · rintro ⟨ps, all, rfl⟩
    rw [← allNamed_iff.mp all]
    rfl
  · intro same
    exact ⟨_, allNamed_iff.mpr rfl, same⟩

private theorem askedInRange_iff {requests : List ServerRequest} :
    AskedInRange glz vars requests ↔
      ∀ call ∈ values glz vars requests, ∀ n ∈ call, InRange n := by
  constructor
  · intro inRange call hc n hn
    rcases List.mem_cons.mp hc with rfl | hc
    · rcases List.mem_cons.mp hn with rfl | hn
      · exact inRange.http _ (configured_iff.mpr rfl)
      · rw [List.mem_singleton.mp hn]
        exact inRange.https _ (configured_iff.mpr rfl)
    · obtain ⟨p, hp, rfl⟩ := List.mem_map.mp hc
      rw [List.mem_singleton.mp hn]
      obtain ⟨request, hr, names⟩ := List.mem_filterMap.mp hp
      exact inRange.requests _ _ (configured_iff.mpr rfl) (configured_iff.mpr rfl) request hr p
        (named_eq_some_iff.mp names)
  · intro inRange
    have configured := inRange _ List.mem_cons_self
    refine ⟨fun n first => ?_, fun n second => ?_,
      fun portMin portMax low high request hr p names => ?_⟩
    · rw [configured_iff] at first
      exact configured n (first ▸ List.mem_cons_self)
    · rw [configured_iff] at second
      exact configured n (second ▸ by simp [Variables.https])
    · rw [configured_iff] at low high
      subst low high
      have mem := List.mem_filterMap.mpr ⟨request, hr, named_eq_some_iff.mpr names⟩
      exact inRange [p] (List.mem_cons_of_mem _ (List.mem_map.mpr ⟨p, mem, rfl⟩)) p
        (List.mem_singleton_self p)

end Values

section Programs

variable {glz : ServerGlaze} {vars : Variables}

/-- The ports a value is handed over as. -/
def handed (calls : List (List Int)) : List (List Port) := calls.map (List.map toPort)

private theorem serverResult_silent (ok : Bool) : (serverResult glz ok).Shows ports [] := by
  cases ok with
  | true => rfl
  | false => exact ⟨[], rfl, fun _ => rfl⟩

private theorem serverPort_shows (body : Str) :
    (serverPort glz vars.portMin vars.portMax body).Shows ports
      (handed ((named glz vars (.port body)).toList.map fun p => [p])) := by
  simp only [serverPort, named]
  cases (glz.readPortReq body).1 with
  | true => rfl
  | false =>
    cases (glz.readPortReq body).2.http with
    | none => rfl
    | some p =>
      simp only
      split
      · rfl
      · exact ⟨[], rfl, fun ok => serverResult_silent ok⟩

private theorem handle_shows (request : ServerRequest) :
    (handle glz vars request).Shows ports
      (handed ((named glz vars request).toList.map fun p => [p])) := by
  cases request with
  | on => exact ⟨[], rfl, fun ok => serverResult_silent ok⟩
  | off body =>
    simp only [handle, serverOff]
    split
    · rfl
    · exact ⟨[], rfl, fun ok => serverResult_silent ok⟩
  | reset => exact ⟨[], rfl, fun ok => serverResult_silent ok⟩
  | port body => exact serverPort_shows body
  | status => exact ⟨[], rfl, fun _ => ⟨[], rfl, fun _ => ⟨[], rfl, fun _ => rfl⟩⟩⟩

private theorem handleAll_shows (requests : List ServerRequest) :
    (handleAll glz vars requests).Shows ports
      (handed ((requests.filterMap (named glz vars)).map fun p => [p])) := by
  induction requests with
  | nil => rfl
  | cons request requests ih =>
    have split : (request :: requests).filterMap (named glz vars) =
        (named glz vars request).toList ++ requests.filterMap (named glz vars) := by
      rw [List.filterMap_cons]
      cases named glz vars request <;> rfl
    rw [split, List.map_append, handed, List.map_append]
    refine Prog.shows_bind (handle_shows request) fun response => ?_
    exact Prog.shows_bind_silent ih fun responses => rfl

private theorem main_shows (requests : List ServerRequest) :
    (main glz vars requests).Shows ports (handed (values glz vars requests)) := by
  have start : (startUp vars).Shows ports (handed [[vars.http, vars.https]]) := by
    refine ⟨[], rfl, fun _ => ⟨[], rfl, fun up => ?_⟩⟩
    cases up with
    | true => exact ⟨[], rfl, fun _ => rfl⟩
    | false => exact ⟨[], rfl, fun _ => ⟨[], rfl, fun _ => rfl⟩⟩
  refine Prog.shows_bind start fun _ => ?_
  refine Prog.shows_bind_silent (handleAll_shows requests) fun responses => ?_
  exact ⟨[], rfl, fun _ => rfl⟩

end Programs

section Conversion

private theorem toNat_toPort (n : Int) : ((toPort n).toNat : Int) = n % 65536 := by
  have size : (toPort n).toNat = (n % 65536).toNat := by
    simp only [toPort, UInt16.ofInt, UInt16.toNat_ofNat']
    omega
  rw [size]
  omega

/-- A value keeps its meaning as a port exactly if it is one, and then it can be listened on. -/
private theorem toPort_eq_iff {n : Int} :
    (((toPort n).toNat : Int) = n ∧ 1 ≤ (toPort n).toNat) ↔ InRange n := by
  have value := toNat_toPort n
  unfold InRange
  omega

private theorem map_self_iff {α : Type} {f : α → α} {l : List α} :
    l.map f = l ↔ ∀ a ∈ l, f a = a := by
  conv_lhs => rw [← List.map_id l, List.map_map]
  exact List.map_inj_left

private theorem handed_kept_iff (calls : List (List Int)) :
    ((handed calls).map (List.map fun port : Port => (port.toNat : Int)) = calls ∧
      ∀ call ∈ handed calls, ∀ port ∈ call, 1 ≤ port.toNat ∧ port.toNat ≤ 65535) ↔
    ∀ call ∈ calls, ∀ n ∈ call, InRange n := by
  have back : (handed calls).map (List.map fun port : Port => (port.toNat : Int)) =
      calls.map (List.map fun n => ((toPort n).toNat : Int)) := by
    simp [handed]
  rw [back, map_self_iff]
  constructor
  · intro kept call hc n hn
    obtain ⟨same, listens⟩ := kept
    have value : ((toPort n).toNat : Int) = n := map_self_iff.mp (same call hc) n hn
    have listen := listens (call.map toPort) (List.mem_map_of_mem hc) (toPort n)
      (List.mem_map_of_mem hn)
    exact toPort_eq_iff.mp ⟨value, listen.1⟩
  · intro inRange
    refine ⟨fun call hc => map_self_iff.mpr fun n hn => ?_, fun call hc port hp => ?_⟩
    · exact (toPort_eq_iff.mpr (inRange call hc n hn)).1
    · obtain ⟨asked, ha, rfl⟩ := List.mem_map.mp hc
      obtain ⟨n, hn, rfl⟩ := List.mem_map.mp hp
      exact ⟨(toPort_eq_iff.mpr (inRange asked ha n hn)).2, Nat.le_of_lt_succ (UInt16.toNat_lt _)⟩

end Conversion

/-- nginx is not running, and its controller has the default ports. -/
def atRest : Host.State where
  http := 8080
  https := 8443
  lastError := []
  fs := .empty
  pidfile := none
  server := .stopped
  others _ := none

/-- Every system call and command of a call succeeds. -/
def smooth : Nat → Host.Env := fun _ => ⟨[], none, [], 0, .exited 0 [], 7⟩

/-- For all texts of the environment variables, every JSON library and every sequence of requests
to the endpoints, on whatever controller: the ports handed over are the values asked for, as
integers, and can be listened on, exactly when the configured ones and those of the accepted
requests are ports. -/
theorem portsKept_iff (glz : ServerGlaze) (vars : Variables) (requests : List ServerRequest) :
    PortsKept glz vars requests ↔ AskedInRange glz vars requests := by
  rw [askedInRange_iff, ← handed_kept_iff]
  constructor
  · intro kept
    have real := kept (controlled (daemonOf vars.kind vars.paths)
      (makeWebServerController vars.kind vars.paths)) atRest fun _ => smooth
    rwa [shows_run (main_shows requests), asked_iff] at real
  · intro kept m s env
    rw [shows_run (main_shows requests), asked_iff]
    exact kept

section Instance

/-- The variables of the deployment for nginx, with another text for the HTTP port. -/
def deployed (httpPort : String) : Variables where
  webserver := some "nginx".toList
  config := none
  listenFile := none
  pidfile := none
  tempRoot := none
  httpPort := some httpPort.toList
  httpsPort := some "8443".toList
  httpPortMin := some "8080".toList
  httpPortMax := some "8085".toList

/-- A library that reads no body. -/
def readsNothing : ServerGlaze :=
  { Glaze.sample [] [] with
    readForceReq := fun _ => (true, ⟨none⟩)
    readPortReq := fun _ => (true, ⟨none⟩)
    writeStatus := fun _ _ _ _ => [] }

/-- 70000 is reduced modulo 65536, and nginx is configured with the result. -/
theorem not_portsKept_70000 :
    (run (controlled (Nginx.daemon {}) (Nginx.controller {}))
        (main readsNothing (deployed "70000") []) atRest fun _ => smooth).state.http = 4464 ∧
      ¬ PortsKept readsNothing (deployed "70000") [] := by
  constructor
  · decide +kernel
  · intro kept
    have asked := (kept (controlled (Nginx.daemon {}) (Nginx.controller {})) atRest
      fun _ => smooth).1
    rw [shows_run (main_shows []), asked_iff] at asked
    exact absurd asked (by decide)

end Instance

end Webengine.Results.PortValues
