/- source: backend/src/Router.cpp (dispatch), backend/src/AuthHandler.cpp
   digest: Where a request can stand after its own steps, whatever other requests did in
   between: what must have happened before a handler is entered, and which steps each
   handler takes. -/

import Webengine.Engine.Dispatch

set_option autoImplicit false
set_option relaxedAutoImplicit false

namespace Webengine.Engine.Stages

open Webengine.Engine.Roles
open Webengine.Engine.Messages
open Webengine.Engine.Credentials
open Webengine.Engine.Sessions
open Webengine.Engine.Operations
open Webengine.Engine.AuthEndpoints
open Webengine.Engine.AdminEndpoints
open Webengine.Engine.Dispatch
open Webengine.Engine.Providers (AuthProvider)
open Webengine.Library.Machines
open Webengine.Library.Interleavings
open Webengine.Library.Programs (Prog)
open Webengine.Library.Texts (cut)

variable {P : AuthProvider} {U : Type}

theorem time_eq (e : Event (engine P U)) : time e = e.pre.now + e.env.elapsed := by
  obtain ⟨t, s, env, o⟩ := e
  cases o <;> rfl

/-- The lookup of a route and what it found. -/
def Routed (e : Event (engine P U)) (req : Request) (found : Option (Handler U × Option Role)) :
    Prop :=
  e.op = .route req.method (cut '?' req.target) ∧
    e.pre.router.select req.method (cut '?' req.target) = found

/-- The validation of the token a request presents, and its result. -/
def Validated (e : Event (engine P U)) (req : Request) (result : Option TokenEntry) : Prop :=
  e.op = .validate (extractToken req) ∧
    e.pre.tokens.validate (time e) (extractToken req) = result

/-- The steps of a request before it enters a handler: the route was found and either is
public, or a session with a sufficient role was. -/
inductive Entered (req : Request) : List (Event (engine P U)) → Handler U → RequestContext → Prop
  | unguarded {r : Event (engine P U)} {h : Handler U} : Routed r req (some (h, none)) →
      Entered req [r] h ⟨req, none⟩
  | guarded {r v : Event (engine P U)} {h : Handler U} {need : Role} {entry : TokenEntry} :
      Routed r req (some (h, some need)) → extractToken req ≠ [] →
      Validated v req (some entry) → roleSatisfies entry.role need = true →
      Entered req [r, v] h ⟨req, some ⟨entry.username, entry.role⟩⟩

theorem Entered.request {req : Request} {l : List (Event (engine P U))} {h : Handler U}
    {ctx : RequestContext} (entered : Entered req l h ctx) : ctx.request = req := by
  cases entered <;> rfl

/-- The steps of a request turned away at a guarded route, and its answer. -/
inductive TurnedAway (app : App U) (req : Request) : List (Event (engine P U)) → Response → Prop
  | noToken {r : Event (engine P U)} {h : Handler U} {need : Role} :
      Routed r req (some (h, some need)) → extractToken req = [] →
      TurnedAway app req [r] (authenticationRequired app)
  | noSession {r v : Event (engine P U)} {h : Handler U} {need : Role} :
      Routed r req (some (h, some need)) → Validated v req none →
      TurnedAway app req [r, v] (authenticationRequired app)
  | lowRole {r v : Event (engine P U)} {h : Handler U} {need : Role} {entry : TokenEntry} :
      Routed r req (some (h, some need)) → Validated v req (some entry) →
      roleSatisfies entry.role need = false →
      TurnedAway app req [r, v] (insufficientPermissions app)

theorem TurnedAway.not_call {app : App U} {req : Request} {l : List (Event (engine P U))}
    {res : Response} (away : TurnedAway app req l res) {e : Event (engine P U)} (he : e ∈ l)
    (h : Handler U) (ctx : RequestContext) : e.op ≠ .call h ctx := by
  intro hop
  cases away with
  | noToken found _ =>
    rw [List.mem_singleton] at he
    rw [he, found.1] at hop
    cases hop
  | noSession found live =>
    rcases List.mem_pair.mp he with rfl | rfl
    · rw [found.1] at hop
      cases hop
    · rw [live.1] at hop
      cases hop
  | lowRole found live _ =>
    rcases List.mem_pair.mp he with rfl | rfl
    · rw [found.1] at hop
      cases hop
    · rw [live.1] at hop
      cases hop

variable (app : App U)

/-- A handler with its exceptions answered. -/
def guardedCode (h : Handler U) (ctx : RequestContext) : Code U Response :=
  (handlerCode app h ctx).tryCatch fun _ => .ret (internalServerError app)

/-- Where a request can stand: its own steps so far, and what it still has to do. -/
inductive Stage (req : Request) : List (Event (engine P U)) → Code U Response → Prop
  | arriving : Stage req [] (dispatch app req)
  | notFound {r : Event (engine P U)} : Routed r req none → Stage req [r] (.ret routeNotFound)
  | checking {r : Event (engine P U)} {h : Handler U} {need : Role} :
      Routed r req (some (h, some need)) → extractToken req ≠ [] →
      Stage req [r] (enforce app req h (some need))
  | turnedAway {l : List (Event (engine P U))} {res : Response} : TurnedAway app req l res →
      Stage req l (.ret res)
  | entering {l : List (Event (engine P U))} {h : Handler U} {ctx : RequestContext} :
      Entered req l h ctx → Stage req l (invoke app h ctx)
  | inside {l l' : List (Event (engine P U))} {c : Event (engine P U)} {h : Handler U}
      {ctx : RequestContext} {q : Code U Response} : Entered req l h ctx →
      c.op = .call h ctx → Follows (guardedCode app h ctx) l' q → Stage req (l ++ c :: l') q

section Inversion

variable {app} {req : Request} {l l₀ : List (Event (engine P U))} {q : Code U Response}

theorem invoke_eq (h : Handler U) (ctx : RequestContext) :
    invoke app h ctx = .op (.call h ctx) fun _ => guardedCode app h ctx := rfl

private theorem stage_invoke {h : Handler U} {ctx : RequestContext} (entered : Entered req l₀ h ctx)
    (follows : Follows (invoke app h ctx) l q) : Stage app req (l₀ ++ l) q := by
  rw [invoke_eq] at follows
  rcases follows.of_op with ⟨rfl, rfl⟩ | ⟨t, s, env, l', rfl, rest⟩
  · rw [List.append_nil, ← invoke_eq]
    exact .entering entered
  · exact .inside entered rfl rest

/-- The rest of a guarded route after the session's answer. -/
def enforced (app : App U) (req : Request) (h : Handler U) (need : Role) :
    Option TokenEntry → Code U Response
  | none => .ret (authenticationRequired app)
  | some entry =>
    if roleSatisfies entry.role need then invoke app h ⟨req, some ⟨entry.username, entry.role⟩⟩
    else .ret (insufficientPermissions app)

theorem enforce_eq (h : Handler U) (need : Role) :
    enforce app req h (some need) =
      if extractToken req = [] then enforced app req h need none
      else .op (.validate (extractToken req)) (enforced app req h need) := by
  unfold enforce
  simp only [validatedToken_bind]
  have session : ∀ entry : Option TokenEntry, (match entry with
      | none => pure (authenticationRequired app)
      | some entry =>
        if roleSatisfies entry.role need then
          invoke app h ⟨req, some ⟨entry.username, entry.role⟩⟩
        else pure (insufficientPermissions app)) = enforced app req h need entry := by
    intro entry
    cases entry <;> rfl
  split
  · exact session none
  · exact congrArg (Prog.op _) (funext session)

private theorem stage_enforced {r v : Event (engine P U)} {h : Handler U} {need : Role}
    {result : Option TokenEntry} (routed : Routed r req (some (h, some need)))
    (token : extractToken req ≠ []) (validated : Validated v req result)
    (follows : Follows (enforced app req h need result) l q) : Stage app req (r :: v :: l) q := by
  cases result with
  | none =>
    obtain ⟨rfl, rfl⟩ := follows.of_ret
    exact .turnedAway (.noSession routed validated)
  | some entry =>
    rw [enforced] at follows
    by_cases ok : roleSatisfies entry.role need = true
    · rw [if_pos ok] at follows
      exact stage_invoke (.guarded routed token validated ok) follows
    · rw [if_neg ok] at follows
      obtain ⟨rfl, rfl⟩ := follows.of_ret
      exact .turnedAway (.lowRole routed validated (Bool.eq_false_iff.mpr ok))

/-- Whatever the others do, a request stands at one of the stages. -/
theorem stage_of_follows (follows : Follows (dispatch app req) l q) : Stage app req l q := by
  rw [dispatch_eq] at follows
  rcases follows.of_op with ⟨rfl, rfl⟩ | ⟨t, s, env, l', rfl, rest⟩
  · rw [← dispatch_eq]
    exact .arriving
  -- the answer of the lookup is what the table held when the step was taken
  have found : Routed (⟨t, s, env, .route req.method (cut '?' req.target)⟩ :
      Event (engine P U)) req (s.router.select req.method (cut '?' req.target)) := ⟨rfl, rfl⟩
  change Follows (routed app req (s.router.select req.method (cut '?' req.target))) l' q at rest
  cases hsel : s.router.select req.method (cut '?' req.target) with
  | none =>
    rw [hsel] at found rest
    obtain ⟨rfl, rfl⟩ := rest.of_ret
    exact .notFound found
  | some hr =>
    obtain ⟨h, minRole⟩ := hr
    rw [hsel] at found rest
    cases minRole with
    | none => exact stage_invoke (.unguarded found) rest
    | some need =>
      change Follows (enforce app req h (some need)) l' q at rest
      rw [enforce_eq] at rest
      by_cases token : extractToken req = []
      · rw [if_pos token] at rest
        obtain ⟨rfl, rfl⟩ := rest.of_ret
        exact .turnedAway (.noToken found token)
      · rw [if_neg token] at rest
        rcases rest.of_op with ⟨rfl, rfl⟩ | ⟨t', s', env', l'', rfl, later⟩
        · have checking : Stage app req [_] _ := .checking found token
          rw [enforce_eq, if_neg token] at checking
          exact checking
        · exact stage_enforced found token ⟨rfl, by rw [time_eq]; rfl⟩ later

theorem Stage.not_raise {e : Str} (stage : Stage app req l q) : q ≠ .raise e := by
  rintro rfl
  generalize hq : (Prog.raise e : Code U Response) = q at stage
  cases stage with
  | arriving =>
    rw [dispatch_eq] at hq
    cases hq
  | notFound => cases hq
  | checking found token =>
    rw [enforce_eq, if_neg token] at hq
    cases hq
  | turnedAway => cases hq
  | entering =>
    rw [invoke_eq] at hq
    cases hq
  | @inside l₀ l' c h ctx q entered hc follows =>
    have quiet : (guardedCode app h ctx).Quiet := Prog.quiet_tryCatch fun _ => trivial
    have after := follows.quiet quiet
    rw [← hq] at after
    exact after

/-- The next step of a request is the lookup, the validation for a guarded route, the entry
into a handler, or a step of the handler it is in. -/
theorem Stage.next {o : Op U} {k : Ans o → Code U Response} (stage : Stage app req l (.op o k)) :
    (l = [] ∧ o = .route req.method (cut '?' req.target)) ∨
    (∃ r h need, l = [r] ∧ Routed r req (some (h, some need)) ∧ o = .validate (extractToken req)) ∨
    (∃ h ctx, Entered req l h ctx ∧ o = .call h ctx) ∨
    ∃ l₀ c l' h ctx, l = l₀ ++ c :: l' ∧ Entered req l₀ h ctx ∧ c.op = .call h ctx ∧
      Follows (guardedCode app h ctx) l' (.op o k) := by
  generalize hq : Prog.op o k = q at stage
  cases stage with
  | arriving =>
    rw [dispatch_eq] at hq
    injection hq with ho
    exact Or.inl ⟨rfl, ho⟩
  | notFound => cases hq
  | @checking r h need found token =>
    rw [enforce_eq, if_neg token] at hq
    injection hq with ho
    exact Or.inr (Or.inl ⟨r, h, need, rfl, found, ho⟩)
  | turnedAway => cases hq
  | @entering l h ctx entered =>
    rw [invoke_eq] at hq
    injection hq with ho
    exact Or.inr (Or.inr (Or.inl ⟨h, ctx, entered, ho⟩))
  | @inside l₀ l' c h ctx q entered hc follows =>
    exact Or.inr (Or.inr (Or.inr ⟨l₀, c, l', h, ctx, rfl, entered, hc, hq ▸ follows⟩))

end Inversion

end Webengine.Engine.Stages
