/- source: backend/src/AuthHandler.cpp (handle_check, handle_protected_file)
   digest: The gate behind nginx and the gate that serves the files itself are asked about
   the target with and without its query: they agree exactly if no rule tells these apart. -/

import Webengine.Engine.Paths

set_option autoImplicit false
set_option relaxedAutoImplicit false

namespace Webengine.Results.GateAgreement

open Webengine.Engine.Roles
open Webengine.Engine.Messages
open Webengine.Engine.AccessList
open Webengine.Engine.Credentials
open Webengine.Engine.Operations
open Webengine.Engine.AuthEndpoints
open Webengine.Engine.Gates
open Webengine.Engine.Paths
open Webengine.Engine.Providers (AuthProvider)
open Webengine.Library.LongestMatch
open Webengine.Library.Machines
open Webengine.Library.Texts

variable {P : AuthProvider} {U : Type}

def Answers (o : Outcome (engine P U) Str Response) (status : Status) : Prop :=
  ∃ res, o.result = .ok res ∧ res.status = status

/-- The gated file and the auth check treat a request alike: to the login page or 401, 403
or 403, on to the file or 200 for the same user and role. -/
structure Agree (file check : Outcome (engine P U) Str Response) : Prop where
  unauthenticated : Answers file .found ↔ Answers check .unauthorized
  denied : Answers file .forbidden ↔ Answers check .forbidden
  passed : ∀ user, (opened file.log).isSome ∧ admitted file.log = some user ↔
    check.result = .ok (checkOk user)

/-- The sub-request nginx makes for a request: the same credentials, the whole target. -/
structure SubRequest (req sub : Request) : Prop where
  cookie : sub.find "Cookie".toList = req.find "Cookie".toList
  authorization : sub.find "Authorization".toList = req.find "Authorization".toList
  uri : sub.find "X-Original-URI".toList = some req.target

/-- Every GET without two dots in its path, in every engine with this access list. -/
def GatesAgree (acl : Acl) (urlPrefix : Str) : Prop :=
  ∀ (P : AuthProvider) (U : Type) (s : EngineState P U) (env : Nat → EngineEnv P)
    (req sub : Request) (fsRoot : Str), s.acl = acl → req.method = .get →
    urlPrefix <+: cut '?' req.target → ¬ dotDot <:+: cut '?' req.target → SubRequest req sub →
    Agree (fileRun s env req fsRoot urlPrefix) (checkRun s env sub)

/-- A rule whose text has a query asks no other role than its path does; and if the subtree
is everything, the empty target, about which the check asks nothing, is open to all. -/
def QueriesAgree (acl : Acl) (urlPrefix : Str) : Prop :=
  (urlPrefix = [] → acl.required [] = .guest) ∧
  ∀ e ∈ acl.list, '?' ∈ e.pathPrefix → urlPrefix <+: cut '?' e.pathPrefix →
    ¬ dotDot <:+: cut '?' e.pathPrefix → e.minRole = acl.required (cut '?' e.pathPrefix)

private theorem checkOk_injective : Function.Injective checkOk := by
  rintro ⟨name, role⟩ ⟨name', role'⟩ h
  have user (u : UserInfo) : (checkOk u).fields.find "X-User".toList = some u.username := rfl
  have held (u : UserInfo) : (checkOk u).fields.find "X-Role".toList = some (roleName u.role) :=
    rfl
  have hname : some name = some name' := by
    rw [← user ⟨name, role⟩, h, user]
  have hrole : some (roleName role) = some (roleName role') := by
    rw [← held ⟨name, role⟩, h, held]
  have back : some role = some role' := by
    rw [← roleFromString_roleName role, Option.some_inj.mp hrole, roleFromString_roleName]
  cases hname
  cases back
  rfl

section SubRequests

variable {s : EngineState P U} {env : EngineEnv P} {req sub : Request}

private theorem session_sub (h : SubRequest req sub) : session s env sub = session s env req := by
  have token : extractToken sub = extractToken req := by
    rw [extractToken, extractToken, h.cookie, h.authorization]
  rw [session, session, token]

private theorem originalUri_sub (h : SubRequest req sub) : originalUri sub = req.target := by
  rw [originalUri, h.uri, Option.getD_some]

end SubRequests

section Verdicts

variable (s : EngineState P U) (env : Nat → EngineEnv P) (req sub : Request)
  (fsRoot urlPrefix : Str)

private theorem check_answers :
    (Answers (checkRun s env sub) .unauthorized ↔ checkVerdict s env sub = .unauthenticated) ∧
    (Answers (checkRun s env sub) .forbidden ↔ checkVerdict s env sub = .denied) ∧
    ∀ user, (checkRun s env sub).result = .ok (checkOk user) ↔
      checkVerdict s env sub = .passed user := by
  have refused : ∀ (res : Response) (user : UserInfo), res.status ≠ .ok → res ≠ checkOk user := by
    rintro res user other rfl
    exact other rfl
  have answer := (checkRun_spec s env sub).1
  cases h : checkVerdict s env sub with
  | unauthenticated =>
    rw [h] at answer
    simp only [Answers, answer, checkResponse]
    refine ⟨by simp, by simp, fun user => ?_⟩
    simp only [Except.ok.injEq, reduceCtorEq, iff_false]
    exact refused _ user (by simp)
  | denied =>
    rw [h] at answer
    simp only [Answers, answer, checkResponse]
    refine ⟨by simp, by simp, fun user => ?_⟩
    simp only [Except.ok.injEq, reduceCtorEq, iff_false]
    exact refused _ user (by simp)
  | passed who =>
    rw [h] at answer
    simp only [Answers, answer, checkResponse]
    refine ⟨by simp [checkOk], by simp [checkOk], fun user => ?_⟩
    simp only [Except.ok.injEq, checkOk_injective.eq_iff, Verdict.passed.injEq]

private theorem file_answers (stays : ¬ Escapes req urlPrefix) :
    (Answers (fileRun s env req fsRoot urlPrefix) .found ↔
      fileVerdict s env req = .unauthenticated) ∧
    (Answers (fileRun s env req fsRoot urlPrefix) .forbidden ↔ fileVerdict s env req = .denied) ∧
    ∀ user, (opened (fileRun s env req fsRoot urlPrefix).log).isSome ∧
        admitted (fileRun s env req fsRoot urlPrefix).log = some user ↔
      fileVerdict s env req = .passed user := by
  obtain ⟨⟨content, answer⟩, file, who⟩ := fileRun_spec s env req fsRoot urlPrefix
  simp only [Answers, answer, file, who]
  cases fileVerdict s env req with
  | unauthenticated => simp [fileResponse, redirect, fileOpened]
  | denied => simp [fileResponse, accessDenied, fileOpened]
  | passed user =>
    cases content <;>
    simp [fileResponse, fileAnswer, fileOpened, stays, Verdict.user]

private theorem agree_iff (stays : ¬ Escapes req urlPrefix) :
    Agree (fileRun s env req fsRoot urlPrefix) (checkRun s env sub) ↔
      fileVerdict s env req = checkVerdict s env sub := by
  obtain ⟨fileUnauth, fileDenied, filePassed⟩ := file_answers s env req fsRoot urlPrefix stays
  obtain ⟨checkUnauth, checkDenied, checkPassed⟩ := check_answers s env sub
  constructor
  · rintro ⟨unauth, denied, passed⟩
    rw [fileUnauth, checkUnauth] at unauth
    rw [fileDenied, checkDenied] at denied
    cases h : fileVerdict s env req with
    | unauthenticated => exact (unauth.mp h).symm
    | denied => exact (denied.mp h).symm
    | passed user =>
      exact ((checkPassed user).mp ((passed user).mp ((filePassed user).mpr h))).symm
  · intro same
    exact ⟨by rw [fileUnauth, checkUnauth, same], by rw [fileDenied, checkDenied, same],
      fun user => by rw [filePassed, checkPassed, same]⟩

end Verdicts

section Rules

variable {acl : Acl} {urlPrefix : Str}

/-- If no rule with a query says otherwise, the query does not matter. -/
private theorem required_cut (agree : QueriesAgree acl urlPrefix) {target : Str}
    (under : urlPrefix <+: cut '?' target) (dots : ¬ dotDot <:+: cut '?' target) :
    acl.required target = acl.required (cut '?' target) := by
  by_cases none : NoKey acl.map target
  · rw [Acl.required_of_noKey none,
      Acl.required_of_noKey fun q hq => none q (hq.trans (prefix_cut _ _))]
  · obtain ⟨q, hq, hsome⟩ : ∃ q, q <+: target ∧ acl.map q ≠ Option.none := by
      simpa [NoKey] using none
    obtain ⟨k, hk⟩ := exists_longest (Option.isSome_iff_ne_none.mpr hsome) hq
    obtain ⟨r, hr⟩ := Option.isSome_iff_exists.mp hk.1
    rw [Acl.required_of_longest hk hr]
    by_cases query : '?' ∈ k
    · -- the deciding rule has the path of the target, and asks what that path asks
      have path : cut '?' k = cut '?' target := cut_eq_of_prefix hk.2.1 query
      have rule : (⟨k, r⟩ : AclEntry) ∈ acl.list := (acl.mem_list_iff ⟨k, r⟩).mpr hr
      rw [← path] at under dots ⊢
      exact agree.2 ⟨k, r⟩ rule query under dots
    · -- the deciding rule begins the path already
      have short : Longest acl.map (cut '?' target) k :=
        ⟨hk.1, prefix_cut_of_prefix hk.2.1 query,
          fun p hp hpp => hk.2.2 p hp (hpp.trans (prefix_cut _ _))⟩
      rw [Acl.required_of_longest short hr]

private theorem required_rule {e : AclEntry} (h : e ∈ acl.list) :
    acl.required e.pathPrefix = e.minRole :=
  Acl.required_self ((acl.mem_list_iff e).mp h)

end Rules

section Instances

/-- The sub-request for a visit of the target. -/
def subVisit (target : Str) : Request := visit [] [("X-Original-URI".toList, target)]

private theorem subRequest_visit (target : Str) : SubRequest (visit target []) (subVisit target) :=
  ⟨rfl, rfl, rfl⟩

private theorem stays_of_dots (req : Request) {urlPrefix : Str}
    (under : urlPrefix <+: cut '?' req.target)
    (dots : ¬ dotDot <:+: cut '?' req.target) : ¬ Escapes req urlPrefix := by
  obtain ⟨rest, path⟩ := under
  rw [Escapes, ← path, dotDot_relativePath]
  rw [← path] at dots
  exact fun h => dots (h.trans (List.suffix_append _ _).isInfix)

private theorem verdict_of_agree {acl : Acl} {urlPrefix : Str} (agree : GatesAgree acl urlPrefix)
    {target : Str} (under : urlPrefix <+: cut '?' target) (dots : ¬ dotDot <:+: cut '?' target)
    (role : Role) :
    verdict acl (some ⟨[], role, sessionTtl⟩) (some (cut '?' target)) =
      verdict acl (some ⟨[], role, sessionTtl⟩) (if target = [] then none else some target) := by
  have same := (agree_iff _ _ _ _ _ _ (stays_of_dots (visit target []) under dots)).mp
    (agree nobody Empty (oneSession acl ⟨[], role⟩) still (visit target []) (subVisit target) []
      rfl rfl under dots (subRequest_visit target))
  rw [fileVerdict, checkVerdict, session_visit, subVisit, session_visit, ← subVisit,
    originalUri_sub (subRequest_visit target)] at same
  exact same

end Instances

/-- The gates agree on a subtree exactly when no rule tells a path from its queries. -/
theorem gatesAgree_iff (acl : Acl) (urlPrefix : Str) :
    GatesAgree acl urlPrefix ↔ QueriesAgree acl urlPrefix := by
  constructor
  · intro agree
    refine ⟨?_, fun e he query under dots => ?_⟩
    · rintro rfl
      have same := verdict_of_agree agree (List.nil_prefix : [] <+: cut '?' []) (by decide) .guest
      have open_ : acl.authorize .guest [] = true := by
        by_contra closed
        simp [verdict, closed] at same
      exact le_antisymm (roleSatisfies_iff.mp open_) (by cases acl.required [] <;> decide)
    · have nonempty : e.pathPrefix ≠ [] := List.ne_nil_of_mem query
      rw [← required_rule he]
      refine roleSatisfies_right_injective fun held => ?_
      have same := verdict_of_agree agree under dots held
      rw [if_neg nonempty] at same
      simp only [verdict, Acl.authorize] at same
      by_cases h : roleSatisfies held (acl.required e.pathPrefix) <;>
      by_cases h' : roleSatisfies held (acl.required (cut '?' e.pathPrefix)) <;>
      simp [h, h'] at same ⊢
  · rintro agree P U s env req sub fsRoot rfl - under dots subrequest
    rw [agree_iff _ _ _ _ _ _ (stays_of_dots _ under dots), fileVerdict, checkVerdict,
      session_sub subrequest, originalUri_sub subrequest]
    cases session s (env 0) req with
    | none => rfl
    | some entry =>
      by_cases empty : req.target = []
      · rw [empty] at under ⊢
        have open_ : s.acl.authorize entry.role [] = true := by
          rw [Acl.authorize, agree.1 (List.prefix_nil.mp under), roleSatisfies_guest]
        simp [verdict, open_]
      · rw [if_neg empty, verdict, verdict, Acl.authorize, Acl.authorize,
          required_cut agree under dots]

/-- Anyone with a session may read the protected files, but the rule for one spelling of a
query is for Admins. -/
def queryRule : Acl :=
  (Acl.empty.set "/protected/".toList .viewer).set "/protected/a.txt?v=2".toList .admin

/-- With a rule for a query a viewer gets the file from one gate and 403 from the other. -/
theorem query_rule_splits_gates : ¬ GatesAgree queryRule "/protected/".toList := by
  intro agree
  have same := agree nobody Empty (oneSession queryRule ⟨"val".toList, .viewer⟩) still
    (visit "/protected/a.txt?v=2".toList []) (subVisit "/protected/a.txt?v=2".toList)
    "/srv/files".toList rfl rfl (by decide) (by decide) (subRequest_visit _)
  have denied : checkVerdict (oneSession queryRule ⟨"val".toList, .viewer⟩) still
      (subVisit "/protected/a.txt?v=2".toList) = .denied := by decide
  have passed : fileVerdict (oneSession queryRule ⟨"val".toList, .viewer⟩) still
      (visit "/protected/a.txt?v=2".toList []) = .passed ⟨"val".toList, .viewer⟩ := by decide
  rw [agree_iff _ _ _ _ _ _ (stays_of_dots _ (by decide) (by decide)), passed, denied] at same
  cases same

end Webengine.Results.GateAgreement
