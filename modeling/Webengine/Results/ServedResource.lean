/- source: backend/src/AuthHandler.cpp (handle_protected_file), backend/src/Acl.hpp
   digest: The access list is asked about the request path, the file is named by a rewritten
   one: they are the same resource exactly for clean paths. -/

import Webengine.Engine.Paths

set_option autoImplicit false
set_option relaxedAutoImplicit false

namespace Webengine.Results.ServedResource

open Webengine.Engine.Roles
open Webengine.Engine.Messages
open Webengine.Engine.AccessList
open Webengine.Engine.Sessions
open Webengine.Engine.Operations
open Webengine.Engine.AuthEndpoints
open Webengine.Engine.Gates
open Webengine.Engine.Paths
open Webengine.Engine.Providers (AuthProvider)
open Webengine.Library.Segments
open Webengine.Library.Texts

/-- The URL of the file a target leads to, in canonical form. -/
def servedUrl (urlPrefix target : Str) : Str :=
  urlPrefix ++ canonical posix (servedPath urlPrefix target)

/-- Whoever gets as far as the file of this target is authorized for its URL. -/
def DecidesOnServed (urlPrefix target : Str) : Prop :=
  ∀ (P : AuthProvider) (U : Type) (s : EngineState P U) (env : Nat → EngineEnv P)
    (req : Request) (fsRoot : Str) (entry : TokenEntry),
    req.method = .get → req.target = target → session s (env 0) req = some entry →
    (opened (fileRun s env req fsRoot urlPrefix).log).isSome →
    s.acl.authorize entry.role (servedUrl urlPrefix target) = true

/-- No role tells two paths apart, whatever the rules. -/
def SameDecision (p q : Str) : Prop :=
  ∀ (acl : Acl) (role : Role), acl.authorize role p = acl.authorize role q

private theorem sameDecision_iff {p q : Str} : SameDecision p q ↔ p = q := by
  constructor
  · intro same
    by_contra hne
    obtain ⟨acl, hp, hq⟩ := Acl.exists_separating hne
    have := same acl .guest
    rw [Acl.authorize, Acl.authorize, hp, hq] at this
    exact absurd this (by decide)
  · rintro rfl acl role
    rfl

variable {urlPrefix rest target : Str}

private theorem authorize_of_opened {P : AuthProvider} {U : Type} {s : EngineState P U}
    {env : Nat → EngineEnv P} {req : Request} {fsRoot : Str} {entry : TokenEntry}
    (live : session s (env 0) req = some entry)
    (open_ : (opened (fileRun s env req fsRoot urlPrefix).log).isSome) :
    s.acl.authorize entry.role (cut '?' req.target) = true ∧ ¬ Escapes req urlPrefix := by
  rw [(fileRun_spec s env req fsRoot urlPrefix).2.1, fileVerdict, live, verdict] at open_
  by_cases hacl : s.acl.authorize entry.role (cut '?' req.target)
  · refine ⟨hacl, fun hdots => ?_⟩
    simp [hacl, fileOpened, hdots] at open_
  · simp [hacl, fileOpened] at open_

private theorem opened_visit {acl : Acl} (hacl : acl.required (cut '?' target) = .guest)
    (hdots : ¬ dotDot <:+: relativePath urlPrefix (cut '?' target)) (fsRoot : Str) :
    (opened (fileRun (oneSession acl ⟨[], .guest⟩) still (visit target []) fsRoot
      urlPrefix).log).isSome := by
  have stays : ¬ Escapes (visit target []) urlPrefix := hdots
  have asked : (oneSession acl ⟨[], .guest⟩).acl.authorize .guest
      (cut '?' (visit target []).target) = true := by
    rw [Acl.authorize]
    exact roleSatisfies_iff.mpr hacl.le
  rw [(fileRun_spec _ _ _ fsRoot urlPrefix).2.1, fileVerdict, session_visit, verdict]
  simp only [asked, if_true, fileOpened, stays, if_false]
  rfl

/-- Under the route of a served subtree the decision is about the served file exactly for
the targets that are refused or clean; and two targets of one file are treated alike by
all rules exactly if their paths are the same text. -/
theorem decidesOnServed_iff (under : cut '?' target = urlPrefix ++ rest) :
    (DecidesOnServed urlPrefix target ↔ dotDot <:+: rest ∨ Clean rest) ∧
    ∀ target' rest', cut '?' target' = urlPrefix ++ rest' →
      servedUrl urlPrefix target = servedUrl urlPrefix target' →
      (SameDecision (cut '?' target) (cut '?' target') ↔ rest = rest') := by
  refine ⟨⟨fun decides => ?_, ?_⟩, ?_⟩
  · by_contra neither
    obtain ⟨hdots, unclean⟩ := not_or.mp neither
    have differ : cut '?' target ≠ servedUrl urlPrefix target := by
      rw [under, servedUrl, ne_eq, List.append_cancel_left_eq, eq_comm,
        canonical_servedPath_iff under]
      exact unclean
    obtain ⟨acl, asked, served⟩ := Acl.exists_separating differ
    have stays : ¬ dotDot <:+: relativePath urlPrefix (cut '?' target) := by
      rwa [under, dotDot_relativePath]
    have allowed := decides nobody Empty (oneSession acl ⟨[], .guest⟩) still (visit target [])
      [] _ rfl rfl (session_visit _ _ _ _) (opened_visit asked stays [])
    rw [Acl.authorize, show (oneSession acl ⟨[], .guest⟩).acl = acl from rfl, served] at allowed
    exact absurd allowed (by decide)
  · rintro ok P U s env req fsRoot entry - rfl live open_
    obtain ⟨allowed, stays⟩ := authorize_of_opened live open_
    rw [Escapes, under, dotDot_relativePath] at stays
    have clean := ok.resolve_left stays
    rwa [servedUrl, (canonical_servedPath_iff under).mpr clean, ← under]
  · intro target' rest' under' _
    rw [sameDecision_iff, under, under', List.append_cancel_left_eq]

/-- The theorem at the target `/protected/docs/a.txt`. -/
theorem decidesOnServed_docs :
    DecidesOnServed "/protected/".toList "/protected/docs/a.txt".toList := by
  have under : cut '?' "/protected/docs/a.txt".toList =
      "/protected/".toList ++ "docs/a.txt".toList := by decide
  exact (decidesOnServed_iff under).1.mpr (by decide)

/-- Viewers may read the protected files, but not those of one directory. -/
def nestedRules : Acl :=
  (Acl.empty.set "/protected/".toList .viewer).set "/protected/secret/".toList .admin

/-- With a doubled slash a viewer reads a file only Admins may, and whose plain spelling is
refused: the inner rule does not begin the request path, and the slash is stripped only
after the access list was asked. -/
theorem doubled_slash_passes_inner_rule :
    ¬ DecidesOnServed "/protected/".toList "/protected//secret/plans.txt".toList ∧
    servedUrl "/protected/".toList "/protected//secret/plans.txt".toList =
      servedUrl "/protected/".toList "/protected/secret/plans.txt".toList ∧
    nestedRules.authorize .viewer "/protected//secret/plans.txt".toList = true ∧
    nestedRules.authorize .viewer "/protected/secret/plans.txt".toList = false := by
  refine ⟨fun decides => ?_, by decide, by decide, by decide⟩
  have reached : opened (fileRun (oneSession nestedRules ⟨"val".toList, .viewer⟩) still
      (visit "/protected//secret/plans.txt".toList []) "/srv/files".toList
      "/protected/".toList).log = some "/srv/files/secret/plans.txt".toList := by decide
  have allowed := decides nobody Empty (oneSession nestedRules ⟨"val".toList, .viewer⟩) still
    (visit "/protected//secret/plans.txt".toList []) "/srv/files".toList _ rfl rfl
    (session_visit _ _ _ _) (by rw [reached]; rfl)
  exact absurd allowed (by decide)

end Webengine.Results.ServedResource
