/- source: backend/src/TokenStore.hpp, backend/src/AuthHandler.cpp (handle_login)
   digest: Where the sessions of a token store come from: the login that issued each of
   them, in any run. -/

import Webengine.Engine.Footprints

set_option autoImplicit false
set_option relaxedAutoImplicit false

namespace Webengine.Engine.Issuance

open Webengine.Engine.Roles
open Webengine.Engine.Messages
open Webengine.Engine.Credentials
open Webengine.Engine.Sessions
open Webengine.Engine.Operations
open Webengine.Engine.AuthEndpoints
open Webengine.Engine.Dispatch
open Webengine.Engine.Stages
open Webengine.Engine.Footprints
open Webengine.Engine.Providers (AuthProvider)
open Webengine.Library.Interleavings
open Webengine.Library.Machines

variable {P : AuthProvider} {U : Type}

/-- The steps that write or erase the session of a token. -/
def touches (token : Str) : Op U → Prop
  | .insert t _ _ _ => t = token
  | .revoke t => t = token
  | _ => False

private theorem lookup_of_not_touches {token : Str} {o : Op U} (h : ¬ touches token o)
    (env : EngineEnv P) (s : EngineState P U) :
    (engineStep env s o).2.tokens.store.lookup token = s.tokens.store.lookup token := by
  cases o with
  | insert t username role ttl => exact AList.lookup_insert_ne fun same => h same.symm
  | revoke t => exact AList.lookup_erase_ne fun same => h same.symm
  | _ => rfl

/-- The last step that touched the token stored this session. -/
def Stored (l : List (Event (engine P U))) (token : Str) (entry : TokenEntry) : Prop :=
  ∃ before i between ttl, l = before ++ i :: between ∧
    i.op = .insert token entry.username entry.role ttl ∧ entry.expiresAt = time i + ttl ∧
    ∀ e ∈ between, ¬ touches token e.op

private theorem stored_snoc_iff {l : List (Event (engine P U))} {e : Event (engine P U)}
    {token : Str}
    {entry : TokenEntry} : Stored (l ++ [e]) token entry ↔
      (∃ ttl, e.op = .insert token entry.username entry.role ttl ∧
        entry.expiresAt = time e + ttl) ∨ (¬ touches token e.op ∧ Stored l token entry) := by
  constructor
  · rintro ⟨before, i, between, ttl, split, stored, expires, quiet⟩
    rcases List.eq_nil_or_concat between with rfl | ⟨between, last, rfl⟩
    · obtain ⟨rfl, same⟩ := List.append_inj' split rfl
      cases same
      exact Or.inl ⟨ttl, stored, expires⟩
    · rw [List.concat_eq_append, ← List.cons_append, ← List.append_assoc] at split
      obtain ⟨rfl, same⟩ := List.append_inj' split rfl
      cases same
      rw [List.concat_eq_append] at quiet
      exact Or.inr ⟨quiet e (by simp), before, i, between, ttl, rfl, stored, expires,
        fun e' he' => quiet e' (by simp [he'])⟩
  · rintro (⟨ttl, stored, expires⟩ | ⟨other, before, i, between, ttl, rfl, stored, expires, quiet⟩)
    · exact ⟨l, e, [], ttl, rfl, stored, expires, by simp⟩
    · refine ⟨before, i, between ++ [e], ttl, by simp, stored, expires, ?_⟩
      intro e' he'
      rcases List.mem_append.mp he' with he' | he'
      · exact quiet e' he'
      · rw [List.mem_singleton.mp he']
        exact other

/-- From an empty store, whatever runs, the sessions are those some step stored last. -/
theorem lookup_iff_stored {α : Type} {pool : Nat → Code U α} {s₀ : EngineState P U}
    (empty : s₀.tokens = TokenStore.empty) (sched : List (Nat × EngineEnv P)) (token : Str)
    (entry : TokenEntry) :
    ((Config.start (m := engine P U) pool s₀).play sched).state.tokens.store.lookup token =
      some entry ↔
        Stored ((Config.start (m := engine P U) pool s₀).play sched).log token entry := by
  refine Config.play_log_induction (m := engine P U) (J := fun l (s : EngineState P U) =>
    ∀ token entry, s.tokens.store.lookup token = some entry ↔ Stored l token entry)
    ?_ ?_ sched token entry
  · intro token entry
    rw [empty]
    constructor
    · intro found
      cases found
    · rintro ⟨before, i, between, ttl, split, -⟩
      simp at split
  · intro sched l e _ before token entry
    rw [stored_snoc_iff, ← before]
    obtain ⟨t, s, env, o⟩ := e
    by_cases touch : touches token o
    · cases o with
      | insert t' username role ttl =>
        have same : t' = token := touch
        subst same
        have stored : (engineStep env s (.insert t' username role ttl)).2.tokens.store.lookup t' =
            some ⟨username, role, s.now + env.elapsed + ttl⟩ := AList.lookup_insert _
        simp only [Event.post, stored, touch, not_true_eq_false, false_and, or_false, time_eq]
        constructor
        · rintro same
          cases same
          exact ⟨ttl, rfl, rfl⟩
        · rintro ⟨ttl', same, expires⟩
          cases same
          rw [← expires]
      | revoke t' =>
        have same : t' = token := touch
        subst same
        have erased : (engineStep env s (.revoke t')).2.tokens.store.lookup t' = none :=
          AList.lookup_erase _ _
        simp [Event.post, erased, touch]
      | _ => exact touch.elim
    · have other : ∀ ttl, o ≠ .insert token entry.username entry.role ttl := by
        rintro ttl rfl
        exact touch rfl
      rw [Event.post, lookup_of_not_touches touch]
      simp [touch, other]

section Runs

variable {app : App U} {threads : Nat → Thread U} {s₀ : EngineState P U}
  {sched : List (Nat × EngineEnv P)} {pre post : List (Event (engine P U))}
  {e : Event (engine P U)}

theorem stored_of_lookup (empty : s₀.tokens = TokenStore.empty)
    (sched : List (Nat × EngineEnv P)) {token : Str} {entry : TokenEntry}
    (found : (serve app threads s₀ sched).state.tokens.store.lookup token = some entry) :
    Stored (serve app threads s₀ sched).log token entry :=
  (lookup_iff_stored empty sched token entry).mp found

/-- The step `i` stores a session of a user its thread just saw accepted, under a token it
just drew. -/
structure Login (app : App U) (threads : Nat → Thread U) (before : List (Event (engine P U)))
    (i : Event (engine P U)) (token : Str) (user : UserInfo) : Prop where
  stored : i.op = .insert token user.username user.role sessionTtl
  steps : ∃ req l c ctx a b buf, threads i.tid = .request req ∧
    own before i.tid = l ++ [c, a, b] ∧ Entered req l .login ctx ∧ c.op = .call .login ctx ∧
    user.username = loginName app.glaze req ∧
    Accepted a user.username (loginPassword app.glaze req) user.role ∧ Drew b buf ∧
    token = tokenOf buf

theorem login_of_insert (user : UserInfo)
    (h : (serve app threads s₀ sched).log = pre ++ e :: post) {token : Str} {ttl : Duration}
    (hop : e.op = .insert token user.username user.role ttl) :
    ttl = sessionTtl ∧ Login app threads pre e token user := by
  have inner : ¬ dispatches e.op := by
    rw [hop]
    exact id
  rcases inside_of_log h inner with ⟨-, conf⟩ | ⟨hd, ctx, l, inside⟩
  · rw [hop] at conf
    exact conf.elim
  have may := inside.performs
  rw [hop] at may
  cases hd with
  | login =>
    obtain ⟨req, l₀, c, ht, split, entered, hc⟩ := inside.request
    obtain ⟨k, follows⟩ := inside.follows
    obtain ⟨a, b, buf, rfl, accepted, drew, htoken, hname, rfl⟩ := accepted_of_insert follows hop
    have same := entered.request
    subst same
    exact ⟨rfl, hop, ctx.request, l₀, c, ctx, a, b, buf, ht, split, entered, hc, hname, accepted,
      drew, htoken⟩
  | _ => exact may.elim

/-- A session found live was stored by a login at most eight hours before, and its token
has not been written or revoked since. -/
theorem login_of_validated (empty : s₀.tokens = TokenStore.empty)
    (h : (serve app threads s₀ sched).log = pre ++ e :: post) {req : Request}
    {entry : TokenEntry} (live : Validated e req (some entry)) :
    ∃ before i between, pre = before ++ i :: between ∧
      Login app threads before i (extractToken req) ⟨entry.username, entry.role⟩ ∧
      (∀ e' ∈ between, ¬ touches (extractToken req) e'.op) ∧ time e ≤ time i + hours 8 := by
  obtain ⟨sched', k, hlog, hstate, -⟩ := serve_split h
  obtain ⟨found, inTime⟩ := TokenStore.validate_eq_some_iff.mp live.2
  have stored : Stored pre (extractToken req) entry := by
    rw [← hstate] at found
    exact hlog ▸ stored_of_lookup empty sched' found
  obtain ⟨before, i, between, ttl, rfl, hop, expires, quiet⟩ := stored
  rw [List.append_assoc, List.cons_append] at h
  obtain ⟨rfl, login⟩ := login_of_insert ⟨entry.username, entry.role⟩ h hop
  refine ⟨before, i, between, rfl, login, quiet, ?_⟩
  rw [expires] at inTime
  exact inTime

end Runs

end Webengine.Engine.Issuance
