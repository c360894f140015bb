/- source: backend/src/TokenStore.hpp
   digest: The token store by itself: in any interleaving of issues, validations and
   revocations a session is found exactly from its issue until it expires or is revoked. -/

import Webengine.Results.AdminOnly

set_option autoImplicit false
set_option relaxedAutoImplicit false

namespace Webengine.Results.SessionLives

open Webengine.Engine.Roles
open Webengine.Engine.Sessions
open Webengine.Engine.Operations
open Webengine.Engine.AccessList (Acl)
open Webengine.Engine.AuthEndpoints (step)
open Webengine.Engine.Stages (time_eq)
open Webengine.Engine.Footprints
open Webengine.Engine.Issuance
open Webengine.Engine.Providers (AuthProvider)
open Webengine.Engine.Routing (Router)
open Webengine.Library.Interleavings
open Webengine.Library.Machines
open Webengine.Library.Programs (Prog)
open Webengine.Results.AdminOnly (FreshDraws oneAdmin oneDraw)

variable {P : AuthProvider} {U : Type}

/-- The public methods of the store. -/
inductive StoreCall
  | issue (username : Str) (role : Role) (ttl : Duration)
  | validate (token : Str)
  | revoke (token : Str)

/-- What they return. -/
inductive StoreAnswer
  | token (t : Str)
  | entry (found : Option TokenEntry)
  | done
  deriving DecidableEq

def StoreCall.code : StoreCall → Code U StoreAnswer
  | .issue username role ttl => do
    let token ← Engine.AuthEndpoints.issue username role ttl
    pure (.token token)
  | .validate token => do
    let found ← step (.validate token)
    pure (.entry found)
  | .revoke token => do
    step (.revoke token)
    pure .done

/-- A run of calls, one a thread, on an engine's token store. -/
def storeRun (calls : Nat → StoreCall) (s₀ : EngineState P U) (sched : List (Nat × EngineEnv P)) :
    Config (engine P U) Str StoreAnswer :=
  (Config.start (fun t => (calls t).code) s₀).play sched

/-- The step `i` is the locked section of a call of `issue`, and the token is the text of the
bytes this call drew. -/
structure Issued (calls : Nat → StoreCall) (before : List (Event (engine P U)))
    (i : Event (engine P U)) (token username : Str) (role : Role) (ttl : Duration) : Prop where
  call : calls i.tid = .issue username role ttl
  drew : ∃ b buf, own before i.tid = [b] ∧ Drew b buf ∧ token = tokenOf buf

/-- The token was issued for this session, no call that revokes it has been made since, and the
time is not past its issue by more than its ttl. -/
def Lives (calls : Nat → StoreCall) (pre : List (Event (engine P U))) (now : TimePoint)
    (token : Str) (entry : TokenEntry) : Prop :=
  ∃ before i between ttl, pre = before ++ i :: between ∧
    Issued calls before i token entry.username entry.role ttl ∧ entry.expiresAt = time i + ttl ∧
    (∀ r ∈ between, calls r.tid ≠ .revoke token) ∧ now ≤ time i + ttl

/-- The rest of an issue after its draw. -/
private def issueStore (username : Str) (role : Role) (ttl : Duration) :
    Option Buffer → Code U StoreAnswer
  | none => .raise "TokenStore: RAND_bytes failed".toList
  | some buf => .op (.insert (tokenOf buf) username role ttl) fun _ => .ret (.token (tokenOf buf))

private theorem code_issue (username : Str) (role : Role) (ttl : Duration) :
    (StoreCall.code (.issue username role ttl) : Code U StoreAnswer) =
      .op .randBytes (issueStore username role ttl) := by
  refine congrArg (Prog.op _) (funext fun buf => ?_)
  cases buf <;> rfl

section Steps

variable {l : List (Event (engine P U))} {q : Code U StoreAnswer}

private theorem issue_steps {username : Str} {role : Role} {ttl : Duration}
    (follows : Follows (StoreCall.code (.issue username role ttl)) l q) :
    (l = [] ∧ ∃ k, q = .op .randBytes k) ∨
      (∃ b, l = [b] ∧ b.op = .randBytes ∧ b.env.random = none ∧ ∃ msg, q = .raise msg) ∨
      ∃ b buf, Drew b buf ∧
        ((l = [b] ∧ ∃ k, q = .op (.insert (tokenOf buf) username role ttl) k) ∨
          ∃ i, l = [b, i] ∧ i.op = .insert (tokenOf buf) username role ttl ∧
            q = .ret (.token (tokenOf buf))) := by
  rw [code_issue] at follows
  rcases follows.of_op with ⟨rfl, rfl⟩ | ⟨t, s, env, l, rfl, drawn⟩
  · exact Or.inl ⟨rfl, _, rfl⟩
  right
  change Follows (issueStore username role ttl env.random) l q at drawn
  cases random : env.random with
  | none =>
    rw [random] at drawn
    obtain ⟨rfl, rfl⟩ := drawn.of_raise
    exact Or.inl ⟨_, rfl, rfl, random, _, rfl⟩
  | some buf =>
    rw [random] at drawn
    refine Or.inr ⟨⟨t, s, env, .randBytes⟩, buf, ⟨rfl, random⟩, ?_⟩
    rcases drawn.of_op with ⟨rfl, rfl⟩ | ⟨t', s', env', l, rfl, done⟩
    · exact Or.inl ⟨rfl, _, rfl⟩
    · obtain ⟨rfl, rfl⟩ := done.of_ret
      exact Or.inr ⟨_, rfl, rfl, rfl⟩

private theorem validate_steps {token : Str}
    (follows : Follows (StoreCall.code (.validate token)) l q) :
    (l = [] ∧ ∃ k, q = .op (.validate token) k) ∨
      ∃ e, l = [e] ∧ e.op = .validate token ∧
        q = .ret (.entry (e.pre.tokens.validate (time e) token)) := by
  change Follows (.op (.validate token) fun found => .ret (.entry found)) l q at follows
  rcases follows.of_op with ⟨rfl, rfl⟩ | ⟨t, s, env, l, rfl, done⟩
  · exact Or.inl ⟨rfl, _, rfl⟩
  · obtain ⟨rfl, rfl⟩ := done.of_ret
    exact Or.inr ⟨_, rfl, rfl, rfl⟩

private theorem revoke_steps {token : Str}
    (follows : Follows (StoreCall.code (.revoke token)) l q) :
    (l = [] ∧ ∃ k, q = .op (.revoke token) k) ∨
      ∃ e, l = [e] ∧ e.op = .revoke token ∧ q = .ret .done := by
  change Follows (.op (.revoke token) fun _ => .ret .done) l q at follows
  rcases follows.of_op with ⟨rfl, rfl⟩ | ⟨t, s, env, l, rfl, done⟩
  · exact Or.inl ⟨rfl, _, rfl⟩
  · obtain ⟨rfl, rfl⟩ := done.of_ret
    exact Or.inr ⟨_, rfl, rfl, rfl⟩

end Steps

section Runs

variable {calls : Nat → StoreCall} {s₀ : EngineState P U} {sched : List (Nat × EngineEnv P)}
  {pre post : List (Event (engine P U))} {e : Event (engine P U)}

variable (calls s₀ sched) in
private theorem follows_of_storeRun (t : Nat) :
    Follows (calls t).code (own (storeRun calls s₀ sched).log t)
      ((storeRun calls s₀ sched).pool t) :=
  Config.play_follows (m := engine P U) (fun t => (calls t).code) s₀ sched t

private theorem own_split (h : (storeRun calls s₀ sched).log = pre ++ e :: post) :
    own (storeRun calls s₀ sched).log e.tid = own pre e.tid ++ e :: own post e.tid := by
  rw [h]
  simp [own]

private theorem step_of_call (h : (storeRun calls s₀ sched).log = pre ++ e :: post) :
    (∃ username role ttl, calls e.tid = .issue username role ttl ∧
      ((own pre e.tid = [] ∧ e.op = .randBytes) ∨ ∃ b buf, own pre e.tid = [b] ∧ Drew b buf ∧
        e.op = .insert (tokenOf buf) username role ttl)) ∨
    (∃ token, calls e.tid = .validate token ∧ e.op = .validate token) ∨
    ∃ token, calls e.tid = .revoke token ∧ e.op = .revoke token := by
  obtain ⟨sched', k, hlog, hstate, hpool⟩ := Config.log_split h
  have before := Config.play_follows (m := engine P U) (fun t => (calls t).code) s₀ sched' e.tid
  rw [hpool, Config.own, hlog] at before
  have taken : Follows (calls e.tid).code (own pre e.tid ++ [e]) (k e.ans) :=
    before.snoc e.tid e.pre e.env
  cases call : calls e.tid with
  | issue username role ttl =>
    rw [call] at taken
    refine Or.inl ⟨username, role, ttl, rfl, ?_⟩
    rcases issue_steps taken with ⟨none_, -⟩ | ⟨b, only, draws, -⟩ | ⟨b, buf, drew, stands⟩
    · simp at none_
    · obtain ⟨before, same⟩ := List.append_inj' (only.trans (List.nil_append [b]).symm) rfl
      exact Or.inl ⟨before, by rw [List.singleton_inj.mp same, draws]⟩
    · rcases stands with ⟨only, -⟩ | ⟨i, both, stores, -⟩
      · obtain ⟨before, same⟩ := List.append_inj' (only.trans (List.nil_append [b]).symm) rfl
        exact Or.inl ⟨before, by rw [List.singleton_inj.mp same, drew.1]⟩
      · obtain ⟨before, same⟩ := List.append_inj' (both.trans (List.singleton_append).symm) rfl
        exact Or.inr ⟨b, buf, before, drew, by rw [List.singleton_inj.mp same, stores]⟩
  | validate token =>
    rw [call] at taken
    rcases validate_steps taken with ⟨none_, -⟩ | ⟨e', only, looks, -⟩
    · simp at none_
    · obtain ⟨-, same⟩ := List.append_inj' (only.trans (List.nil_append [e']).symm) rfl
      exact Or.inr (Or.inl ⟨token, rfl, by rw [List.singleton_inj.mp same, looks]⟩)
  | revoke token =>
    rw [call] at taken
    rcases revoke_steps taken with ⟨none_, -⟩ | ⟨e', only, erases, -⟩
    · simp at none_
    · obtain ⟨-, same⟩ := List.append_inj' (only.trans (List.nil_append [e']).symm) rfl
      exact Or.inr (Or.inr ⟨token, rfl, by rw [List.singleton_inj.mp same, erases]⟩)

private theorem insert_iff_issued (h : (storeRun calls s₀ sched).log = pre ++ e :: post)
    {token username : Str} {role : Role} {ttl : Duration} :
    e.op = .insert token username role ttl ↔ Issued calls pre e token username role ttl := by
  rcases step_of_call h with ⟨username', role', ttl', call, ⟨none_, draws⟩ | ⟨b, buf, steps, drew,
    stores⟩⟩ | ⟨token', call, looks⟩ | ⟨token', call, erases⟩
  · refine iff_of_false (by rw [draws]; simp) fun issued => ?_
    obtain ⟨b, buf, steps, -⟩ := issued.drew
    rw [none_] at steps
    cases steps
  · constructor
    · intro hop
      rw [hop] at stores
      cases stores
      exact ⟨call, b, buf, steps, drew, rfl⟩
    · rintro ⟨call', b', buf', steps', drew', rfl⟩
      rw [call] at call'
      cases call'
      obtain rfl := List.singleton_inj.mp (steps.symm.trans steps')
      obtain rfl := Option.some.inj (drew.2.symm.trans drew'.2)
      exact stores
  · refine iff_of_false (by rw [looks]; simp) fun issued => ?_
    have call' := issued.call
    rw [call] at call'
    cases call'
  · refine iff_of_false (by rw [erases]; simp) fun issued => ?_
    have call' := issued.call
    rw [call] at call'
    cases call'

private theorem revoke_iff_call (h : (storeRun calls s₀ sched).log = pre ++ e :: post)
    {token : Str} :
    e.op = .revoke token ↔ calls e.tid = .revoke token := by
  rcases step_of_call h with ⟨username, role, ttl, call, ⟨-, other⟩ | ⟨b, buf, -, -, other⟩⟩ |
    ⟨token', call, other⟩ | ⟨token', call, erases⟩
  · simp [call, other]
  · simp [call, other]
  · simp [call, other]
  · simp [call, erases]

private theorem stored_once {x y z : List (Event (engine P U))} {i j : Event (engine P U)}
    (h : (storeRun calls s₀ sched).log = x ++ i :: (y ++ j :: z))
    (fresh : FreshDraws (storeRun calls s₀ sched).log) {token username username' : Str}
    {role role' : Role} {ttl ttl' : Duration} (hi : i.op = .insert token username role ttl)
    (hj : j.op = .insert token username' role' ttl') : False := by
  obtain ⟨-, b, buf, stepsI, drewI, htoken⟩ := (insert_iff_issued h).mp hi
  have h' : (storeRun calls s₀ sched).log = (x ++ i :: y) ++ j :: z := by
    rw [h]
    simp
  obtain ⟨-, b', buf', stepsJ, drewJ, htoken'⟩ := (insert_iff_issued h').mp hj
  have sameBuf : buf = buf' := tokenOf_injective (htoken.symm.trans htoken')
  subst sameBuf
  have hb : b ∈ own x i.tid := by simp [stepsI]
  have hb' : b' ∈ own (x ++ i :: y) j.tid := by simp [stepsJ]
  -- the one draw of these bytes makes both steps those of one call
  have same : b = b' := by
    refine fresh.eq_of_drew ?_ ?_ drewI drewJ
    · rw [h]
      exact List.mem_append_left _ (mem_of_own hb).1
    · rw [h']
      exact List.mem_append_left _ (mem_of_own hb').1
  have tids : i.tid = j.tid := by
    rw [← (mem_of_own hb).2, same, (mem_of_own hb').2]
  have hi' : i ∈ own (x ++ i :: y) j.tid := by simp [own, tids]
  rw [stepsJ, List.mem_singleton] at hi'
  rw [hi', drewJ.1] at hi
  cases hi

private theorem time_le {x y z : List (Event (engine P U))} {a : Event (engine P U)}
    (h : (storeRun calls s₀ sched).log = x ++ a :: (y ++ e :: z)) : time a ≤ time e := by
  have later : a.post.now ≤ e.pre.now := by
    refine Config.related_between (m := engine P U)
      (R := fun s s' : EngineState P U => s.now ≤ s'.now) (fun _ => le_rfl)
      (fun _ _ _ => le_trans) h ?_
    intro e' _
    have step : e'.post.now = e'.pre.now + e'.env.elapsed := time_eq e'
    rw [step]
    exact Int.le_add_of_nonneg_right (Int.natCast_nonneg _)
  rw [time_eq e]
  exact later.trans (Int.le_add_of_nonneg_right (Int.natCast_nonneg _))

theorem touches_cases {token : Str} {o : Op U} (h : touches token o) :
    o = .revoke token ∨ ∃ username role ttl, o = .insert token username role ttl := by
  cases o with
  | insert t username role ttl =>
    have same : t = token := h
    subst same
    exact Or.inr ⟨_, _, _, rfl⟩
  | revoke t =>
    have same : t = token := h
    subst same
    exact Or.inl rfl
  | _ => exact h.elim

/-- A validation finds exactly the session that lives under the token. -/
private theorem validate_iff_lives (empty : s₀.tokens = TokenStore.empty)
    (h : (storeRun calls s₀ sched).log = pre ++ e :: post)
    (fresh : FreshDraws (storeRun calls s₀ sched).log) (token : Str) (entry : TokenEntry) :
    e.pre.tokens.validate (time e) token = some entry ↔ Lives calls pre (time e) token entry := by
  obtain ⟨sched', k, hlog, hstate, -⟩ := Config.log_split h
  have stored : (storeRun calls s₀ sched').state.tokens.store.lookup token = some entry ↔
      Stored (storeRun calls s₀ sched').log token entry :=
    lookup_iff_stored empty sched' token entry
  unfold storeRun at stored
  rw [hstate, hlog] at stored
  rw [TokenStore.validate_eq_some_iff, stored]
  -- a step between the issue and the validation, in the run
  have between_split : ∀ {before between : List (Event (engine P U))} {i r : Event (engine P U)},
      pre = before ++ i :: between → r ∈ between →
        ∃ y z, between = y ++ r :: z ∧
          (storeRun calls s₀ sched).log = (before ++ i :: y) ++ r :: (z ++ e :: post) := by
    intro before between i r split hr
    obtain ⟨y, z, rfl⟩ := List.append_of_mem hr
    refine ⟨y, z, rfl, ?_⟩
    rw [h, split]
    simp
  constructor
  · rintro ⟨⟨before, i, between, ttl, split, hop, expires, quiet⟩, inTime⟩
    have whole : (storeRun calls s₀ sched).log = before ++ i :: (between ++ e :: post) := by
      rw [h, split]
      simp
    refine ⟨before, i, between, ttl, split, (insert_iff_issued whole).mp hop, expires, ?_, ?_⟩
    · rintro r hr revokes
      obtain ⟨y, z, -, at_⟩ := between_split split hr
      exact quiet r hr (by rw [(revoke_iff_call at_).mpr revokes]; rfl)
    · rw [← expires]
      exact inTime
  · rintro ⟨before, i, between, ttl, split, issued, expires, kept, inTime⟩
    have whole : (storeRun calls s₀ sched).log = before ++ i :: (between ++ e :: post) := by
      rw [h, split]
      simp
    have stored := (insert_iff_issued whole).mpr issued
    refine ⟨⟨before, i, between, ttl, split, stored, expires, ?_⟩, by rw [expires]; exact inTime⟩
    intro r hr touch
    obtain ⟨y, z, rfl, at_⟩ := between_split split hr
    rcases touches_cases touch with revoked | ⟨username, role, ttl', again⟩
    · exact kept r hr ((revoke_iff_call at_).mp revoked)
    · rw [List.append_assoc, List.cons_append] at at_
      exact stored_once at_ fresh stored again

end Runs

private theorem places {x x' y y' : List (Event (engine P U))} {i i' : Event (engine P U)}
    (h : x ++ i :: y = x' ++ i' :: y') :
    (x = x' ∧ i = i' ∧ y = y') ∨ (∃ w, x' = x ++ i :: w ∧ y = w ++ i' :: y') ∨
      ∃ w, x = x' ++ i' :: w ∧ y' = w ++ i :: y := by
  rcases List.append_eq_append_iff.mp h with ⟨w, rfl, rest⟩ | ⟨w, rfl, rest⟩
  · cases w with
    | nil =>
      obtain ⟨rfl, rfl⟩ := List.cons.inj rest
      exact Or.inl ⟨by simp, rfl, rfl⟩
    | cons a w =>
      obtain ⟨rfl, rfl⟩ := List.cons.inj rest
      exact Or.inr (Or.inl ⟨w, rfl, rfl⟩)
  · cases w with
    | nil =>
      obtain ⟨rfl, rfl⟩ := List.cons.inj rest
      exact Or.inl ⟨by simp, rfl, rfl⟩
    | cons a w =>
      obtain ⟨rfl, rfl⟩ := List.cons.inj rest
      exact Or.inr (Or.inr ⟨w, rfl, rfl⟩)

/-- What the calls of a run answer. A call that has taken its locked section has returned. -/
structure AnswersExactly (calls : Nat → StoreCall) (c : Config (engine P U) Str StoreAnswer) :
    Prop where
  issue : ∀ t username role ttl, calls t = .issue username role ttl → ∀ answer,
    c.pool t = .ret answer ↔ ∃ pre i post token, c.log = pre ++ i :: post ∧ i.tid = t ∧
      Issued calls pre i token username role ttl ∧ answer = .token token
  validate : ∀ t token, calls t = .validate token → ∀ answer,
    c.pool t = .ret answer ↔ ∃ pre e post found, c.log = pre ++ e :: post ∧ e.tid = t ∧
      answer = .entry found ∧ ∀ entry, found = some entry ↔ Lives calls pre (time e) token entry
  revoke : ∀ t token, calls t = .revoke token → ∀ answer,
    c.pool t = .ret answer ↔ answer = .done ∧ ∃ e ∈ c.log, e.tid = t
  raises : ∀ t msg, c.pool t = .raise msg →
    (∃ username role ttl, calls t = .issue username role ttl) ∧
      ∃ b, own c.log t = [b] ∧ b.op = .randBytes ∧ b.env.random = none
  unissued : ∀ pre e post token, c.log = pre ++ e :: post → calls e.tid = .validate token →
    (∀ before i after username role ttl, pre = before ++ i :: after →
      ¬ Issued calls before i token username role ttl) → c.pool e.tid = .ret (.entry none)
  gone : ∀ pre e mid e' post before i after token username role ttl,
    c.log = pre ++ e :: (mid ++ e' :: post) → calls e.tid = .validate token →
    calls e'.tid = .validate token → pre = before ++ i :: after →
    Issued calls before i token username role ttl → c.pool e.tid = .ret (.entry none) →
    c.pool e'.tid = .ret (.entry none)

section Answers

variable {calls : Nat → StoreCall} {s₀ : EngineState P U} {sched : List (Nat × EngineEnv P)}
  {pre post : List (Event (engine P U))} {e : Event (engine P U)}

private theorem split_of_own {l : List (Event (engine P U))} {t : Nat} {b i : Event (engine P U)}
    (steps : own l t = [b, i]) :
    ∃ pre post, l = pre ++ i :: post ∧ i.tid = t ∧ own pre t = [b] := by
  induction l using List.reverseRecOn with
  | nil => cases steps
  | append_singleton l a ih =>
    by_cases mine : a.tid = t
    · have whole : own (l ++ [a]) t = own l t ++ [a] := by simp [own, mine]
      rw [whole] at steps
      obtain ⟨before, same⟩ := List.append_inj' (steps.trans (List.singleton_append).symm) rfl
      obtain rfl := List.singleton_inj.mp same
      exact ⟨l, [], rfl, mine, before⟩
    · have whole : own (l ++ [a]) t = own l t := by simp [own, mine]
      rw [whole] at steps
      obtain ⟨pre, post, rfl, tid, before⟩ := ih steps
      exact ⟨pre, post ++ [a], by simp, tid, before⟩

private theorem answered_issue (t : Nat) {username : Str} {role : Role} {ttl : Duration}
    (call : calls t = .issue username role ttl) (answer : StoreAnswer) :
    (storeRun calls s₀ sched).pool t = .ret answer ↔
      ∃ pre i post token, (storeRun calls s₀ sched).log = pre ++ i :: post ∧ i.tid = t ∧
        Issued calls pre i token username role ttl ∧ answer = .token token := by
  have follows := follows_of_storeRun calls s₀ sched t
  rw [call] at follows
  have stands := issue_steps follows
  constructor
  · intro returned
    rw [returned] at stands
    rcases stands with ⟨-, k, same⟩ | ⟨b, -, -, -, msg, same⟩ | ⟨b, buf, drew,
      ⟨-, k, same⟩ | ⟨i, steps, -, same⟩⟩
    · cases same
    · cases same
    · cases same
    · cases same
      obtain ⟨pre, post, split, rfl, before⟩ := split_of_own steps
      exact ⟨pre, i, post, _, split, rfl, ⟨call, b, buf, before, drew, rfl⟩, rfl⟩
  · rintro ⟨pre, i, post, token, split, rfl, ⟨-, b, buf, before, drew, rfl⟩, rfl⟩
    rw [own_split split, before] at stands
    rcases stands with ⟨none_, -⟩ | ⟨b', only, -⟩ | ⟨b', buf', drew',
      ⟨only, -⟩ | ⟨i', steps, -, returned⟩⟩
    · cases none_
    · simp at only
    · simp at only
    · obtain rfl := (List.cons.inj steps).1
      obtain rfl := Option.some.inj (drew.2.symm.trans drew'.2)
      exact returned

private theorem answer_of_validation (h : (storeRun calls s₀ sched).log = pre ++ e :: post)
    {token : Str} (call : calls e.tid = .validate token) :
    (storeRun calls s₀ sched).pool e.tid =
      .ret (.entry (e.pre.tokens.validate (time e) token)) := by
  have follows := follows_of_storeRun calls s₀ sched e.tid
  rw [call] at follows
  have mem : e ∈ own (storeRun calls s₀ sched).log e.tid := by simp [own_split h]
  rcases validate_steps follows with ⟨none_, -⟩ | ⟨e', only, -, returned⟩
  · rw [none_] at mem
    cases mem
  · rw [only, List.mem_singleton] at mem
    rw [returned, mem]

private theorem step_of_returned {t : Nat} {answer : StoreAnswer}
    (returned : (storeRun calls s₀ sched).pool t = .ret answer) :
    ∃ pre e post, (storeRun calls s₀ sched).log = pre ++ e :: post ∧ e.tid = t := by
  have follows := follows_of_storeRun calls s₀ sched t
  rw [returned] at follows
  cases steps : own (storeRun calls s₀ sched).log t with
  | nil =>
    rw [steps] at follows
    have same := follows.of_nil
    cases call : calls t <;> rw [call] at same
    · rw [code_issue] at same
      cases same
    · cases same
    · cases same
  | cons e rest =>
    have mem : e ∈ own (storeRun calls s₀ sched).log t := by simp [steps]
    obtain ⟨pre, post, split⟩ := List.append_of_mem (mem_of_own mem).1
    exact ⟨pre, e, post, split, (mem_of_own mem).2⟩

private theorem answered_validate (empty : s₀.tokens = TokenStore.empty)
    (fresh : FreshDraws (storeRun calls s₀ sched).log) (t : Nat) {token : Str}
    (call : calls t = .validate token) (answer : StoreAnswer) :
    (storeRun calls s₀ sched).pool t = .ret answer ↔
      ∃ pre e post found, (storeRun calls s₀ sched).log = pre ++ e :: post ∧ e.tid = t ∧
        answer = .entry found ∧
        ∀ entry, found = some entry ↔ Lives calls pre (time e) token entry := by
  constructor
  · intro returned
    obtain ⟨pre, e, post, split, rfl⟩ := step_of_returned returned
    rw [answer_of_validation split call] at returned
    cases returned
    exact ⟨pre, e, post, _, split, rfl, rfl, validate_iff_lives empty split fresh token⟩
  · rintro ⟨pre, e, post, found, split, rfl, rfl, exactly⟩
    have same : e.pre.tokens.validate (time e) token = found := by
      ext entry
      exact (validate_iff_lives empty split fresh token entry).trans (exactly entry).symm
    rw [answer_of_validation split call, same]

private theorem answered_revoke (t : Nat) {token : Str} (call : calls t = .revoke token)
    (answer : StoreAnswer) : (storeRun calls s₀ sched).pool t = .ret answer ↔
      answer = .done ∧ ∃ e ∈ (storeRun calls s₀ sched).log, e.tid = t := by
  have follows := follows_of_storeRun calls s₀ sched t
  rw [call] at follows
  have stands := revoke_steps follows
  constructor
  · intro returned
    obtain ⟨pre, e, post, split, rfl⟩ := step_of_returned returned
    rw [returned] at stands
    rcases stands with ⟨-, k, same⟩ | ⟨e', -, -, same⟩
    · cases same
    · cases same
      exact ⟨rfl, e, by simp [split], rfl⟩
  · rintro ⟨rfl, e, mem, rfl⟩
    have mine : e ∈ own (storeRun calls s₀ sched).log e.tid := by simp [own, mem]
    rcases stands with ⟨none_, -⟩ | ⟨e', -, -, returned⟩
    · rw [none_] at mine
      cases mine
    · exact returned

private theorem raised (t : Nat) {msg : Str}
    (thrown : (storeRun calls s₀ sched).pool t = .raise msg) :
    (∃ username role ttl, calls t = .issue username role ttl) ∧
      ∃ b, own (storeRun calls s₀ sched).log t = [b] ∧ b.op = .randBytes ∧ b.env.random = none := by
  have follows := follows_of_storeRun calls s₀ sched t
  rw [thrown] at follows
  cases call : calls t with
  | issue username role ttl =>
    rw [call] at follows
    rcases issue_steps follows with ⟨-, k, same⟩ | ⟨b, only, draws, failed, -⟩ | ⟨b, buf, -,
      ⟨-, k, same⟩ | ⟨i, -, -, same⟩⟩
    · cases same
    · exact ⟨⟨_, _, _, rfl⟩, b, only, draws, failed⟩
    · cases same
    · cases same
  | validate token =>
    rw [call] at follows
    rcases validate_steps follows with ⟨-, k, same⟩ | ⟨e, -, -, same⟩ <;> cases same
  | revoke token =>
    rw [call] at follows
    rcases revoke_steps follows with ⟨-, k, same⟩ | ⟨e, -, -, same⟩ <;> cases same

private theorem gone_of_gone (empty : s₀.tokens = TokenStore.empty)
    (fresh : FreshDraws (storeRun calls s₀ sched).log)
    {mid before after : List (Event (engine P U))}
    {e' i : Event (engine P U)} {token username : Str} {role : Role} {ttl : Duration}
    (h : (storeRun calls s₀ sched).log = pre ++ e :: (mid ++ e' :: post))
    (split : pre = before ++ i :: after) (issued : Issued calls before i token username role ttl)
    (gone : e.pre.tokens.validate (time e) token = none) :
    e'.pre.tokens.validate (time e') token = none := by
  cases found : e'.pre.tokens.validate (time e') token with
  | none => rfl
  | some entry =>
    have h' : (storeRun calls s₀ sched).log = (pre ++ e :: mid) ++ e' :: post := by
      rw [h]
      simp
    obtain ⟨before', i', between, ttl', place, issued', expires, kept, inTime⟩ :=
      (validate_iff_lives empty h' fresh token entry).mp found
    have whole := h'
    rw [place, List.append_assoc, List.cons_append] at whole
    have stored := (insert_iff_issued whole).mpr issued'
    have first : (storeRun calls s₀ sched).log =
        before ++ i :: (after ++ e :: (mid ++ e' :: post)) := by
      rw [h, split]
      simp
    have stored₀ := (insert_iff_issued first).mpr issued
    rw [split, List.append_assoc, List.cons_append] at place
    rcases places place with ⟨rfl, rfl, rfl⟩ | ⟨w, rfl, -⟩ | ⟨w, rfl, rest⟩
    · -- the session was already found at the earlier validation
      have lives : Lives calls pre (time e) token entry := by
        refine ⟨before, i, after, ttl', split, issued', expires, fun r hr => ?_, ?_⟩
        · exact kept r (by simp [hr])
        · exact (time_le h).trans inTime
      have live := (validate_iff_lives empty h fresh token entry).mpr lives
      rw [gone] at live
      cases live
    · rw [List.append_assoc, List.cons_append] at whole
      exact (stored_once whole fresh stored₀ stored).elim
    · rw [List.append_assoc, List.cons_append] at first
      exact (stored_once first fresh stored stored₀).elim

end Answers

section Instance

/-- One session is issued; its token is validated, revoked and validated again. -/
def lifeOfSession : Nat → StoreCall
  | 0 => .issue "alice".toList .user (seconds 10)
  | 2 => .revoke (tokenOf (Vector.replicate 32 7))
  | _ => .validate (tokenOf (Vector.replicate 32 7))

def liveRun : Config (engine oneAdmin Empty) Str StoreAnswer :=
  storeRun lifeOfSession ⟨0, (), TokenStore.empty, Acl.empty, Router.empty⟩
    ([0, 0, 1, 2, 3].map fun t => (t, oneDraw))

end Instance

end Webengine.Results.SessionLives
