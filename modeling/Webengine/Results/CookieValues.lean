/- source: backend/src/util.hpp (extract_cookie)
   digest: What extract_cookie finds in a header of any cookies: the value of the named one,
   exactly unless another name or value mentions it first. -/

import Webengine.Engine.Credentials

set_option autoImplicit false
set_option relaxedAutoImplicit false

namespace Webengine.Results.CookieValues

open Webengine.Engine.Roles (Str)
open Webengine.Engine.Credentials
open Webengine.Library.Texts

/-- The name of a cookie: not empty, and without the characters that end a name or a pair. -/
structure CookieName where
  text : Str
  nonempty : text ≠ []
  plain : '=' ∉ text ∧ ';' ∉ text ∧ ' ' ∉ text

/-- A pair of a Cookie header. A value may have spaces and '='. -/
structure Cookie where
  name : CookieName
  value : Str
  closed : ';' ∉ value

def Cookie.render (c : Cookie) : Str := c.name.text ++ '=' :: c.value

/-- The header of the pairs, joined by "; ". -/
def cookieHeader (jar : List Cookie) : Str := [';', ' '].intercalate (jar.map Cookie.render)

/-- The value of the first cookie of that name, without the spaces around it. -/
def valueOf (jar : List Cookie) (name : CookieName) : Str :=
  match jar.find? fun c => c.name.text = name.text with
  | none => []
  | some c => trim ' ' c.value

/-- The text `name=` occurs in the pair: the name of the pair ends in it, or it stands in
the value. -/
def Mentions (name : CookieName) (c : Cookie) : Prop :=
  name.text <:+ c.name.text ∨ name.text ++ ['='] <:+: c.value

instance (name : CookieName) (c : Cookie) : Decidable (Mentions name c) :=
  decidable_of_iff (name.text <:+ c.name.text ∨ (find (name.text ++ ['=']) c.value).isSome) <|
    or_congr_right find_isSome_iff

/-- What follows `name=` in the pair, if it occurs there. -/
def mentioned (name : CookieName) (c : Cookie) : Option Str :=
  if name.text <:+ c.name.text then some c.value else after (name.text ++ ['=']) c.value

/-- The first pair that mentions the name has it, or what it says there is no other text. -/
def FirstMentionRight (jar : List Cookie) (name : CookieName) : Prop :=
  ∀ c, jar.find? (fun c => Mentions name c) = some c →
    c.name.text = name.text ∨ (mentioned name c).map (trim ' ') = some (valueOf jar name)

section Mentions

variable (name : CookieName)

private theorem search_ne_nil : name.text ++ ['='] ≠ [] := by simp

private theorem search_plain : ';' ∉ name.text ++ ['='] ∧ ' ' ∉ name.text ++ ['='] := by
  simp [name.plain.2.1, name.plain.2.2]

private theorem after_render (c : Cookie) :
    after (name.text ++ ['=']) c.render = mentioned name c := by
  obtain ⟨⟨text, filled, plain⟩, value, closed⟩ := c
  unfold Cookie.render mentioned
  simp only
  have unmarked : '=' ∉ text := plain.1
  clear plain filled
  induction text with
  | nil =>
    have start : ¬ name.text ++ ['='] <+: '=' :: value := by
      intro front
      cases h : name.text with
      | nil => exact name.nonempty h
      | cons a rest =>
        rw [h, List.cons_append] at front
        have eq_mark : a = '=' := (List.cons_prefix_cons.mp front).1
        exact name.plain.1 (by rw [h, eq_mark]; exact List.mem_cons_self)
    have other : ¬ name.text <:+ [] := mt List.suffix_nil.mp name.nonempty
    rw [List.nil_append, after_cons, if_neg start, if_neg other]
  | cons a text ih =>
    rw [List.mem_cons, not_or] at unmarked
    rw [List.cons_append, after_cons, ih unmarked.2]
    by_cases whole : name.text = a :: text
    · have front : name.text ++ ['='] <+: a :: (text ++ '=' :: value) := by
        rw [whole]
        exact ⟨value, by simp⟩
      rw [if_pos front, if_pos (by rw [whole]), whole]
      simp
    · have front : ¬ name.text ++ ['='] <+: a :: (text ++ '=' :: value) := by
        rintro ⟨rest, same⟩
        rw [List.append_assoc, ← List.cons_append] at same
        have split := congrArg (cut '=') same
        rw [List.singleton_append, cut_append_mark name.plain.1, cut_append_mark] at split
        · exact whole split
        · rw [List.mem_cons, not_or]
          exact unmarked
      rw [if_neg front]
      simp only [List.suffix_cons_iff, whole, false_or]

private theorem mentions_iff {c : Cookie} : Mentions name c ↔ (mentioned name c).isSome := by
  unfold Mentions mentioned
  split
  · simp [*]
  · simp [*, after_isSome_iff]

private theorem closed_mentioned {c : Cookie} {rest : Str} (h : mentioned name c = some rest) :
    ';' ∉ rest := by
  unfold mentioned at h
  split at h
  · cases h
    exact c.closed
  · exact fun mem => c.closed ((suffix_of_after h).subset mem)

private theorem after_cookieHeader (jar : List Cookie) :
    (after (name.text ++ ['=']) (cookieHeader jar)).map (cut ';') =
      (jar.find? fun c => Mentions name c).bind (mentioned name) := by
  induction jar with
  | nil =>
    rw [cookieHeader, List.map_nil, List.intercalate_nil, after_nil (search_ne_nil name)]
    rfl
  | cons c jar ih =>
    cases jar with
    | nil =>
      rw [cookieHeader, List.map_singleton, List.intercalate_singleton, after_render]
      by_cases h : Mentions name c
      · rw [List.find?_cons_of_pos (by simpa using h), Option.bind_some]
        cases hrest : mentioned name c with
        | none => rfl
        | some rest => rw [Option.map_some, cut_of_notMem (closed_mentioned name hrest)]
      · have none_ : mentioned name c = none := by
          rwa [mentions_iff, Option.not_isSome_iff_eq_none] at h
        rw [List.find?_cons_of_neg (by simpa using h), none_]
        rfl
    | cons d jar =>
      have join : cookieHeader (c :: d :: jar) =
          c.render ++ ';' :: ([] ++ ' ' :: cookieHeader (d :: jar)) := by
        simp [cookieHeader, List.intercalate]
      have blank : after (name.text ++ ['=']) ([] : Str) = none := after_nil (search_ne_nil name)
      rw [join, after_append_mark (search_ne_nil name) (search_plain name).1,
        after_append_mark (search_ne_nil name) (search_plain name).2, blank, after_render]
      by_cases h : Mentions name c
      · obtain ⟨rest, hrest⟩ := Option.isSome_iff_exists.mp ((mentions_iff name).mp h)
        rw [List.find?_cons_of_pos (by simpa using h), Option.bind_some, hrest]
        simp only [Option.map_some, cut_append_mark (closed_mentioned name hrest)]
      · have none_ : mentioned name c = none := by
          rwa [mentions_iff, Option.not_isSome_iff_eq_none] at h
        rw [List.find?_cons_of_neg (by simpa using h), none_]
        exact ih

private theorem mentions_of_name {c : Cookie} (h : c.name.text = name.text) : Mentions name c :=
  Or.inl (by rw [h])

private theorem mentioned_of_name {c : Cookie} (h : c.name.text = name.text) :
    mentioned name c = some c.value := if_pos (by rw [h])

private theorem extractCookie_cookieHeader (jar : List Cookie) :
    extractCookie (cookieHeader jar) name.text =
      match (jar.find? fun c => Mentions name c).bind (mentioned name) with
      | none => []
      | some rest => trim ' ' rest := by
  rw [extractCookie_eq, ← after_cookieHeader]
  cases after (name.text ++ ['=']) (cookieHeader jar) <;> rfl

private theorem valueOf_of_first {jar : List Cookie} {c : Cookie}
    (first : jar.find? (fun c => Mentions name c) = some c) (h : c.name.text = name.text) :
    valueOf jar name = trim ' ' c.value := by
  obtain ⟨-, before, rest, rfl, earlier⟩ := List.find?_eq_some_iff_append.mp first
  have found : (before ++ c :: rest).find? (fun c => c.name.text = name.text) = some c := by
    refine List.find?_eq_some_iff_append.mpr ⟨by simpa using h, before, rest, rfl, ?_⟩
    intro d hd
    have unmentioned : ¬ Mentions name d := by simpa using earlier d hd
    simpa using mt (mentions_of_name name) unmentioned
  rw [valueOf, found]

end Mentions

/-- The named cookie is found exactly when the first pair that mentions its name is the
first one of that name, or says the same. -/
theorem extractCookie_eq_valueOf_iff (jar : List Cookie) (name : CookieName) :
    extractCookie (cookieHeader jar) name.text = valueOf jar name ↔
      FirstMentionRight jar name := by
  rw [extractCookie_cookieHeader]
  cases first : jar.find? fun c => Mentions name c with
  | none =>
    have absent : jar.find? (fun c => c.name.text = name.text) = none := by
      rw [List.find?_eq_none] at first ⊢
      intro c hc
      simpa using mt (mentions_of_name name) (by simpa using first c hc)
    have right : FirstMentionRight jar name := by
      intro c hc
      rw [first] at hc
      cases hc
    simp [valueOf, absent, right]
  | some c =>
    have mentions : Mentions name c := by simpa using List.find?_some first
    obtain ⟨rest, hrest⟩ := Option.isSome_iff_exists.mp ((mentions_iff name).mp mentions)
    rw [Option.bind_some, hrest]
    constructor
    · intro right d hd
      rw [first] at hd
      cases hd
      exact Or.inr (by rw [hrest]; exact congrArg some right)
    · intro right
      rcases right c first with same | same
      · rw [valueOf_of_first name first same]
        rw [mentioned_of_name name same] at hrest
        cases hrest
        rfl
      · rw [hrest, Option.map_some] at same
        exact Option.some_inj.mp same

section Instance

def session : CookieName := ⟨"session".toList, by decide, by decide⟩

def xsession : CookieName := ⟨"xsession".toList, by decide, by decide⟩

/-- Another cookie whose name ends in the wanted one supplies its value. -/
theorem longer_name_hides_session :
    extractCookie (cookieHeader [⟨xsession, "a".toList, by decide⟩,
      ⟨session, "b".toList, by decide⟩]) session.text ≠
    valueOf [⟨xsession, "a".toList, by decide⟩, ⟨session, "b".toList, by decide⟩] session := by
  decide

end Instance

end Webengine.Results.CookieValues
