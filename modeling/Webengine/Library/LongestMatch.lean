/- digest: The entry with the longest key that begins a text: the scanning loop, and the
   lookup in a finite map that it computes.
   uses: nothing of the modelled repository. -/

import Webengine.Library.KeyedLists
import Mathlib.Data.List.Infix
import Mathlib.Data.List.MinMax

set_option autoImplicit false
set_option relaxedAutoImplicit false

namespace Webengine.Library.LongestMatch

open Webengine.Library.KeyedLists (assoc assoc_eq_some_iff assoc_of_mem)

variable {ε α β : Type}

section Scan

variable (test : ε → Bool) (size : ε → Nat)

/-- One round of the loop: keep the best entry so far unless this one is larger. -/
def scanStep (best : Option ε) (e : ε) : Option ε :=
  if test e then
    match best with
    | none => some e
    | some b => if size b < size e then some e else some b
  else best

/-- The first of the largest entries that pass the test. -/
def scan (l : List ε) : Option ε := l.foldl (scanStep test size) none

theorem scan_eq_argmax (l : List ε) : scan test size l = (l.filter test).argmax size := by
  induction l using List.reverseRecOn with
  | nil => rfl
  | append_singleton l e ih =>
    have step : scan test size (l ++ [e]) = scanStep test size (scan test size l) e := by
      simp [scan]
    rw [step, ih, List.filter_append]
    by_cases he : test e
    · simp only [scanStep, he, if_true, List.filter_cons, List.filter_nil, List.argmax_concat]
      cases (l.filter test).argmax size <;> rfl
    · simp [scanStep, he]

variable {test size}

theorem scan_eq_none_iff {l : List ε} :
    scan test size l = none ↔ ∀ e ∈ l, test e = false := by
  rw [scan_eq_argmax, List.argmax_eq_none, List.filter_eq_nil_iff]
  simp

private theorem mem_of_scan {l : List ε} {b : ε} (h : scan test size l = some b) :
    b ∈ l ∧ test b = true := by
  rw [scan_eq_argmax] at h
  exact List.mem_filter.mp (List.argmax_mem h)

private theorem le_of_scan {l : List ε} {b e : ε} (h : scan test size l = some b) (he : e ∈ l)
    (ht : test e = true) : size e ≤ size b := by
  rw [scan_eq_argmax] at h
  exact List.le_of_mem_argmax (List.mem_filter.mpr ⟨he, ht⟩) h

end Scan

/-- `k` is the longest key of the map that begins `path`. -/
def Longest (M : List α → Option β) (path k : List α) : Prop :=
  (M k).isSome ∧ k <+: path ∧ ∀ q, (M q).isSome → q <+: path → q.length ≤ k.length

/-- No key of the map begins `path`. -/
def NoKey (M : List α → Option β) (path : List α) : Prop := ∀ q, q <+: path → M q = none

theorem Longest.unique {M : List α → Option β} {path k k' : List α} (h : Longest M path k)
    (h' : Longest M path k') : k = k' := by
  have hlen : k.length = k'.length :=
    le_antisymm (h'.2.2 k h.1 h.2.1) (h.2.2 k' h'.1 h'.2.1)
  exact (List.prefix_of_prefix_length_le h.2.1 h'.2.1 hlen.le).eq_of_length hlen

/-- The value of the map at its longest key that begins `path`. -/
def lookup (M : List α → Option β) (path : List α) : Option β :=
  path.inits.reverse.findSome? M

theorem lookup_snoc (M : List α → Option β) (path : List α) (c : α) :
    lookup M (path ++ [c]) = (M (path ++ [c])).or (lookup M path) := by
  simp only [lookup, List.inits_append, List.reverse_append, List.findSome?_append]
  simp

theorem lookup_eq_none_iff {M : List α → Option β} {path : List α} :
    lookup M path = none ↔ NoKey M path := by
  simp [lookup, NoKey, List.findSome?_eq_none_iff]

theorem lookup_of_longest {M : List α → Option β} {path k : List α} (h : Longest M path k) :
    lookup M path = M k := by
  induction path using List.reverseRecOn with
  | nil =>
    obtain rfl := List.prefix_nil.mp h.2.1
    simp [lookup]
  | append_singleton path c ih =>
    rw [lookup_snoc]
    obtain ⟨hk, hpre, hmax⟩ := h
    by_cases hfull : (M (path ++ [c])).isSome
    · have hlen := hmax _ hfull (List.prefix_refl _)
      obtain rfl := hpre.eq_of_length (le_antisymm hpre.length_le hlen)
      obtain ⟨v, hv⟩ := Option.isSome_iff_exists.mp hk
      rw [hv, Option.some_or]
    · rw [Option.not_isSome_iff_eq_none] at hfull
      rw [hfull, Option.none_or]
      have hpre' : k <+: path := by
        rcases List.prefix_concat_iff.mp hpre with rfl | hp
        · simp [hfull] at hk
        · exact hp
      exact ih ⟨hk, hpre', fun q hq hqp => hmax q hq (hqp.trans (List.prefix_append _ _))⟩

theorem exists_longest {M : List α → Option β} {path q : List α} (hq : (M q).isSome)
    (hp : q <+: path) : ∃ k, Longest M path k := by
  induction path using List.reverseRecOn with
  | nil =>
    obtain rfl := List.prefix_nil.mp hp
    exact ⟨[], hq, List.prefix_refl _, fun r _ hr => by simp [List.prefix_nil.mp hr]⟩
  | append_singleton path c ih =>
    by_cases hfull : (M (path ++ [c])).isSome
    · exact ⟨_, hfull, List.prefix_refl _, fun r _ hr => hr.length_le⟩
    · have shorter : ∀ r, (M r).isSome → r <+: path ++ [c] → r <+: path := by
        intro r hr hrp
        rcases List.prefix_concat_iff.mp hrp with rfl | h
        · exact absurd hr hfull
        · exact h
      obtain ⟨k, hk, hkp, hmax⟩ := ih (shorter q hq hp)
      exact ⟨k, hk, hkp.trans (List.prefix_append _ _),
        fun r hr hrp => hmax r hr (shorter r hr hrp)⟩

theorem lookup_eq_some_iff {M : List α → Option β} {path : List α} {v : β} :
    lookup M path = some v ↔ ∃ k, Longest M path k ∧ M k = some v := by
  constructor
  · intro h
    have hsome : ¬ NoKey M path := by
      rw [← lookup_eq_none_iff, h]
      simp
    obtain ⟨q, hq, hne⟩ : ∃ q, q <+: path ∧ M q ≠ none := by
      simpa [NoKey] using hsome
    obtain ⟨k, hk⟩ := exists_longest (Option.isSome_iff_ne_none.mpr hne) hq
    exact ⟨k, hk, (lookup_of_longest hk).symm.trans h⟩
  · rintro ⟨k, hk, hv⟩
    rw [lookup_of_longest hk, hv]

theorem lookup_congr {M M' : List α → Option β} {path : List α}
    (h : ∀ q, q <+: path → M q = M' q) : lookup M path = lookup M' path := by
  induction path using List.reverseRecOn with
  | nil => simp [lookup, h [] (List.prefix_refl _)]
  | append_singleton path c ih =>
    rw [lookup_snoc, lookup_snoc, h _ (List.prefix_refl _),
      ih fun q hq => h q (hq.trans (List.prefix_append _ _))]

/-- A change at one key is seen only where no longer key begins the text. -/
theorem lookup_eq_of_longer {M M' : List α → Option β} {path k q : List α}
    (h : ∀ r, r ≠ q → M r = M' r) (hk : (M k).isSome) (hkp : k <+: path)
    (hlt : q.length < k.length) : lookup M path = lookup M' path := by
  have hne : ∀ r : List α, q.length < r.length → r ≠ q := by
    rintro r hr rfl
    exact lt_irrefl _ hr
  obtain ⟨b, hb⟩ := exists_longest hk hkp
  have hbq : q.length < b.length := hlt.trans_le (hb.2.2 k hk hkp)
  have hb' : Longest M' path b := by
    refine ⟨h b (hne b hbq) ▸ hb.1, hb.2.1, fun r hr hrp => ?_⟩
    by_cases hrq : r = q
    · exact hrq ▸ hbq.le
    · exact hb.2.2 r (h r hrq ▸ hr) hrp
  rw [lookup_of_longest hb, lookup_of_longest hb', h b (hne b hbq)]

variable [DecidableEq α]

/-- The scanning loop over entries with unique keys is the lookup in their map. -/
theorem scan_eq_lookup {key : ε → List α} (val : ε → β) (sel : ε → Bool) {l : List ε}
    (nodup : ((l.filter sel).map key).Nodup) (path : List α) :
    (scan (fun e => sel e && (key e).isPrefixOf path) (fun e => (key e).length) l).map val =
      lookup (assoc key val (l.filter sel)) path := by
  cases h : scan (fun e => sel e && (key e).isPrefixOf path) (fun e => (key e).length) l with
  | none =>
    rw [scan_eq_none_iff] at h
    rw [Option.map_none, eq_comm, lookup_eq_none_iff]
    intro q hq
    rw [KeyedLists.assoc_eq_none_iff]
    rintro e he rfl
    obtain ⟨hl, hs⟩ := List.mem_filter.mp he
    have := h e hl
    simp [hs, List.isPrefixOf_iff_prefix.mpr hq] at this
  | some b =>
    have hb := mem_of_scan h
    simp only [Bool.and_eq_true, List.isPrefixOf_iff_prefix] at hb
    have hmem : b ∈ l.filter sel := List.mem_filter.mpr ⟨hb.1, hb.2.1⟩
    have hval : assoc key val (l.filter sel) (key b) = some (val b) := assoc_of_mem nodup hmem
    have hlong : Longest (assoc key val (l.filter sel)) path (key b) := by
      refine ⟨by rw [hval]; rfl, hb.2.2, fun q hq hqp => ?_⟩
      obtain ⟨v, hv⟩ := Option.isSome_iff_exists.mp hq
      obtain ⟨e, he, hkey, -⟩ := (assoc_eq_some_iff nodup).mp hv
      obtain ⟨hl, hs⟩ := List.mem_filter.mp he
      subst hkey
      have hle := le_of_scan h hl (by simp [hs, List.isPrefixOf_iff_prefix.mpr hqp])
      exact hle
    rw [Option.map_some, lookup_of_longest hlong, hval]

theorem scan_all_eq_lookup {key : ε → List α} {val : ε → β} {l : List ε}
    (nodup : (l.map key).Nodup) (path : List α) :
    (scan (fun e => (key e).isPrefixOf path) (fun e => (key e).length) l).map val =
      lookup (assoc key val l) path := by
  have h := scan_eq_lookup val (fun _ : ε => true) (l := l) (by simpa using nodup) path
  simpa using h

end Webengine.Library.LongestMatch
