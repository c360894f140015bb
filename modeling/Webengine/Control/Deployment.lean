/- source: backend/src/NginxController.cpp, backend/src/LighttpdController.cpp
   digest: The model of a deployment: its ports and the listen file the server runs on, and what
   the parts of a controller have to do for the whole to do what the model does. -/

import Webengine.Control.Behaviour

set_option autoImplicit false
set_option relaxedAutoImplicit false

namespace Webengine.Control.Deployment

open Webengine.Engine.Roles (Str)
open Webengine.Control.Host
open Webengine.Control.ProcessUtil
open Webengine.Control.Controllers
open Webengine.Control.Lifecycle
open Webengine.Control.Behaviour
open Webengine.Library.Calls
open Webengine.Library.Machines

variable {d : Daemon} {accepts : Str → Bool} {waits : Prop}

/-- What there is to know of a deployment: the ports, and the listen file the server runs on. -/
structure Model where
  http : Port
  https : Port
  served : Option Str

section Calls

variable (accepts : Str → Bool) (snippet : Port → Port → Str) (a : Model)

def Model.text : Str := snippet a.http a.https

/-- Serve the listen file as it is now. -/
def Model.serving : Model := { a with served := some (a.text snippet) }

def Model.on : Bool × Model :=
  if a.served.isSome then (true, a)
  else if accepts (a.text snippet) then (true, a.serving snippet) else (false, a)

def Model.off : Bool × Model := (true, { a with served := none })

def Model.reset : Bool × Model := Model.on accepts snippet { a with served := none }

def Model.reload : Bool × Model :=
  if a.served.isSome && accepts (a.text snippet) then (true, a.serving snippet) else (false, a)

/-- The new ports are kept unless a running server cannot take them. -/
def Model.setListenPorts (http https : Port) : Bool × Model :=
  let b := { a with http := http, https := https }
  if a.served.isNone then (true, b)
  else if accepts (b.text snippet) then (true, b.serving snippet) else (false, a)

def Model.step : Call → Bool × Model
  | .on => a.on accepts snippet
  | .off => a.off
  | .reset => a.reset accepts snippet
  | .reload => a.reload accepts snippet
  | .setListenPort http => a.setListenPorts accepts snippet http a.https
  | .setListenPorts http https => a.setListenPorts accepts snippet http https
  | .isRunning => (a.served.isSome, a)
  | .testConfig => (accepts (a.text snippet), a)
  | .pause => (true, a)

end Calls

/-- The system is as the model says. -/
def Model.Is (d : Daemon) (waits : Prop) (snippet : Port → Port → Str) (a : Model) :
    State → Prop :=
  Shows d waits a.http a.https (a.text snippet) a.served

/-- If the outside world behaves, the program does what the model does. -/
def Meets (d : Daemon) (accepts : Str → Bool) (waits : Prop) (snippet : Port → Port → Str)
    (p : Code Bool) (f : Model → Bool × Model) : Prop :=
  ∀ a s, a.Is d waits snippet s → wpIf (host d) (Behaves d accepts waits) p
    (fun r s' => r = (f a).1 ∧ (f a).2.Is d waits snippet s') s

section Rules

variable {snippet : Port → Port → Str} {isRunning testConfig off on reload : Code Bool}
  {name : Str}

theorem Meets.resetWith
    (probes : Meets d accepts waits snippet isRunning fun a => (a.served.isSome, a))
    (stops : Meets d accepts waits snippet off Model.off)
    (starts : Meets d accepts waits snippet on (Model.on accepts snippet)) :
    Meets d accepts waits snippet (resetWith name isRunning off on)
      (Model.reset accepts snippet) := by
  intro a s h
  obtain ⟨http, https, served⟩ := a
  -- the first probe after the stop says that it has stopped
  refine wpIf_resetWith (P := Model.Is d waits snippet ⟨http, https, served⟩)
    (F := Model.Is d waits snippet ⟨http, https, none⟩) (U := fun _ => False)
    (wpIf_mono (probes _ s h) ?_) (fun s h => wpIf_mono (stops _ s h) ?_)
    (fun s h => wpIf_mono (probes _ s h) ?_) (fun _ _ no => False.elim no)
    (fun _ h => h) (fun _ _ no => False.elim no) (starts _)
  · intro up s' outcome
    obtain ⟨rfl, is'⟩ := outcome
    cases served with
    | none => exact is'
    | some want => exact is'
  · intro stopped s' outcome
    obtain ⟨rfl, is'⟩ := outcome
    exact is'
  · intro up s' outcome
    obtain ⟨rfl, is'⟩ := outcome
    exact is'

theorem Meets.reloadWith {apply : Code Bool}
    (probes : Meets d accepts waits snippet isRunning fun a => (a.served.isSome, a))
    (tests : Meets d accepts waits snippet testConfig fun a => (accepts (a.text snippet), a))
    (applies : ∀ (a : Model) s, a.served.isSome → accepts (a.text snippet) = true →
      a.Is d waits snippet s → wpIf (host d) (Behaves d accepts waits) apply
        (fun r s' => r = true ∧ (a.serving snippet).Is d waits snippet s') s) :
    Meets d accepts waits snippet (reloadWith name isRunning testConfig apply)
      (Model.reload accepts snippet) := by
  intro a s h
  obtain ⟨http, https, served⟩ := a
  unfold Controllers.reloadWith
  rw [wpIf_bind]
  refine wpIf_mono (probes _ s h) ?_
  intro up s' outcome
  obtain ⟨rfl, is'⟩ := outcome
  cases served with
  | none => exact fails_shows _ is'
  | some want =>
    change wpIf (host d) _ (testConfig >>= _) _ s'
    rw [wpIf_bind]
    refine wpIf_mono (tests _ s' is') ?_
    intro passed s₁ outcome
    obtain ⟨rfl, is₁⟩ := outcome
    by_cases passed : accepts (Model.text snippet ⟨http, https, some want⟩) = true
    · simp only [Model.reload, passed, Option.isSome_some, Bool.and_self, Bool.not_true,
        Bool.false_eq_true, if_false, if_true]
      exact applies ⟨http, https, some want⟩ s₁ rfl passed is₁
    · rw [Bool.not_eq_true] at passed
      simp only [Model.reload, passed, Bool.and_false, Bool.not_false, Bool.false_eq_true, if_false,
        if_true]
      exact ⟨rfl, is₁⟩

theorem Meets.setListenPortsWith {writeListenSnippet : Code Bool}
    (probes : Meets d accepts waits snippet isRunning fun a => (a.served.isSome, a))
    (reloads : Meets d accepts waits snippet reload (Model.reload accepts snippet))
    (writes : ∀ http https served s, s.http = http → s.https = https → Serves d waits served s →
      wpIf (host d) (Behaves d accepts waits) writeListenSnippet (fun written s' =>
        written = true ∧ Model.Is d waits snippet ⟨http, https, served⟩ s') s)
    (http https : Port) :
    Meets d accepts waits snippet
      (Controllers.setListenPortsWith writeListenSnippet isRunning reload http https)
      (fun a => a.setListenPorts accepts snippet http https) := by
  intro a s h
  obtain ⟨prevHttp, prevHttps, served⟩ := a
  refine readPorts_shows h fun s₁ is₁ => ?_
  refine setPorts_serves is₁.serves fun s₂ sameHttp sameHttps serves => ?_
  rw [wpIf_bind]
  refine wpIf_mono (writes _ _ _ s₂ sameHttp sameHttps serves) ?_
  intro written s₃ outcome
  obtain ⟨rfl, is₃⟩ := outcome
  simp only [if_true]
  rw [wpIf_bind]
  refine wpIf_mono (probes _ s₃ is₃) ?_
  intro up s₄ outcome
  obtain ⟨rfl, is₄⟩ := outcome
  cases served with
  | none => exact ⟨rfl, is₄⟩
  | some want =>
    simp only [Option.isSome_some, if_true]
    rw [wpIf_bind]
    refine wpIf_mono (reloads _ s₄ is₄) ?_
    intro done s₅ outcome
    obtain ⟨rfl, is₅⟩ := outcome
    simp only [Model.reload, Option.isSome_some, Bool.true_and, Model.setListenPorts,
      Option.isNone_some, Bool.false_eq_true, if_false] at is₅ ⊢
    cases passed : accepts (Model.text snippet ⟨http, https, some want⟩) with
    | true =>
      rw [passed] at is₅
      exact ⟨rfl, is₅⟩
    | false =>
      rw [passed] at is₅
      -- the old ports are written back
      refine setPorts_serves is₅.serves fun s₆ sameHttp sameHttps serves => ?_
      rw [wpIf_bind]
      refine wpIf_mono (writes _ _ _ s₆ sameHttp sameHttps serves) ?_
      intro written s₇ outcome
      obtain ⟨-, is₇⟩ := outcome
      exact ⟨rfl, is₇⟩

theorem Meets.setListenPortWith {setListenPorts : Port → Port → Code Bool} (http : Port)
    (sets : ∀ https, Meets d accepts waits snippet (setListenPorts http https)
      (fun a => a.setListenPorts accepts snippet http https)) :
    Meets d accepts waits snippet (Controllers.setListenPortWith setListenPorts http)
      (fun a => a.setListenPorts accepts snippet http a.https) := by
  intro a s h env behaves
  have read : (hostStep d env s .httpsPort).1 = a.https := (arrive_https env).trans h.https
  change wpIf (host d) _ (setListenPorts http (hostStep d env s .httpsPort).1) _
    (hostStep d env s .httpsPort).2
  rw [read]
  exact sets a.https a _ (h.step behaves trivial)

theorem Meets.onWith {ensureDirs writeListenSnippet : Code Bool} {start : Code Bool}
    (probes : Meets d accepts waits snippet isRunning fun a => (a.served.isSome, a))
    (mkdirs : Meets d accepts waits snippet ensureDirs fun a => (true, a))
    (writes : ∀ http https served s, s.http = http → s.https = https → Serves d waits served s →
      wpIf (host d) (Behaves d accepts waits) writeListenSnippet (fun written s' =>
        written = true ∧ Model.Is d waits snippet ⟨http, https, served⟩ s') s)
    (tests : Meets d accepts waits snippet testConfig fun a => (accepts (a.text snippet), a))
    (starts : ∀ (a : Model) s, a.served = none → a.Is d waits snippet s →
      wpIf (host d) (Behaves d accepts waits) start
        (fun r s' => r = true ∧ (a.serving snippet).Is d waits snippet s') s) :
    Meets d accepts waits snippet (do
      if ← isRunning then pure true
      else if !(← ensureDirs) then pure false
      else if !(← writeListenSnippet) then pure false
      else if !(← testConfig) then pure false
      else start) (Model.on accepts snippet) := by
  intro a s h
  obtain ⟨http, https, served⟩ := a
  rw [wpIf_bind]
  refine wpIf_mono (probes _ s h) ?_
  intro up s₁ outcome
  obtain ⟨rfl, is₁⟩ := outcome
  cases served with
  | some want => exact ⟨rfl, is₁⟩
  | none =>
    change wpIf (host d) _ (ensureDirs >>= _) _ s₁
    rw [wpIf_bind]
    refine wpIf_mono (mkdirs _ s₁ is₁) ?_
    intro made s₂ outcome
    obtain ⟨rfl, is₂⟩ := outcome
    change wpIf (host d) _ (writeListenSnippet >>= _) _ s₂
    rw [wpIf_bind]
    refine wpIf_mono (writes _ _ _ s₂ is₂.http is₂.https is₂.serves) ?_
    intro written s₃ outcome
    obtain ⟨rfl, is₃⟩ := outcome
    change wpIf (host d) _ (testConfig >>= _) _ s₃
    rw [wpIf_bind]
    refine wpIf_mono (tests _ s₃ is₃) ?_
    intro passed s₄ outcome
    obtain ⟨rfl, is₄⟩ := outcome
    by_cases passed : accepts (Model.text snippet ⟨http, https, none⟩) = true
    · simp only [Model.on, passed, Option.isSome_none, Bool.not_true, Bool.false_eq_true, if_false,
        if_true]
      exact starts ⟨http, https, none⟩ s₄ rfl is₄
    · rw [Bool.not_eq_true] at passed
      simp only [Model.on, passed, Option.isSome_none, Bool.not_false, Bool.false_eq_true, if_false,
        if_true]
      exact ⟨rfl, is₄⟩

end Rules

end Webengine.Control.Deployment
