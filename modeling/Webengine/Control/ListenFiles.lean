/- source: backend/src/NginxController.cpp, backend/src/LighttpdController.cpp
   (write_listen_snippet)
   digest: The ports a server listens on when it was configured from a listen file. -/

import Webengine.Control.Lighttpd
import Webengine.Control.Nginx

set_option autoImplicit false
set_option relaxedAutoImplicit false

namespace Webengine.Control.ListenFiles

open Webengine.Engine.Roles (Str)
open Webengine.Control.Host (Port)
open Webengine.Control.Controllers (portText)
open Webengine.Library.Decimals
open Webengine.Library.Texts (strip strip_append)

/-- The port at the front of a text, and what follows it. -/
def portAt (text : Str) : Option (Port × Str) := do
  let n ← scanNat text
  if n < 65536 then some (.ofNat n, text.dropWhile Char.isDigit) else none

private theorem portAt_append (port : Port) {rest : Str}
    (ends : ∀ c ∈ rest.head?, c.isDigit = false) :
    portAt (portText port ++ rest) = some (port, rest) := by
  have small : port.toNat < 65536 := port.toNat_lt
  rw [portAt, portText, scanNat_decimal_append _ ends, dropWhile_decimal_append _ ends]
  simp only [Option.bind_eq_bind, Option.bind_some, if_pos small, UInt16.ofNat_toNat]

/-- The HTTP port, and the HTTPS port if there is one. -/
abbrev Ports := Port × Option Port

def nginxPorts (text : Str) : Option Ports := do
  let (http, rest) ← portAt (← strip "listen ".toList text)
  let rest ← strip ";\n".toList rest
  if rest = [] then some (http, none)
  else
    let (https, rest) ← portAt (← strip "listen ".toList rest)
    if rest = " ssl;\n".toList then some (http, some https) else none

def lighttpdPorts (text : Str) : Option Ports := do
  let (http, rest) ← portAt (← strip "server.port = ".toList text)
  let rest ← strip "\n".toList rest
  if rest = [] then some (http, none)
  else
    let (https, rest) ← portAt (← strip "$SERVER[\"socket\"] == \"0.0.0.0:".toList rest)
    let _ ← strip "\" \x7b\n".toList rest
    some (http, some https)

/-- The verdict on the ports of a listen file. -/
def verdict (V : Ports → Bool) (ports : Str → Option Ports) (text : Str) : Bool :=
  (ports text).all V

/-- The ports of a snippet. -/
def portsIf (httpsEnabled : Bool) (http https : Port) : Ports :=
  (http, if httpsEnabled then some https else none)

private theorem portAt_mark (port : Port) {mark : Char} (h : mark.isDigit = false) (rest : Str) :
    portAt (portText port ++ mark :: rest) = some (port, mark :: rest) := by
  refine portAt_append port fun c hc => ?_
  cases hc
  exact h

theorem nginxPorts_snippet (opts : Nginx.Options) (http https : Port) :
    nginxPorts (Nginx.snippet opts http https) = some (portsIf opts.httpsEnabled http https) := by
  have first : ∀ rest, portAt (portText http ++ (";\n".toList ++ rest)) =
      some (http, ";\n".toList ++ rest) := fun rest => portAt_mark http (by decide) _
  have second : portAt (portText https ++ " ssl;\n".toList) = some (https, " ssl;\n".toList) :=
    portAt_mark https (by decide) _
  unfold Nginx.snippet nginxPorts portsIf
  simp only [List.append_assoc, strip_append, Option.bind_eq_bind, Option.bind_some, first]
  cases opts.httpsEnabled with
  | false => rfl
  | true =>
    have more : ¬ "listen ".toList ++ (portText https ++ " ssl;\n".toList) = [] :=
      List.cons_ne_nil _ _
    simp only [if_true]
    rw [if_neg more, strip_append, Option.bind_some, second, Option.bind_some]
    exact if_pos rfl

theorem lighttpdPorts_snippet (opts : Lighttpd.Options) (http https : Port) :
    lighttpdPorts (Lighttpd.snippet opts http https) =
      some (portsIf opts.httpsEnabled http https) := by
  have first : ∀ rest, portAt (portText http ++ ("\n".toList ++ rest)) =
      some (http, "\n".toList ++ rest) := fun rest => portAt_mark http (by decide) _
  have second : ∀ rest, portAt (portText https ++ ("\" \x7b\n".toList ++ rest)) =
      some (https, "\" \x7b\n".toList ++ rest) := fun rest => portAt_mark https (by decide) _
  unfold Lighttpd.snippet lighttpdPorts portsIf
  simp only [List.append_assoc, strip_append, Option.bind_eq_bind, Option.bind_some, first]
  cases opts.httpsEnabled with
  | false => rfl
  | true =>
    have more : ∀ rest : Str, ¬ "$SERVER[\"socket\"] == \"0.0.0.0:".toList ++ rest = [] :=
      fun rest => List.cons_ne_nil _ _
    simp only [if_true, if_neg (more _), strip_append, Option.bind_some, second]

end Webengine.Control.ListenFiles
