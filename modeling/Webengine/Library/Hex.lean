/- digest: Bytes as pairs of lower-case hexadecimal digits, and the values of digits.
   uses: nothing of the modelled repository. -/

import Mathlib.Data.List.Basic
import Mathlib.Data.Nat.Notation

set_option autoImplicit false
set_option relaxedAutoImplicit false

namespace Webengine.Library.Hex

/-- Two lower-case digits, the first of them zero for a small byte. -/
def hexByte (b : UInt8) : List Char := (Nat.toDigits 16 b.toNat).leftpad 2 '0'

def hexText (bytes : List UInt8) : List Char := bytes.flatMap hexByte

def hexValue (c : Char) : Option Nat :=
  if '0' ≤ c ∧ c ≤ '9' then some (c.toNat - '0'.toNat)
  else if 'a' ≤ c ∧ c ≤ 'f' then some (c.toNat - 'a'.toNat + 10)
  else if 'A' ≤ c ∧ c ≤ 'F' then some (c.toNat - 'A'.toNat + 10)
  else none

/-- The number a text of digits stands for. -/
def hexNumber (digits : List Char) : Nat :=
  digits.foldl (fun n c => 16 * n + (hexValue c).getD 0) 0

private theorem hex_digits (n : Fin 256) :
    ((Nat.toDigits 16 n.val).leftpad 2 '0').length = 2 ∧
      hexNumber ((Nat.toDigits 16 n.val).leftpad 2 '0') = n.val := by
  revert n
  decide +kernel

private theorem hex_values (n : Fin 256) :
    (((Nat.toDigits 16 n.val).leftpad 2 '0').all fun c => (hexValue c).isSome) = true := by
  revert n
  decide +kernel

@[simp] theorem length_hexByte (b : UInt8) : (hexByte b).length = 2 :=
  (hex_digits b.toFin).1

@[simp] theorem hexNumber_hexByte (b : UInt8) : hexNumber (hexByte b) = b.toNat :=
  (hex_digits b.toFin).2

theorem isSome_hexValue_of_mem {b : UInt8} {c : Char} (h : c ∈ hexByte b) :
    (hexValue c).isSome :=
  List.all_eq_true.mp (hex_values b.toFin) c h

theorem isSome_hexValue_of_mem_hexText {bytes : List UInt8} {c : Char} (h : c ∈ hexText bytes) :
    (hexValue c).isSome := by
  obtain ⟨b, -, mem⟩ := List.mem_flatMap.mp h
  exact isSome_hexValue_of_mem mem

theorem hexByte_injective : Function.Injective hexByte := by
  intro a b h
  have same : hexNumber (hexByte a) = hexNumber (hexByte b) := congrArg hexNumber h
  rw [hexNumber_hexByte, hexNumber_hexByte] at same
  exact UInt8.toNat_inj.mp same

theorem hexText_injective : Function.Injective hexText := by
  intro xs
  induction xs with
  | nil =>
    intro ys h
    cases ys with
    | nil => rfl
    | cons y ys =>
      have hlen := congrArg List.length h
      simp [hexText] at hlen
      omega
  | cons x xs ih =>
    intro ys h
    cases ys with
    | nil =>
      have hlen := congrArg List.length h
      simp [hexText] at hlen
    | cons y ys =>
      simp only [hexText, List.flatMap_cons] at h
      obtain ⟨hx, hxs⟩ := List.append_inj h (by simp)
      rw [hexByte_injective hx, ih hxs]

end Webengine.Library.Hex
