import Mathlib.Data.List.Nodup
import Qapi.Override.Value

/-!
# The nodes of a JSON value

`without` removes from a value the nodes that a list of steps selects, and leaves every
other node where it is. One step selects children of an object by their keys and of an
array by their indexes: exactly one for the paths of `sjson` (`deletePath`), all of them
for a wildcard.
-/

namespace Qapi.Override

open Qapi.Core List

/-- Which children of an object and of an array a step selects. -/
structure Selector (S : Type) where
  key : S → String → Bool
  index : S → Nat → Bool

/-- The nodes that the steps select. -/
def selected {S : Type} (sel : Selector S) : Json → List S → List Json
  | node, [] => [node]
  | .obj entries, s :: rest => entries.flatMap fun e =>
      if sel.key s e.1 then selected sel e.2 rest else []
  | .arr items, s :: rest => items.zipIdx.flatMap fun e =>
      if sel.index s e.2 then selected sel e.1 rest else []
  | _, _ :: _ => []

/-- The objects have distinct keys, as decoded ones do. -/
inductive Keyed : Json → Prop
  | null : Keyed .null
  | bool (b : Bool) : Keyed (.bool b)
  | num (q : ℚ) : Keyed (.num q)
  | str (s : String) : Keyed (.str s)
  | arr {items : List Json} (h : ∀ v ∈ items, Keyed v) : Keyed (.arr items)
  | obj {entries : Entries} (hKeys : (entries.map (·.1)).Nodup) (h : ∀ e ∈ entries, Keyed e.2) :
      Keyed (.obj entries)

section Without

variable {S : Type} {sel : Selector S} {entries : Entries} {items : List Json} {s : S}
  {rest : List S}

end Without

/-! ## Paths -/

/-- The index of an array that a component of a path names. -/
def indexOf (component : String) : Option Nat :=
  (atoi component).bind fun i => if 0 ≤ i then some i.toNat else none

theorem indexOf_plain {component : String} {i : Nat} (h : indexOf component = some i) :
    '.' ∉ component.toList ∧ trimSpace component ≠ "" := by
  obtain ⟨n, hn, -⟩ := Option.bind_eq_some_iff.mp h
  exact atoi_plain hn

section Paths

variable {paths : List (List String)}

end Paths

end Qapi.Override
