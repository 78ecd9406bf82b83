import Mathlib.Data.String.Basic
import Qapi.Override.Apply
import Qapi.Override.Nodes

/-!
# Deleting at a path with wildcards

A `delete` operation whose path has `*` segments. The wildcards are expanded once, on the
body as it was, into a list of routes; each route is joined with dots into a path, and
the paths are deleted one after another.

A route does what it should if none of its keys has a dot: it is then the path that
`sjson` reads back. The routes of a trailing `*` through an array do not, because the
items move up between the deletions.
-/

namespace Qapi.Override

open Qapi.Core List

/-! ## Matches and routes -/

/-- The routes of `collectWildcardPaths` that start with a segment, given those `below` each
child; a key that is the last segment is not looked up. -/
def routesFrom (segment : String) (isLast : Bool) (below : Json → List (List String)) :
    Json → List (List String)
  | .obj entries =>
    if segment = "" then []
    else if segment = "*" then
      (entries.insertionSort (·.1 ≤ ·.1)).flatMap fun e => (below e.2).map (e.1 :: ·)
    else if isLast then [[segment]]
    else match entries.lookup segment with
      | none => []
      | some next => (below next).map (segment :: ·)
  | .arr items =>
    if segment = "" then []
    else if segment = "*" then
      (items.zipIdx).flatMap fun e => (below e.1).map (toString e.2 :: ·)
    else match (indexOf segment).bind (items[·]?) with
      | none => []
      | some item => (below item).map (segment :: ·)
  | _ => []

/-- The keys and indexes on the way to each path of `collectWildcardPaths`. -/
def routes : Json → List String → List (List String)
  | _, [] => [[]]
  | node, segment :: rest =>
    routesFrom (trimSpace segment) rest.isEmpty (fun next => routes next rest) node

/-- The components that `sjson` reads in the joined route. -/
def spell (route : List String) : List String := route.flatMap fun key => split key '.'

def Dotted (route : List String) : Prop := ∃ key ∈ route, '.' ∈ key.toList

/-- The route has no dotted key and is not blank. -/
def Plain (route : List String) : Prop := ¬ Dotted route ∧ trimSpace (join route ".") ≠ ""

variable {route : List String}

theorem spell_cons (key : String) (route : List String) :
    spell (key :: route) = split key '.' ++ spell route := by
  simp [spell]

theorem length_le_spell (route : List String) : route.length ≤ (spell route).length := by
  induction route with
  | nil => exact Nat.le_refl 0
  | cons key route ih =>
    have hKey := length_pos_iff.mpr (split_ne_nil key '.')
    rw [spell_cons, length_append, length_cons]
    omega

theorem split_join_dots (h : route ≠ []) :
    split (join route ".") '.' = spell route := split_join rfl h

theorem length_le_one_of_blank (h : trimSpace (join route ".") = "") : route.length ≤ 1 := by
  by_cases hne : route = []
  · rw [hne]
    exact Nat.zero_le 1
  · rw [trimSpace_eq_empty] at h
    have hNoDot : '.' ∉ (join route ".").toList := fun hMem => by cases h '.' hMem
    have hLength := length_le_spell route
    rwa [← split_join_dots hne, split_of_notMem hNoDot] at hLength

end Qapi.Override
