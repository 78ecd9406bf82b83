import Qapi.Core.Text

/-!
# Addresses with a port

An endpoint is written as a host and a port with a colon between them, where a host that has
colons of its own stands in brackets. `splitHostPort` takes such a text apart and
`joinHostPort` writes one; `splitHostPort_joinHostPort` is the round trip for hosts without
brackets.
-/

namespace Qapi.Core

open List

/-- The characters before and after the last occurrence of `c`. -/
def cutLast (c : Char) : List Char → Option (List Char × List Char)
  | [] => none
  | a :: l =>
    match cutLast c l with
    | some (before, rest) => some (a :: before, rest)
    | none => if a = c then some ([], l) else none

theorem cutLast_of_notMem {c : Char} {l : List Char} (h : c ∉ l) : cutLast c l = none := by
  induction l with
  | nil => rfl
  | cons a l ih =>
    rw [mem_cons, not_or] at h
    rw [cutLast, ih h.2]
    exact if_neg fun hEq => h.1 hEq.symm

theorem cutLast_append {c : Char} {rest : List Char} (h : c ∉ rest) (before : List Char) :
    cutLast c (before ++ c :: rest) = some (before, rest) := by
  induction before with
  | nil =>
    rw [nil_append, cutLast, cutLast_of_notMem h]
    exact if_pos rfl
  | cons a before ih => rw [cons_append, cutLast, ih]

def missingPort : String := "missing port in address"

def tooManyColons : String := "too many colons in address"

/-- The text of a `net.AddrError`. -/
def addrErr (addr why : String) : String :=
  if addr = "" then why else "address " ++ addr ++ ": " ++ why

/-- `net.SplitHostPort`. -/
def splitHostPort (hostport : String) : Except String (String × String) :=
  let s := hostport.toList
  match cutLast ':' s with
  | none => .error (addrErr hostport missingPort)
  | some (front, port) =>
    if s.head? = some '[' then
      -- the first closing bracket stands right before the last colon
      let stop := s.idxOf ']'
      if ']' ∉ s then .error (addrErr hostport "missing ']' in address")
      else if stop + 1 = s.length then .error (addrErr hostport missingPort)
      else if stop + 1 ≠ front.length then
        .error (addrErr hostport
          (if (s.drop (stop + 1)).head? = some ':' then tooManyColons else missingPort))
      else if '[' ∈ s.drop 1 then .error (addrErr hostport "unexpected '[' in address")
      else if ']' ∈ s.drop (stop + 1) then .error (addrErr hostport "unexpected ']' in address")
      else .ok (String.ofList ((s.take stop).drop 1), String.ofList port)
    else if ':' ∈ front then .error (addrErr hostport tooManyColons)
    else if '[' ∈ s then .error (addrErr hostport "unexpected '[' in address")
    else if ']' ∈ s then .error (addrErr hostport "unexpected ']' in address")
    else .ok (String.ofList front, String.ofList port)

/-- `net.JoinHostPort`. -/
def joinHostPort (host port : String) : String :=
  if ':' ∈ host.toList then "[" ++ host ++ "]:" ++ port else host ++ ":" ++ port

example : splitHostPort "[::1]:443" = .ok ("::1", "443") := by decide

example : splitHostPort "::1:443" = .error "address ::1:443: too many colons in address" := by
  decide

theorem splitHostPort_joinHostPort {host port : String} (hOpen : '[' ∉ host.toList)
    (hClose : ']' ∉ host.toList) (hColon : ':' ∉ port.toList) (hPortOpen : '[' ∉ port.toList)
    (hPortClose : ']' ∉ port.toList) :
    splitHostPort (joinHostPort host port) = .ok (host, port) := by
  unfold joinHostPort
  split
  · have hList : ("[" ++ host ++ "]:" ++ port).toList =
        ('[' :: host.toList ++ [']']) ++ ':' :: port.toList := by
      simp [String.toList_append]
    have hStop : (('[' :: host.toList ++ [']']) ++ ':' :: port.toList).idxOf ']' =
        host.toList.length + 1 := by
      rw [append_assoc, idxOf_append_of_notMem (by simp [hClose])]
      simp
    simp only [splitHostPort, hList, cutLast_append hColon, hStop]
    rw [if_pos (by simp), if_neg (by simp), if_neg (by simp), if_neg (by simp),
      if_neg (by simp [hOpen, hPortOpen])]
    have hRest : ('[' :: host.toList ++ [']'] ++ ':' :: port.toList).drop
        (host.toList.length + 1 + 1) = ':' :: port.toList := drop_left' (by simp)
    rw [hRest, if_neg (by simp [hPortClose])]
    simp
  · next hPlain =>
    have hList : (host ++ ":" ++ port).toList = host.toList ++ ':' :: port.toList := by
      simp [String.toList_append]
    have hHead : (host.toList ++ ':' :: port.toList).head? ≠ some '[' := by
      cases hHost : host.toList with
      | nil => simp
      | cons c l =>
        rw [hHost, mem_cons, not_or] at hOpen
        rw [cons_append, head?_cons, Ne, Option.some.injEq]
        exact fun hEq => hOpen.1 hEq.symm
    simp only [splitHostPort, hList, cutLast_append hColon]
    rw [if_neg hHead, if_neg hPlain, if_neg (by simp [hOpen, hPortOpen]),
      if_neg (by simp [hClose, hPortClose]), String.ofList_toList, String.ofList_toList]

end Qapi.Core
