import Qapi.Core.Numbers
import Qapi.Core.Text
import Mathlib.Algebra.Group.Nat.Defs
import Mathlib.Tactic.SplitIfs

/-!
# Internet addresses and their text

An address has four bytes or sixteen, and an IPv4 address may stand in either form
(`to16`, `to4`). What a program asks of an address depends on the four bytes if it has
them, so a test that is written with `byForm` does not see the form (`byForm_to16`).

The text of an address is read by `parseAddr` and written by `IP.text`, which abbreviates
the longest run of zero groups of an IPv6 address. `parseIP_text` reads back what was
written.
-/

namespace Qapi.Core

open List

/-- `net.IP`: the functions that take one accept four bytes or sixteen. -/
@[ext] structure IP where
  bytes : List UInt8
  size : bytes.length = 4 ∨ bytes.length = 16
deriving DecidableEq

namespace IP

def v4InV6Prefix : List UInt8 := [0, 0, 0, 0, 0, 0, 0, 0, 0, 0, 0xff, 0xff]

theorem length_v4InV6Prefix : v4InV6Prefix.length = 12 := rfl

/-- `net.IPv4`. -/
def ipv4 (a b c d : UInt8) : IP := ⟨v4InV6Prefix ++ [a, b, c, d], Or.inr rfl⟩

/-- `IP.To16`. -/
def to16 (ip : IP) : IP :=
  if h : ip.bytes.length = 4 then ⟨v4InV6Prefix ++ ip.bytes, Or.inr (by simp [v4InV6Prefix, h])⟩
  else ip

/-- `IP.To4`. -/
def to4 (ip : IP) : Option (List UInt8) :=
  if ip.bytes.length = 4 then some ip.bytes
  else if ip.bytes.take 12 = v4InV6Prefix then some (ip.bytes.drop 12)
  else none

/-- Distinguish the addresses of IPv4, in either form, from the others. -/
def byForm {α : Type*} (ip : IP) (v4 v6 : List UInt8 → α) : α :=
  match ip.to4 with
  | some bytes => v4 bytes
  | none => v6 ip.bytes

theorem to16_of_to4_eq_none {ip : IP} (h : ip.to4 = none) : ip.to16 = ip := by
  unfold to4 at h
  unfold to16
  split at h
  · cases h
  · next hLong => rw [dif_neg hLong]

theorem length_to16 (ip : IP) : ip.to16.bytes.length = 16 := by
  unfold to16
  split
  · next hShort => simp [v4InV6Prefix, hShort]
  · next hLong => exact ip.size.resolve_left hLong

theorem to16_bytes_of_to4 {ip : IP} {bytes : List UInt8} (h : ip.to4 = some bytes) :
    ip.to16.bytes = v4InV6Prefix ++ bytes := by
  unfold to4 at h
  unfold to16
  split at h
  · next hShort =>
    cases h
    rw [dif_pos hShort]
  · next hLong =>
    split at h
    · next hMapped =>
      cases h
      rw [dif_neg hLong, ← hMapped, take_append_drop]
    · cases h

theorem length_of_to4 {ip : IP} {bytes : List UInt8} (h : ip.to4 = some bytes) :
    bytes.length = 4 := by
  have hLength := length_to16 ip
  rw [to16_bytes_of_to4 h, length_append] at hLength
  rw [length_v4InV6Prefix] at hLength
  omega

@[simp] theorem to4_to16 (ip : IP) : ip.to16.to4 = ip.to4 := by
  rcases h : ip.to4 with _ | bytes
  · rw [to16_of_to4_eq_none h, h]
  · have hLong : ¬ ip.to16.bytes.length = 4 := by
      rw [length_to16]
      decide
    unfold to4
    rw [if_neg hLong, to16_bytes_of_to4 h, if_pos,
      drop_left' length_v4InV6Prefix]
    exact take_left' length_v4InV6Prefix

@[simp] theorem to16_to16 (ip : IP) : ip.to16.to16 = ip.to16 := by
  rw [to16, dif_neg]
  rw [length_to16]
  decide

@[simp] theorem byForm_to16 {α : Type*} (ip : IP) (v4 v6 : List UInt8 → α) :
    ip.to16.byForm v4 v6 = ip.byForm v4 v6 := by
  unfold byForm
  rw [to4_to16]
  rcases h : ip.to4 with _ | bytes
  · rw [to16_of_to4_eq_none h]
  · rfl

/-- `IP.Equal`: an IPv4 address and that same address in IPv6 form are equal. -/
def equal (ip x : IP) : Bool := ip.to16.bytes == x.to16.bytes

@[simp] theorem equal_to16 (ip x : IP) : ip.to16.equal x = ip.equal x := by
  unfold equal
  rw [to16_to16]

end IP

/-! ### Networks -/

/-- `net.IPNet`. -/
structure IPNet where
  ip : IP
  mask : List UInt8

/-- `net.CIDRMask`. -/
def cidrMask (ones bits : Nat) : List UInt8 :=
  (range (bits / 8)).map fun i => UInt8.ofNat (256 - 2 ^ (8 - min 8 (ones - 8 * i)))

namespace IPNet

/-- The bytes and the mask that are compared (`net.networkNumberAndMask`). -/
def networkNumberAndMask (n : IPNet) : Option (List UInt8 × List UInt8) :=
  let number := n.ip.byForm id id
  if n.mask.length = 4 then if number.length = 4 then some (number, n.mask) else none
  else if n.mask.length = 16 then
    some (number, if number.length = 4 then n.mask.drop 12 else n.mask)
  else none

/-- `IPNet.Contains`. -/
def contains (n : IPNet) (ip : IP) : Bool :=
  match n.networkNumberAndMask with
  | none => false
  | some (number, mask) =>
    let bytes := ip.byForm id id
    bytes.length == number.length &&
      zipWith (· &&& ·) number mask == zipWith (· &&& ·) bytes mask

@[simp] theorem contains_to16 (n : IPNet) (ip : IP) : n.contains ip.to16 = n.contains ip := by
  unfold contains
  rw [IP.byForm_to16]

end IPNet

example : (IPNet.mk (.ipv4 172 16 0 0) (cidrMask 12 32)).contains (.ipv4 172 31 255 1) = true := by
  decide

example : (IPNet.mk (.ipv4 172 16 0 0) (cidrMask 12 32)).contains (.ipv4 172 32 0 0) = false := by
  decide

/-! ### Reading an address -/

def parseOctet (s : List Char) : Option UInt8 :=
  if s ≠ [] ∧ s.all Char.isDigit ∧ (s.length = 1 ∨ s.head? ≠ some '0') ∧
      Nat.ofDigitChars 10 s 0 ≤ 255 then
    some (UInt8.ofNat (Nat.ofDigitChars 10 s 0))
  else none

/-- `netip.parseIPv4Fields`. -/
def parseIPv4 (s : List Char) : Option (List UInt8) :=
  match (s.splitOn '.').mapM parseOctet with
  | some [a, b, c, d] => some [a, b, c, d]
  | _ => none

/-- The loop of `netip.parseIPv6` over the groups of an address, with room for so many more of
them: the groups, and the number of groups before the ellipsis. -/
def parseGroups : Nat → List Nat → Option Nat → List Char → Option (List Nat × Option Nat)
  | 0, groups, ellipsis, s => if s = [] then some (groups, ellipsis) else none
  | room + 1, groups, ellipsis, s =>
    let digits := s.takeWhile isHex
    let groups' := groups ++ [hexValue digits]
    if digits = [] ∨ 4 < digits.length then none
    else match s.dropWhile isHex with
      | [] => some (groups', ellipsis)
      | '.' :: _ =>
        -- the last two groups may be written as an IPv4 address
        if ellipsis = none ∧ groups.length ≠ 6 ∨ room = 0 then none
        else match parseIPv4 s with
          | some [a, b, c, d] =>
            some (groups ++ [a.toNat * 256 + b.toNat, c.toNat * 256 + d.toNat], ellipsis)
          | _ => none
      | [':'] => none
      | ':' :: ':' :: rest =>
        if ellipsis ≠ none then none
        else if rest = [] then some (groups', some groups'.length)
        else parseGroups room groups' (some groups'.length) rest
      | ':' :: rest => parseGroups room groups' ellipsis rest
      | _ => none

/-- Fill the groups up to eight at the ellipsis, which stands for at least one group. -/
def expandGroups (groups : List Nat) (ellipsis : Option Nat) :
    Option { l : List Nat // l.length = 8 } :=
  if hFew : groups.length < 8 then
    ellipsis.map fun e =>
      ⟨groups.take e ++ replicate (8 - groups.length) 0 ++ groups.drop e, by
        simp only [length_append, length_take, length_replicate, length_drop]
        omega⟩
  else if hAll : groups.length = 8 then if ellipsis = none then some ⟨groups, hAll⟩ else none
  else none

def bytesOfGroups : List Nat → List UInt8
  | [] => []
  | group :: groups =>
    UInt8.ofNat (group / 256) :: UInt8.ofNat (group % 256) :: bytesOfGroups groups

theorem length_bytesOfGroups (groups : List Nat) :
    (bytesOfGroups groups).length = 2 * groups.length := by
  induction groups with
  | nil => rfl
  | cons group groups ih =>
    simp only [bytesOfGroups, length_cons, ih]
    omega

/-- The groups of a text that may start with the ellipsis, or be nothing else. -/
def readGroups : List Char → Option (List Nat × Option Nat)
  | [':', ':'] => some ([], some 0)
  | ':' :: ':' :: rest => parseGroups 8 [] (some 0) rest
  | s => parseGroups 8 [] none s

/-- `netip.parseIPv6`, for a text without a zone. -/
def parseIPv6 (s : List Char) : Option IP :=
  match (readGroups s).bind fun (groups, ellipsis) => expandGroups groups ellipsis with
  | some ⟨groups, h⟩ => some ⟨bytesOfGroups groups, Or.inr (by rw [length_bytesOfGroups, h])⟩
  | none => none

variable {s : List Char} {bytes : List UInt8}

theorem length_of_parseIPv4 (h : parseIPv4 s = some bytes) : bytes.length = 4 := by
  unfold parseIPv4 at h
  split at h
  · cases h
    rfl
  · cases h

/-- `netip.parseIPv4`. -/
def parseIPv4Addr (s : List Char) : Option IP :=
  match h : parseIPv4 s with
  | some bytes => some ⟨bytes, Or.inl (length_of_parseIPv4 h)⟩
  | none => none

theorem parseIPv4Addr_of_some {ip : IP} (h : parseIPv4 s = some ip.bytes) :
    parseIPv4Addr s = some ip := by
  unfold parseIPv4Addr
  split
  · next bytes hBytes =>
    rw [h] at hBytes
    cases hBytes
    rfl
  · next hNone =>
    rw [h] at hNone
    cases hNone

/-- `netip.ParseAddr`, where an address with a zone is none. -/
def parseAddr (s : String) : Option IP :=
  if '%' ∈ s.toList then none
  else match s.toList.find? fun c => c == '.' || c == ':' with
    | some '.' => parseIPv4Addr s.toList
    | some _ => parseIPv6 s.toList
    | none => none

/-- `net.ParseIP`. -/
def parseIP (s : String) : Option IP := (parseAddr s).map IP.to16

/-- `net.ParseCIDR`: the network. -/
def parseCIDR (s : String) : Option IPNet := do
  let (addr, mask) ← cut s "/"
  let ip ← parseAddr addr
  if mask ≠ "" ∧ mask.toList.all Char.isDigit ∧
      Nat.ofDigitChars 10 mask.toList 0 ≤ 8 * ip.bytes.length then
    let m := cidrMask (Nat.ofDigitChars 10 mask.toList 0) (8 * ip.bytes.length)
    some ⟨⟨zipWith (· &&& ·) ip.bytes m, by
      simpa [m, cidrMask, length_zipWith] using ip.size⟩, m⟩
  else none

/-! ### Writing an address -/

def groupsOfBytes : List UInt8 → List Nat
  | a :: b :: bytes => (a.toNat * 256 + b.toNat) :: groupsOfBytes bytes
  | _ => []

/-- `netip.appendHex`. -/
def appendHex (x : Nat) : List Char :=
  (if 0x1000 ≤ x then [Nat.digitChar (x / 0x1000)] else []) ++
    (if 0x100 ≤ x then [Nat.digitChar (x / 0x100 % 16)] else []) ++
    (if 0x10 ≤ x then [Nat.digitChar (x / 0x10 % 16)] else []) ++ [Nat.digitChar (x % 16)]

def joinGroups (groups : List Nat) : List Char := [':'].intercalate (groups.map appendHex)

def zeroRun (groups : List Nat) : Nat := (groups.takeWhile (· == 0)).length

/-- The first of the longest runs of at least two zero groups, from its start to its end. -/
def longestZeros (groups : List Nat) : Option (Nat × Nat) :=
  (range groups.length).foldl (fun best i =>
    let length := zeroRun (groups.drop i)
    if 2 ≤ length ∧ (best.elim 0 fun (start, stop) => stop - start) < length then
      some (i, i + length)
    else best) none

/-- `netip.Addr.appendTo6`. -/
def groupsText (groups : List Nat) : List Char :=
  match longestZeros groups with
  | none => joinGroups groups
  | some (start, stop) =>
    joinGroups (groups.take start) ++ ':' :: ':' :: joinGroups (groups.drop stop)

/-- `IP.String`. -/
def IP.text (ip : IP) : String :=
  ip.byForm
    (fun bytes => join (bytes.map fun b => toString b.toNat) ".")
    (fun bytes => String.ofList (groupsText (groupsOfBytes bytes)))

/-! ### Reading what was written -/

theorem head_toDigits_ne_zero {n : Nat} (h : 0 < n) : (Nat.toDigits 10 n).head? ≠ some '0' := by
  induction n using Nat.strongRecOn with
  | ind n ih =>
    by_cases hOne : n < 10
    · rw [Nat.toDigits_of_lt_base hOne, head?_cons, Ne, Option.some.injEq,
        Nat.digitChar_eq_zero]
      omega
    · have hRest := ih (n / 10) (by omega) (by omega)
      rw [Nat.toDigits_of_base_le (by omega) (by omega)]
      rw [head?_append_of_ne_nil _ Nat.toDigits_ne_nil]
      exact hRest

theorem parseOctet_toDigits (b : UInt8) : parseOctet (Nat.toDigits 10 b.toNat) = some b := by
  have hValue : Nat.ofDigitChars 10 (Nat.toDigits 10 b.toNat) 0 = b.toNat :=
    Nat.ofDigitChars_toDigits (by omega) (by omega)
  have hByte : b.toNat ≤ 255 := Nat.le_of_lt_succ b.toNat_lt
  have hDigits : (Nat.toDigits 10 b.toNat).all Char.isDigit = true :=
    all_eq_true.mpr fun c hc => Nat.isDigit_of_mem_toDigits (by omega) (by omega) hc
  have hZero : (Nat.toDigits 10 b.toNat).length = 1 ∨
      (Nat.toDigits 10 b.toNat).head? ≠ some '0' := by
    rcases Nat.eq_zero_or_pos b.toNat with h | h
    · left
      rw [h]
      rfl
    · exact Or.inr (head_toDigits_ne_zero h)
  rw [parseOctet, hValue, if_pos ⟨Nat.toDigits_ne_nil, hDigits, hZero, hByte⟩]
  rw [UInt8.ofNat_toNat]

theorem parseIPv4_join (h : bytes.length = 4) :
    parseIPv4 (join (bytes.map fun b => toString b.toNat) ".").toList = some bytes := by
  obtain ⟨a, b, c, d, rfl⟩ : ∃ a b c d, bytes = [a, b, c, d] := by
    match bytes, h with
    | [a, b, c, d], _ => exact ⟨a, b, c, d, rfl⟩
  have hParts : (join ([a, b, c, d].map fun b => toString b.toNat) ".").toList.splitOn '.' =
      [a, b, c, d].map fun b => Nat.toDigits 10 b.toNat := by
    rw [join, String.toList_intercalate]
    have hSep : ".".toList = ['.'] := rfl
    rw [hSep, splitOn_intercalate]
    · simp only [map_map, Function.comp_def, Nat.toString_eq_repr, Nat.toList_repr]
    · intro part hPart
      simp only [map_map, mem_map, Function.comp_def, Nat.toString_eq_repr,
        Nat.toList_repr] at hPart
      obtain ⟨b, -, rfl⟩ := hPart
      intro hDot
      exact absurd (Nat.isDigit_of_mem_toDigits (by omega) (by omega) hDot) (by decide)
    · simp
  rw [parseIPv4, hParts]
  simp only [map_cons, map_nil, mapM_cons, parseOctet_toDigits, mapM_nil]
  rfl

theorem appendHex_ne_nil (x : Nat) : appendHex x ≠ [] := by
  simp [appendHex]

theorem length_appendHex_le (x : Nat) : (appendHex x).length ≤ 4 := by
  unfold appendHex
  split_ifs <;> simp

variable {c : Char}

theorem isHex_of_mem_appendHex {x : Nat} (hx : x < 65536) (h : c ∈ appendHex x) :
    isHex c = true := by
  have hDigit : ∃ n < 16, c = Nat.digitChar n := by
    simp only [appendHex, mem_append, mem_ite_nil_right, mem_singleton] at h
    rcases h with ((⟨-, rfl⟩ | ⟨-, rfl⟩) | ⟨-, rfl⟩) | rfl
    · exact ⟨x / 0x1000, by omega, rfl⟩
    · exact ⟨x / 0x100 % 16, by omega, rfl⟩
    · exact ⟨x / 0x10 % 16, by omega, rfl⟩
    · exact ⟨x % 16, by omega, rfl⟩
  obtain ⟨n, hn, rfl⟩ := hDigit
  exact isHex_digitChar n hn

theorem hexValue_appendHex {x : Nat} (hx : x < 65536) : hexValue (appendHex x) = x := by
  have hTop : x / 0x1000 < 16 := by omega
  have hMod : ∀ y, y % 16 < 16 := fun y => Nat.mod_lt y (by omega)
  unfold appendHex hexValue
  split_ifs <;>
    simp only [nil_append, cons_append, foldl_cons, foldl_nil,
      hexDigit_digitChar _ hTop, hexDigit_digitChar _ (hMod _)] <;>
    omega

section Groups

variable {room x : Nat} {acc : List Nat} {e : Option Nat}

theorem takeWhile_appendHex (hx : x < 65536) (rest : List Char)
    (hRest : rest.takeWhile isHex = []) : (appendHex x ++ rest).takeWhile isHex = appendHex x := by
  rw [takeWhile_append_of_pos fun c hc => isHex_of_mem_appendHex hx hc, hRest,
    append_nil]

theorem dropWhile_appendHex (hx : x < 65536) (rest : List Char)
    (hRest : rest.dropWhile isHex = rest) : (appendHex x ++ rest).dropWhile isHex = rest := by
  rw [dropWhile_append_of_pos fun c hc => isHex_of_mem_appendHex hx hc, hRest]

theorem not_bad_appendHex : ¬ (appendHex x = [] ∨ 4 < (appendHex x).length) := by
  rintro (h | h)
  · exact appendHex_ne_nil x h
  · exact absurd (length_appendHex_le x) (by omega)

theorem parseGroups_last (hx : x < 65536) :
    parseGroups (room + 1) acc e (appendHex x) = some (acc ++ [x], e) := by
  have hTake := takeWhile_appendHex hx [] rfl
  have hDrop := dropWhile_appendHex hx [] rfl
  rw [append_nil] at hTake hDrop
  rw [parseGroups, hTake, hDrop, if_neg not_bad_appendHex, hexValue_appendHex hx]

theorem parseGroups_colon (hx : x < 65536) {c : Char} (hc : isHex c = true) {rest : List Char} :
    parseGroups (room + 1) acc e (appendHex x ++ ':' :: c :: rest) =
      parseGroups room (acc ++ [x]) e (c :: rest) := by
  have hTake := takeWhile_appendHex hx (':' :: c :: rest) rfl
  have hDrop := dropWhile_appendHex hx (':' :: c :: rest) rfl
  rw [parseGroups, hTake, hDrop, if_neg not_bad_appendHex, hexValue_appendHex hx]
  have hColon : c ≠ ':' := by
    rintro rfl
    cases hc
  split
  · next h => cases h
  · next h => cases h
  · next h => cases h
  · next h =>
    rw [cons.injEq, cons.injEq] at h
    exact absurd h.2.1 hColon
  · next h =>
    cases h
    rfl
  · next h => exact absurd rfl (h _)

theorem parseGroups_ellipsis (hx : x < 65536) {rest : List Char} :
    parseGroups (room + 1) acc none (appendHex x ++ ':' :: ':' :: rest) =
      if rest = [] then some (acc ++ [x], some (acc ++ [x]).length)
      else parseGroups room (acc ++ [x]) (some (acc ++ [x]).length) rest := by
  have hTake := takeWhile_appendHex hx (':' :: ':' :: rest) rfl
  have hDrop := dropWhile_appendHex hx (':' :: ':' :: rest) rfl
  rw [parseGroups, hTake, hDrop, if_neg not_bad_appendHex, hexValue_appendHex hx]
  rfl

@[simp] theorem joinGroups_nil : joinGroups [] = [] := rfl

@[simp] theorem joinGroups_singleton : joinGroups [x] = appendHex x := by
  simp [joinGroups]

theorem joinGroups_cons_cons {y : Nat} {groups : List Nat} :
    joinGroups (x :: y :: groups) = appendHex x ++ ':' :: joinGroups (y :: groups) := by
  simp [joinGroups, intercalate_cons_cons]

theorem joinGroups_cons_eq (hx : x < 65536) (groups : List Nat) :
    ∃ c rest, isHex c = true ∧ joinGroups (x :: groups) = c :: rest := by
  obtain ⟨c, digits, hDigits⟩ := exists_cons_of_ne_nil (appendHex_ne_nil x)
  have hHex : isHex c = true := isHex_of_mem_appendHex hx (by rw [hDigits]; exact mem_cons_self)
  cases groups with
  | nil => exact ⟨c, digits, hHex, by rw [joinGroups_singleton, hDigits]⟩
  | cons y groups => exact ⟨c, _, hHex, by rw [joinGroups_cons_cons, hDigits]; rfl⟩

theorem parseGroups_joinGroups {groups : List Nat} (hGroups : ∀ g ∈ groups, g < 65536)
    (hne : groups ≠ []) (hRoom : groups.length ≤ room) :
    parseGroups room acc e (joinGroups groups) = some (acc ++ groups, e) := by
  induction groups generalizing room acc with
  | nil => exact absurd rfl hne
  | cons x groups ih =>
    rw [forall_mem_cons] at hGroups
    obtain ⟨room, rfl⟩ : ∃ r, room = r + 1 := ⟨room - 1, by rw [length_cons] at hRoom; omega⟩
    cases groups with
    | nil => rw [joinGroups_singleton, parseGroups_last hGroups.1]
    | cons y groups =>
      obtain ⟨c, rest, hc, hRest⟩ :=
        joinGroups_cons_eq (hGroups.2 y mem_cons_self) groups
      rw [joinGroups_cons_cons, hRest, parseGroups_colon hGroups.1 hc, ← hRest]
      rw [ih hGroups.2 (cons_ne_nil y groups) (by simpa using hRoom), append_assoc]
      rfl

/-- The groups around an ellipsis, and how many stand before it. -/
theorem parseGroups_around {left right : List Nat} (hLeft : ∀ g ∈ left, g < 65536)
    (hRight : ∀ g ∈ right, g < 65536) (hne : left ≠ [])
    (hRoom : left.length + right.length ≤ room) :
    parseGroups room acc none (joinGroups left ++ ':' :: ':' :: joinGroups right) =
      some (acc ++ left ++ right, some (acc.length + left.length)) := by
  induction left generalizing room acc with
  | nil => exact absurd rfl hne
  | cons x left ih =>
    rw [forall_mem_cons] at hLeft
    rw [length_cons] at hRoom
    obtain ⟨room, rfl⟩ : ∃ r, room = r + 1 := ⟨room - 1, by omega⟩
    cases left with
    | nil =>
      rw [joinGroups_singleton, parseGroups_ellipsis hLeft.1, length_append]
      cases right with
      | nil => simp
      | cons y right =>
        obtain ⟨c, rest, -, hRest⟩ :=
          joinGroups_cons_eq (hRight y mem_cons_self) right
        rw [if_neg (by rw [hRest]; exact cons_ne_nil c rest)]
        rw [length_nil] at hRoom
        exact parseGroups_joinGroups hRight (cons_ne_nil y right) (by omega)
    | cons y left =>
      obtain ⟨c, rest, hc, hRest⟩ :=
        joinGroups_cons_eq (hLeft.2 y mem_cons_self) left
      have hTail := @ih room (acc ++ [x]) hLeft.2 (cons_ne_nil y left) (by omega)
      rw [hRest, cons_append] at hTail
      rw [joinGroups_cons_cons, hRest, append_assoc, cons_append, cons_append,
        parseGroups_colon hLeft.1 hc, hTail]
      simp only [append_assoc, cons_append, nil_append, length_append,
        length_cons, length_nil]
      congr 3
      omega

end Groups

def IsZeroRun (groups : List Nat) (start stop : Nat) : Prop :=
  start < stop ∧ groups.drop start = replicate (stop - start) 0 ++ groups.drop stop

theorem drop_eq_zeroRun (groups : List Nat) (i : Nat) :
    groups.drop i = replicate (zeroRun (groups.drop i)) 0 ++
      groups.drop (i + zeroRun (groups.drop i)) := by
  have hZeros : ∀ g ∈ (groups.drop i).takeWhile (· == 0), g = 0 := fun g hg => by
    simpa using mem_takeWhile_imp hg
  have hRun := eq_replicate_of_mem hZeros
  have hRest : groups.drop (i + zeroRun (groups.drop i)) =
      (groups.drop i).dropWhile (· == 0) := by
    have hCut : ((groups.drop i).takeWhile (· == 0) ++ (groups.drop i).dropWhile (· == 0)).drop
        (zeroRun (groups.drop i)) = (groups.drop i).dropWhile (· == 0) := drop_left' rfl
    rw [takeWhile_append_dropWhile] at hCut
    rw [← drop_drop, hCut]
  rw [hRest, zeroRun, ← hRun, takeWhile_append_dropWhile]

variable {groups : List Nat}

theorem isZeroRun_of_longestZeros {start stop : Nat}
    (h : longestZeros groups = some (start, stop)) : IsZeroRun groups start stop := by
  let Runs : Option (Nat × Nat) → Prop := fun best =>
    ∀ start stop, best = some (start, stop) → IsZeroRun groups start stop
  have hRuns : Runs (longestZeros groups) := by
    -- every candidate the scan takes over is a run
    refine foldlRecOn (motive := Runs) _ _ ?_ ?_
    · intro start stop hNone
      cases hNone
    · intro best hBest i _ start stop hNew
      simp only at hNew
      split at hNew
      · next hLonger =>
        cases hNew
        refine ⟨by omega, ?_⟩
        rw [Nat.add_sub_cancel_left]
        exact drop_eq_zeroRun groups i
      · exact hBest start stop hNew
  exact hRuns start stop h

theorem IsZeroRun.stop_le {start stop : Nat} (h : IsZeroRun groups start stop) :
    stop ≤ groups.length := by
  have hLength := congrArg length h.2
  rw [length_append, length_replicate, length_drop, length_drop] at hLength
  have := h.1
  omega

theorem IsZeroRun.expand {start stop : Nat} (h : IsZeroRun groups start stop)
    (hLength : groups.length = 8) :
    expandGroups (groups.take start ++ groups.drop stop) (some start) = some ⟨groups, hLength⟩ := by
  have hStop := h.stop_le
  have hStart := h.1
  have hTake : (groups.take start).length = start := by
    rw [length_take]
    omega
  have hCount : (groups.take start ++ groups.drop stop).length = 8 - (stop - start) := by
    rw [length_append, hTake, length_drop]
    omega
  have hFilled : (groups.take start ++ groups.drop stop).take start ++
      replicate (8 - (groups.take start ++ groups.drop stop).length) 0 ++
      (groups.take start ++ groups.drop stop).drop start = groups := by
    rw [hCount, take_left' hTake, drop_left' hTake,
      show 8 - (8 - (stop - start)) = stop - start by omega, append_assoc, ← h.2,
      take_append_drop]
  rw [expandGroups, dif_pos (by omega), Option.map_some]
  exact congrArg some (Subtype.ext hFilled)

theorem readGroups_joinGroups {l : List Nat} (hne : l ≠ []) (hl : ∀ g ∈ l, g < 65536)
    (more : List Char) :
    readGroups (joinGroups l ++ more) = parseGroups 8 [] none (joinGroups l ++ more) := by
  obtain ⟨x, l, rfl⟩ := exists_cons_of_ne_nil hne
  obtain ⟨c, rest, hc, hRest⟩ := joinGroups_cons_eq (hl x mem_cons_self) l
  rw [hRest, cons_append]
  have hColon : c ≠ ':' := by
    rintro rfl
    cases hc
  unfold readGroups
  split
  · next h => exact absurd (cons.inj h).1 hColon
  · next h => exact absurd (cons.inj h).1 hColon
  · rfl

theorem readGroups_around {left right : List Nat} (hLeft : ∀ g ∈ left, g < 65536)
    (hRight : ∀ g ∈ right, g < 65536) (hRoom : left.length + right.length ≤ 8) :
    readGroups (joinGroups left ++ ':' :: ':' :: joinGroups right) =
      some (left ++ right, some left.length) := by
  rcases left with _ | ⟨x, left⟩
  · rw [joinGroups_nil, nil_append, nil_append]
    rcases right with _ | ⟨y, right⟩
    · rfl
    · obtain ⟨c, rest, -, hRest⟩ := joinGroups_cons_eq (hRight y mem_cons_self) right
      have hRead : readGroups (':' :: ':' :: joinGroups (y :: right)) =
          parseGroups 8 [] (some 0) (joinGroups (y :: right)) := by
        rw [hRest]
        rfl
      rw [length_nil, Nat.zero_add] at hRoom
      rw [hRead, parseGroups_joinGroups hRight (cons_ne_nil y right) hRoom]
      rfl
  · rw [readGroups_joinGroups (cons_ne_nil x left) hLeft,
      parseGroups_around hLeft hRight (cons_ne_nil x left) hRoom, nil_append,
      length_nil, Nat.zero_add]

theorem readGroups_groupsText (hGroups : ∀ g ∈ groups, g < 65536) (hLength : groups.length = 8) :
    ((readGroups (groupsText groups)).bind fun (groups, e) => expandGroups groups e) =
      some ⟨groups, hLength⟩ := by
  unfold groupsText
  rcases hZeros : longestZeros groups with _ | ⟨start, stop⟩
  · have hne : groups ≠ [] := by
      rintro rfl
      cases hLength
    have hRead := readGroups_joinGroups hne hGroups []
    rw [append_nil, parseGroups_joinGroups hGroups hne hLength.le] at hRead
    simp only [hRead, Option.bind_some, nil_append]
    rw [expandGroups, dif_neg (by omega), dif_pos hLength, if_pos rfl]
  · have hRun := isZeroRun_of_longestZeros hZeros
    have hStop := hRun.stop_le
    have hStart := hRun.1
    have hTake : (groups.take start).length = start := by
      rw [length_take]
      omega
    have hLeft : ∀ g ∈ groups.take start, g < 65536 := fun g hg =>
      hGroups g (mem_of_mem_take hg)
    have hRight : ∀ g ∈ groups.drop stop, g < 65536 := fun g hg =>
      hGroups g (mem_of_mem_drop hg)
    have hRead := readGroups_around hLeft hRight (by rw [hTake, length_drop]; omega)
    rw [hTake] at hRead
    simp only [hRead, Option.bind_some]
    exact hRun.expand hLength

theorem groupsOfBytes_lt : ∀ g ∈ groupsOfBytes bytes, g < 65536 := by
  fun_induction groupsOfBytes bytes with
  | case1 a b bytes ih =>
    rw [forall_mem_cons]
    have ha := a.toNat_lt
    have hb := b.toNat_lt
    exact ⟨by omega, ih⟩
  | case2 => exact fun g hg => absurd hg not_mem_nil

theorem bytesOfGroups_groupsOfBytes {n : Nat} (h : bytes.length = 2 * n) :
    bytesOfGroups (groupsOfBytes bytes) = bytes := by
  induction n generalizing bytes with
  | zero =>
    obtain rfl := eq_nil_of_length_eq_zero h
    rfl
  | succ n ih =>
    obtain ⟨a, b, bytes, rfl⟩ : ∃ a b l, bytes = a :: b :: l := by
      match bytes, h with
      | a :: b :: l, _ => exact ⟨a, b, l, rfl⟩
    have hb := b.toNat_lt
    have hHigh : (a.toNat * 256 + b.toNat) / 256 = a.toNat := by omega
    have hLow : (a.toNat * 256 + b.toNat) % 256 = b.toNat := by omega
    rw [groupsOfBytes, bytesOfGroups, hHigh, hLow, UInt8.ofNat_toNat, UInt8.ofNat_toNat, ih]
    simp only [length_cons] at h
    omega

theorem parseIPv6_groupsText {ip : IP} (h : ip.bytes.length = 16) :
    parseIPv6 (groupsText (groupsOfBytes ip.bytes)) = some ip := by
  have hBytes := bytesOfGroups_groupsOfBytes (n := 8) h
  have hLength : (groupsOfBytes ip.bytes).length = 8 := by
    have := congrArg length hBytes
    rw [length_bytesOfGroups, h] at this
    omega
  rw [parseIPv6, readGroups_groupsText groupsOfBytes_lt hLength]
  rcases ip with ⟨bytes, size⟩
  simp only [Option.some.injEq, IP.mk.injEq]
  exact hBytes

theorem mem_of_mem_intercalate {α : Type*} {sep : List α} {parts : List (List α)} {a : α}
    (h : a ∈ sep.intercalate parts) : (∃ part ∈ parts, a ∈ part) ∨ a ∈ sep := by
  induction parts with
  | nil => exact absurd h not_mem_nil
  | cons part parts ih =>
    cases parts with
    | nil =>
      rw [intercalate_singleton] at h
      exact Or.inl ⟨part, mem_cons_self, h⟩
    | cons next parts =>
      rw [intercalate_cons_cons, mem_append, mem_append] at h
      rcases h with (h | h) | h
      · exact Or.inl ⟨part, mem_cons_self, h⟩
      · exact Or.inr h
      · rcases ih h with ⟨other, hOther, hMem⟩ | hSep
        · exact Or.inl ⟨other, mem_cons_of_mem part hOther, hMem⟩
        · exact Or.inr hSep

theorem mem_joinGroups (hGroups : ∀ g ∈ groups, g < 65536) (h : c ∈ joinGroups groups) :
    isHex c = true ∨ c = ':' := by
  rcases mem_of_mem_intercalate h with ⟨part, hPart, hMem⟩ | hSep
  · obtain ⟨g, hg, rfl⟩ := mem_map.mp hPart
    exact Or.inl (isHex_of_mem_appendHex (hGroups g hg) hMem)
  · exact Or.inr (mem_singleton.mp hSep)

theorem mem_groupsText (hGroups : ∀ g ∈ groups, g < 65536) (h : c ∈ groupsText groups) :
    isHex c = true ∨ c = ':' := by
  unfold groupsText at h
  split at h
  · exact mem_joinGroups hGroups h
  · next start stop _ =>
    rw [mem_append, mem_cons, mem_cons] at h
    rcases h with h | rfl | rfl | h
    · exact mem_joinGroups (fun g hg => hGroups g (mem_of_mem_take hg)) h
    · exact Or.inr rfl
    · exact Or.inr rfl
    · exact mem_joinGroups (fun g hg => hGroups g (mem_of_mem_drop hg)) h

theorem colon_mem_groupsText (h : 2 ≤ groups.length) : ':' ∈ groupsText groups := by
  unfold groupsText
  split
  · obtain ⟨x, y, groups, rfl⟩ : ∃ x y l, groups = x :: y :: l := by
      match groups, h with
      | x :: y :: l, _ => exact ⟨x, y, l, rfl⟩
    simp [joinGroups_cons_cons]
  · simp

theorem mem_dotted (h : c ∈ (join (bytes.map fun b => toString b.toNat) ".").toList) :
    c.isDigit = true ∨ c = '.' := by
  rw [join, String.toList_intercalate] at h
  rcases mem_of_mem_intercalate h with ⟨part, hPart, hMem⟩ | hSep
  · simp only [map_map, mem_map, Function.comp_def, Nat.toString_eq_repr,
      Nat.toList_repr] at hPart
    obtain ⟨b, -, rfl⟩ := hPart
    exact Or.inl (Nat.isDigit_of_mem_toDigits (by omega) (by omega) hMem)
  · exact Or.inr (mem_singleton.mp hSep)

theorem dot_mem_dotted (h : 2 ≤ bytes.length) :
    '.' ∈ (join (bytes.map fun b => toString b.toNat) ".").toList := by
  obtain ⟨a, b, bytes, rfl⟩ : ∃ a b l, bytes = a :: b :: l := by
    match bytes, h with
    | a :: b :: l, _ => exact ⟨a, b, l, rfl⟩
  rw [join, String.toList_intercalate]
  simp [intercalate_cons_cons]

theorem find_of_unique {α : Type*} {p : α → Bool} {l : List α} {a : α} (hMem : a ∈ l)
    (ha : p a = true) (hUnique : ∀ b ∈ l, p b = true → b = a) : l.find? p = some a := by
  rcases hFind : l.find? p with _ | b
  · exact absurd ha (find?_eq_none.mp hFind a hMem)
  · rw [hUnique b (mem_of_find?_eq_some hFind) (find?_some hFind)]

theorem parseAddr_dotted (h : bytes.length = 4) :
    parseAddr (join (bytes.map fun b => toString b.toNat) ".") = some ⟨bytes, Or.inl h⟩ := by
  have hText := parseIPv4_join h
  have hChars := @mem_dotted bytes
  have hDot := dot_mem_dotted (h.symm ▸ (by decide) : 2 ≤ bytes.length)
  generalize join (bytes.map fun b => toString b.toNat) "." = s at *
  have hZone : '%' ∉ s.toList := by
    intro hMem
    rcases hChars hMem with hDigit | hEq
    · cases hDigit
    · cases hEq
  have hFirst : s.toList.find? (fun c => c == '.' || c == ':') = some '.' := by
    apply find_of_unique hDot rfl
    intro c hc hSep
    rcases hChars hc with hDigit | hEq
    · simp only [Bool.or_eq_true, beq_iff_eq] at hSep
      rcases hSep with rfl | rfl
      · rfl
      · cases hDigit
    · exact hEq
  rw [parseAddr, if_neg hZone, hFirst]
  exact parseIPv4Addr_of_some hText

theorem parseAddr_groupsText {ip : IP} (h : ip.bytes.length = 16) :
    parseAddr (String.ofList (groupsText (groupsOfBytes ip.bytes))) = some ip := by
  have hText := parseIPv6_groupsText h
  have hChars : ∀ c ∈ groupsText (groupsOfBytes ip.bytes), isHex c = true ∨ c = ':' :=
    fun c hc => mem_groupsText groupsOfBytes_lt hc
  have hColon : ':' ∈ groupsText (groupsOfBytes ip.bytes) := by
    apply colon_mem_groupsText
    have hBytes := congrArg length (bytesOfGroups_groupsOfBytes (n := 8) h)
    rw [length_bytesOfGroups, h] at hBytes
    omega
  generalize groupsText (groupsOfBytes ip.bytes) = s at *
  have hZone : '%' ∉ s := by
    intro hMem
    rcases hChars _ hMem with hHex | hEq
    · cases hHex
    · cases hEq
  have hFirst : s.find? (fun c => c == '.' || c == ':') = some ':' := by
    apply find_of_unique hColon rfl
    intro c hc hSep
    rcases hChars c hc with hHex | hEq
    · simp only [Bool.or_eq_true, beq_iff_eq] at hSep
      rcases hSep with rfl | rfl
      · cases hHex
      · rfl
    · exact hEq
  rw [parseAddr, String.toList_ofList, if_neg hZone, hFirst]
  exact hText

/-- The text of an address is that of a literal, and of no other address. -/
theorem parseIP_text (ip : IP) : parseIP ip.text = some ip.to16 := by
  unfold IP.text IP.byForm
  rcases h : ip.to4 with _ | bytes
  · have hSame := IP.to16_of_to4_eq_none h
    have hLong : ip.bytes.length = 16 := by
      rw [← hSame]
      exact IP.length_to16 ip
    rw [parseIP, parseAddr_groupsText hLong, Option.map_some]
  · have hShort := IP.length_of_to4 h
    rw [parseIP, parseAddr_dotted hShort, Option.map_some, Option.some.injEq]
    apply IP.ext
    rw [IP.to16_bytes_of_to4 h, IP.to16, dif_pos hShort]

/-! ### The characters of a literal -/

def IsAddressChar (c : Char) : Prop := isHex c = true ∨ c = ':' ∨ c = '.'

theorem isHex_of_isDigit (h : c.isDigit = true) : isHex c = true := by
  simp only [Char.isDigit, Bool.and_eq_true, decide_eq_true_eq] at h
  simp only [isHex, Bool.or_eq_true, Bool.and_eq_true, decide_eq_true_eq]
  exact Or.inl (Or.inl h)

theorem exists_of_mapM {α β : Type*} {f : α → Option β} {l : List α} {bs : List β}
    (h : l.mapM f = some bs) : ∀ a ∈ l, ∃ b, f a = some b := by
  induction l generalizing bs with
  | nil => exact fun a ha => absurd ha not_mem_nil
  | cons a l ih =>
    simp only [mapM_cons, Option.bind_eq_bind, Option.bind_eq_some_iff] at h
    obtain ⟨b, hb, rest, hRest, -⟩ := h
    exact forall_mem_cons.mpr ⟨⟨b, hb⟩, ih hRest⟩

theorem mem_of_parseIPv4 (h : parseIPv4 s = some bytes) : ∀ c ∈ s, IsAddressChar c := by
  have hParts : ∀ part ∈ s.splitOn '.', ∃ b, parseOctet part = some b := by
    unfold parseIPv4 at h
    split at h
    · next hMap => exact exists_of_mapM hMap
    · cases h
  intro c hc
  have hJoined : c ∈ ['.'].intercalate (s.splitOn '.') := by rwa [intercalate_splitOn]
  rcases mem_of_mem_intercalate hJoined with ⟨part, hPart, hMem⟩ | hDot
  · obtain ⟨b, hb⟩ := hParts part hPart
    unfold parseOctet at hb
    split at hb
    · next hOctet => exact Or.inl (isHex_of_isDigit (all_eq_true.mp hOctet.2.1 c hMem))
    · cases hb
  · exact Or.inr (Or.inr (mem_singleton.mp hDot))

theorem mem_of_parseGroups {room : Nat} {e : Option Nat} {r : List Nat × Option Nat}
    (h : parseGroups room groups e s = some r) : ∀ c ∈ s, IsAddressChar c := by
  induction room generalizing groups e s with
  | zero =>
    rw [parseGroups] at h
    split at h
    · next hNil =>
      subst hNil
      exact fun c hc => absurd hc not_mem_nil
    · cases h
  | succ room ih =>
    -- a group has hexadecimal digits, so only what follows it matters
    have hGroup : (∀ c ∈ s.dropWhile isHex, IsAddressChar c) → ∀ c ∈ s, IsAddressChar c := by
      intro hRest c hc
      rw [← takeWhile_append_dropWhile (p := isHex) (l := s), mem_append] at hc
      rcases hc with hc | hc
      · exact Or.inl (mem_takeWhile_imp hc)
      · exact hRest c hc
    have hColon : IsAddressChar ':' := Or.inr (Or.inl rfl)
    rw [parseGroups] at h
    split at h
    · cases h
    · split at h
      · next hEnd =>
        apply hGroup
        rw [hEnd]
        exact fun c hc => absurd hc not_mem_nil
      · split at h
        · cases h
        · split at h
          · next hIPv4 => exact mem_of_parseIPv4 hIPv4
          · cases h
      · cases h
      · next rest hEllipsis =>
        apply hGroup
        rw [hEllipsis, forall_mem_cons, forall_mem_cons]
        refine ⟨hColon, hColon, ?_⟩
        split at h
        · cases h
        · split at h
          · next hNil =>
            subst hNil
            exact fun c hc => absurd hc not_mem_nil
          · exact ih h
      · next rest _ _ hRest =>
        apply hGroup
        rw [hRest, forall_mem_cons]
        exact ⟨hColon, ih h⟩
      · cases h

theorem mem_of_readGroups {r : List Nat × Option Nat} (h : readGroups s = some r) :
    ∀ c ∈ s, IsAddressChar c := by
  have hColon : IsAddressChar ':' := Or.inr (Or.inl rfl)
  unfold readGroups at h
  split at h
  · simp only [forall_mem_cons]
    exact ⟨hColon, hColon, fun c hc => absurd hc not_mem_nil⟩
  · simp only [forall_mem_cons]
    exact ⟨hColon, hColon, mem_of_parseGroups h⟩
  · exact mem_of_parseGroups h

theorem mem_of_parseIP {s : String} {ip : IP} (h : parseIP s = some ip) :
    ∀ c ∈ s.toList, IsAddressChar c := by
  obtain ⟨short, hShort, -⟩ := Option.map_eq_some_iff.mp h
  unfold parseAddr at hShort
  split at hShort
  · cases hShort
  · split at hShort
    · unfold parseIPv4Addr at hShort
      split at hShort
      · next hIPv4 => exact mem_of_parseIPv4 hIPv4
      · cases hShort
    · unfold parseIPv6 at hShort
      split at hShort
      · next hGroups =>
        obtain ⟨r, hRead, -⟩ := Option.bind_eq_some_iff.mp hGroups
        exact mem_of_readGroups hRead
      · cases hShort
    · cases hShort

theorem IsAddressChar.bounds (h : IsAddressChar c) : '.' ≤ c ∧ c ≤ 'f' := by
  rcases h with hHex | rfl | rfl
  · simp only [isHex, Bool.or_eq_true, Bool.and_eq_true, decide_eq_true_eq] at hHex
    rcases hHex with (⟨hLow, hHigh⟩ | ⟨hLow, hHigh⟩) | ⟨hLow, hHigh⟩
    · exact ⟨Char.le_trans (by decide) hLow, Char.le_trans hHigh (by decide)⟩
    · exact ⟨Char.le_trans (by decide) hLow, hHigh⟩
    · exact ⟨Char.le_trans (by decide) hLow, Char.le_trans hHigh (by decide)⟩
  · decide
  · decide

theorem IsAddressChar.not_isSpace (h : IsAddressChar c) : isSpace c = false := by
  have hBounds := h.bounds
  have hNarrow : ¬ '\u2000' ≤ c := fun hWide =>
    absurd (Char.le_trans hWide hBounds.2) (by decide)
  by_contra hSpace
  simp only [isSpace, Bool.not_eq_false, Bool.or_eq_true, Bool.and_eq_true, decide_eq_true_eq,
    hNarrow, false_and, or_false, or_assoc] at hSpace
  rcases hSpace with rfl | rfl | rfl | rfl | rfl | rfl | rfl | rfl | rfl | rfl | rfl | rfl | rfl |
    rfl <;> exact absurd hBounds (by decide)

theorem trimSpace_of_no_space {s : String} (h : ∀ c ∈ s.toList, isSpace c = false) :
    trimSpace s = s := by
  have hDrop : ∀ l : List Char, (∀ c ∈ l, isSpace c = false) → l.dropWhile isSpace = l := by
    intro l hl
    cases l with
    | nil => rfl
    | cons c l =>
      rw [dropWhile_cons_of_neg]
      rw [hl c mem_cons_self]
      exact Bool.false_ne_true
  have hReverse : ∀ c ∈ s.toList.reverse, isSpace c = false := fun c hc => h c (mem_reverse.mp hc)
  rw [trimSpace, trimList, hDrop _ h, hDrop _ hReverse, reverse_reverse, String.ofList_toList]

theorem trimSpace_of_parseIP {s : String} {ip : IP} (h : parseIP s = some ip) : trimSpace s = s :=
  trimSpace_of_no_space fun c hc => (mem_of_parseIP h c hc).not_isSpace

example : parseIP "10.0.0.1" = some (.ipv4 10 0 0 1) := by decide

example : parseIP "::ffff:10.0.0.1" = some (.ipv4 10 0 0 1) := by decide

example : parseIP " 10.0.0.1" = none := by decide

example : parseIP "10.0.0.01" = none := by decide

end Qapi.Core
