import Mathlib.Data.List.DropRight
import Mathlib.Data.List.Infix

/-!
# Texts

Trimming, containment, case folding, splitting and replacing of texts as Go's
`strings` package does them, on the list of characters. Case is that of the ASCII
letters.
-/

namespace Qapi.Core

open List

/-- `unicode.IsSpace`. -/
def isSpace (c : Char) : Bool :=
  c = '\t' || c = '\n' || c = '\x0b' || c = '\x0c' || c = '\r' || c = ' ' ||
    c = '\u0085' || c = '\u00a0' || c = '\u1680' || ('\u2000' ≤ c && c ≤ '\u200a') ||
    c = '\u2028' || c = '\u2029' || c = '\u202f' || c = '\u205f' || c = '\u3000'

/-- Drop the characters that satisfy `p` from both ends. -/
def trimList {α : Type*} (p : α → Bool) (l : List α) : List α :=
  ((l.dropWhile p).reverse.dropWhile p).reverse

/-- `strings.TrimSpace`. -/
def trimSpace (s : String) : String := String.ofList (trimList isSpace s.toList)

theorem trimList_trimList {α : Type*} (p : α → Bool) (l : List α) :
    trimList p (trimList p l) = trimList p l := by
  have hStart : (trimList p l).dropWhile p = trimList p l := by
    cases hTrim : trimList p l with
    | nil => rfl
    | cons a rest =>
      -- the result is a prefix of what is left of the list after its start was trimmed
      have hPrefix : a :: rest <+: l.dropWhile p := hTrim ▸ rdropWhile_prefix p _
      obtain ⟨more, hMore⟩ := hPrefix
      have hHead : p a = false := by
        have hDrop := head?_dropWhile_not p l
        rw [← hMore] at hDrop
        exact hDrop
      rw [dropWhile_cons_of_neg]
      rw [hHead]
      exact Bool.false_ne_true
  show ((trimList p l).dropWhile p).rdropWhile p = _
  rw [hStart]
  exact rdropWhile_idempotent p (l.dropWhile p)

@[simp] theorem trimSpace_trimSpace (s : String) : trimSpace (trimSpace s) = trimSpace s := by
  simp [trimSpace, trimList_trimList]

theorem trimList_eq_nil {α : Type*} {p : α → Bool} {l : List α} :
    trimList p l = [] ↔ ∀ a ∈ l, p a = true := by
  unfold trimList
  rw [reverse_eq_nil_iff, dropWhile_eq_nil_iff]
  constructor
  · intro h
    rw [← dropWhile_eq_nil_iff]
    by_contra hne
    -- what is left starts with an element that is not dropped
    have hHead := head_dropWhile_not p hne
    rw [h _ (mem_reverse.mpr (head_mem hne))] at hHead
    cases hHead
  · intro h a ha
    exact h a (dropWhile_sublist p |>.mem (mem_reverse.mp ha))

variable {s : String}

theorem trimSpace_eq_empty : trimSpace s = "" ↔ ∀ c ∈ s.toList, isSpace c = true := by
  unfold trimSpace
  rw [String.ofList_eq_empty_iff, trimList_eq_nil]

theorem trimSpace_append_ne_empty (h : trimSpace s ≠ "") (t : String) :
    trimSpace (s ++ t) ≠ "" := by
  intro hBlank
  rw [trimSpace_eq_empty, String.toList_append] at hBlank
  exact h (trimSpace_eq_empty.mpr fun c hc => hBlank c (mem_append_left _ hc))

variable {c : Char}

/-- `strings.Contains`. -/
def contains (s t : String) : Bool := decide (t.toList <:+: s.toList)

/-- `strings.HasPrefix`. -/
def startsWith (s t : String) : Bool := t.toList.isPrefixOf s.toList

example : trimSpace "\t request-1 \n" = "request-1" := by decide

example : contains "error: no active subscription" "no active" = true := by decide

/-- `strings.HasSuffix`. -/
def endsWith (s part : String) : Bool := part.toList.isSuffixOf s.toList

/-- `strings.ToLower` for ASCII letters; other letters, which Go folds too, are left alone. -/
def toLower (s : String) : String := String.ofList (s.toList.map Char.toLower)

/-- `strings.ToUpper`, likewise for ASCII letters only. -/
def toUpper (s : String) : String := String.ofList (s.toList.map Char.toUpper)

/-- `strings.EqualFold`, up to the case of ASCII letters. -/
def equalFold (s t : String) : Bool := toLower s == toLower t

/-- `strings.Split` at the occurrences of one character. -/
def split (s : String) (c : Char) : List String := (s.toList.splitOn c).map String.ofList

/-- `strings.Join`. -/
def join (parts : List String) (sep : String) : String := sep.intercalate parts

/-- The characters before and after the first occurrence of `t`. -/
def cutList {α : Type*} [BEq α] (t : List α) : List α → Option (List α × List α)
  | [] => if t.isEmpty then some ([], []) else none
  | a :: l =>
    if t.isPrefixOf (a :: l) then some ([], (a :: l).drop t.length)
    else (cutList t l).map fun (before, rest) => (a :: before, rest)

/-- `strings.Cut`. -/
def cut (s t : String) : Option (String × String) :=
  (cutList t.toList s.toList).map fun (before, rest) => (String.ofList before, String.ofList rest)

/-- `strings.Replace` of the first occurrence. -/
def replaceFirst (s old new : String) : String :=
  match cut s old with
  | some (before, rest) => before ++ new ++ rest
  | none => s

/-- Replace at most `n` occurrences, from the left. -/
def replaceList (old new : List Char) : Nat → List Char → List Char
  | 0, l => l
  | n + 1, l =>
    match cutList old l with
    | some (before, rest) => before ++ new ++ replaceList old new n rest
    | none => l

/-- `strings.ReplaceAll` of a text that is not empty. -/
def replaceAll (s old new : String) : String :=
  String.ofList (replaceList old.toList new.toList s.length s.toList)

/-- `strings.TrimPrefix`. -/
def trimStart (s t : String) : String :=
  if startsWith s t then String.ofList (s.toList.drop t.length) else s

/-- `strings.TrimSuffix`. -/
def trimEnd (s t : String) : String :=
  if endsWith s t then String.ofList (s.toList.take (s.length - t.length)) else s

/-- `strconv.Atoi`, without a bound on the number. -/
def atoi (s : String) : Option Int :=
  let (sign, digits) : Int × List Char := match s.toList with
    | '-' :: l => (-1, l)
    | '+' :: l => (1, l)
    | l => (1, l)
  if digits ≠ [] ∧ digits.all Char.isDigit then some (sign * Nat.ofDigitChars 10 digits 0)
  else none

example : atoi "-12" = some (-12) := by decide

theorem atoi_eq_some {i : Int} (h : atoi s = some i) :
    (∃ d ∈ s.toList, d.isDigit = true) ∧
      ∀ d ∈ s.toList, d.isDigit = true ∨ d = '-' ∨ d = '+' := by
  unfold atoi at h
  split at h
  rename_i sign digits hSign
  rw [Option.ite_none_right_eq_some] at h
  obtain ⟨⟨hne, hAll⟩, -⟩ := h
  rw [all_eq_true] at hAll
  obtain ⟨d, hd⟩ := exists_mem_of_ne_nil digits hne
  split at hSign <;> cases hSign
  case h_3 => exact ⟨⟨d, hd, hAll d hd⟩, fun a ha => Or.inl (hAll a ha)⟩
  all_goals
    rename_i hList
    rw [hList]
    exact ⟨⟨d, mem_cons_of_mem _ hd, hAll d hd⟩, by simpa using fun a ha => Or.inl (hAll a ha)⟩

theorem isSpace_of_isDigit (h : c.isDigit = true) : isSpace c = false := by
  have hNe : ∀ d : Char, d.isDigit = false → c ≠ d := by
    rintro d hd rfl
    rw [h] at hd
    cases hd
  have hLe : ¬ '\u2000' ≤ c := by
    simp only [Char.isDigit, Bool.and_eq_true, decide_eq_true_eq] at h
    exact fun hGe => absurd (UInt32.le_trans (Char.le_def.mp hGe) h.2) (by decide)
  simp [isSpace, hNe, hLe]

/-- A numeral has no dot and is not blank. -/
theorem atoi_plain {i : Int} (h : atoi s = some i) : '.' ∉ s.toList ∧ trimSpace s ≠ "" := by
  obtain ⟨⟨d, hd, hDigit⟩, hAll⟩ := atoi_eq_some h
  constructor
  · intro hDot
    rcases hAll '.' hDot with h | h | h <;> cases h
  · intro hBlank
    have hSpace := trimSpace_eq_empty.mp hBlank d hd
    rw [isSpace_of_isDigit hDigit] at hSpace
    cases hSpace

theorem toList_toString_int (i : Int) : (toString i).toList = Nat.toDigits 10 i.natAbs ∨
    (toString i).toList = '-' :: Nat.toDigits 10 i.natAbs := by
  cases i with
  | ofNat n =>
    left
    simp [toString, Int.repr]
  | negSucc n =>
    right
    simp [toString, Int.repr]

theorem toDigits_injective {m n : Nat} (h : Nat.toDigits 10 m = Nat.toDigits 10 n) : m = n := by
  have hValue := congrArg (fun l => Nat.ofDigitChars 10 l 0) h
  simpa [Nat.ofDigitChars_toDigits] using hValue

theorem toString_int_injective {i j : Int} (h : toString i = toString j) : i = j := by
  have hSign : ∀ m n : Nat, Nat.toDigits 10 m ≠ '-' :: Nat.toDigits 10 n := by
    intro m n hEq
    have hMem : '-' ∈ Nat.toDigits 10 m := by
      rw [hEq]
      exact mem_cons_self
    have hDigit := Nat.isDigit_of_mem_toDigits (by omega) (by omega) hMem
    cases hDigit
  have hList := congrArg String.toList h
  cases i with
  | ofNat m =>
    cases j with
    | ofNat n =>
      simp only [toString, Int.repr, Nat.toList_repr] at hList
      rw [toDigits_injective hList]
    | negSucc n =>
      simp only [toString, Int.repr, Nat.toList_repr, String.toList_append] at hList
      exact absurd hList (hSign m n.succ)
  | negSucc m =>
    cases j with
    | ofNat n =>
      simp only [toString, Int.repr, Nat.toList_repr, String.toList_append] at hList
      exact absurd hList.symm (hSign n m.succ)
    | negSucc n =>
      simp only [toString, Int.repr, Nat.toList_repr, String.toList_append] at hList
      have hDigits := toDigits_injective (append_cancel_left hList)
      rw [Nat.succ_inj.mp hDigits]

theorem notMem_toString_int (hDigit : c.isDigit = false) (hSign : c ≠ '-') (i : Int) :
    c ∉ (toString i).toList := by
  have hDigits : c ∉ Nat.toDigits 10 i.natAbs := by
    intro hMem
    rw [Nat.isDigit_of_mem_toDigits (by omega) (by omega) hMem] at hDigit
    cases hDigit
  rcases toList_toString_int i with h | h
  · rw [h]
    exact hDigits
  · rw [h, mem_cons, not_or]
    exact ⟨hSign, hDigits⟩

theorem eq_of_append_colon_toString {t : String} {i j : Int}
    (h : s ++ ":" ++ toString i = t ++ ":" ++ toString j) : s = t := by
  -- from the end, what comes before the first colon is the number
  have hDrop : ∀ (u : String) (k : Int),
      (u ++ ":" ++ toString k).toList.reverse.dropWhile (fun c => decide (c ≠ ':')) =
        ':' :: u.toList.reverse := by
    intro u k
    have hNumber : ∀ c ∈ (toString k).toList.reverse, decide (c ≠ ':') = true := by
      intro c hc
      rw [decide_eq_true_eq]
      rintro rfl
      exact notMem_toString_int (by decide) (by decide) k (mem_reverse.mp hc)
    have hSplit : (u ++ ":" ++ toString k).toList.reverse =
        (toString k).toList.reverse ++ ':' :: u.toList.reverse := by
      simp
    rw [hSplit, dropWhile_append_of_pos hNumber]
    simp
  have hRest := hDrop s i
  rw [h, hDrop t j] at hRest
  have hReverse : t.toList.reverse = s.toList.reverse := (cons.inj hRest).2
  exact (String.toList_inj.mp (reverse_injective hReverse)).symm

example : replaceAll "a.-1.-1" ".-1" "/" = "a//" := by decide

/-! ## Splitting and joining -/

theorem split_ne_nil (s : String) (c : Char) : split s c ≠ [] := by
  unfold split
  rw [Ne, map_eq_nil_iff]
  exact splitOn_ne_nil c s.toList

theorem toList_split : (split s c).map String.toList = s.toList.splitOn c := by
  simp [split, Function.comp_def]

variable {sep : String}

theorem join_split (hSep : sep.toList = [c]) (s : String) : join (split s c) sep = s := by
  apply String.toList_inj.mp
  rw [join, String.toList_intercalate, toList_split, hSep, intercalate_splitOn]

theorem notMem_of_mem_splitOn {l part : List Char} (h : part ∈ l.splitOn c) : c ∉ part := by
  induction l generalizing part with
  | nil =>
    rw [splitOn_nil, mem_singleton] at h
    rw [h]
    exact not_mem_nil
  | cons a l ih =>
    rw [splitOn, splitOnP_cons_eq_if_modifyHead] at h
    by_cases ha : a = c
    · rw [if_pos (beq_iff_eq.mpr ha), mem_cons] at h
      rcases h with rfl | h
      · exact not_mem_nil
      · exact ih h
    · rw [if_neg (by simpa using ha)] at h
      cases hParts : l.splitOn c with
      | nil => exact absurd hParts (splitOn_ne_nil c l)
      | cons first more =>
        rw [splitOn] at hParts
        rw [hParts, modifyHead_cons, mem_cons] at h
        rcases h with rfl | h
        · rw [mem_cons, not_or]
          exact ⟨fun hc => ha hc.symm, ih (by rw [splitOn, hParts]; exact mem_cons_self)⟩
        · exact ih (by rw [splitOn, hParts]; exact mem_cons_of_mem first h)

theorem notMem_of_mem_split {part : String} (h : part ∈ split s c) : c ∉ part.toList := by
  obtain ⟨chars, hChars, rfl⟩ := mem_map.mp h
  rw [String.toList_ofList]
  exact notMem_of_mem_splitOn hChars

theorem split_join_of_notMem {parts : List String} (hSep : sep.toList = [c])
    (hParts : ∀ part ∈ parts, c ∉ part.toList) (hne : parts ≠ []) :
    split (join parts sep) c = parts := by
  unfold split
  rw [join, String.toList_intercalate, hSep, splitOn_intercalate]
  · simp [Function.comp_def]
  · intro l hl
    obtain ⟨part, hPart, rfl⟩ := mem_map.mp hl
    exact hParts part hPart
  · simpa using hne

theorem join_flatMap_split (hSep : sep.toList = [c]) (parts : List String) :
    join (parts.flatMap fun part => split part c) sep = join parts sep := by
  induction parts with
  | nil => rfl
  | cons part parts ih =>
    rw [flatMap_cons]
    cases parts with
    | nil => rw [flatMap_nil, append_nil, join_split hSep, join, String.intercalate_singleton]
    | cons next parts =>
      have hMore : (next :: parts).flatMap (fun part => split part c) ≠ [] := by
        rw [flatMap_cons]
        exact append_ne_nil_of_left_ne_nil (split_ne_nil next c) _
      unfold join at ih ⊢
      rw [String.intercalate_append_of_ne_nil (split_ne_nil part c) hMore, ih,
        String.intercalate_cons_cons]
      congr 2
      exact join_split hSep part

theorem split_join {parts : List String} (hSep : sep.toList = [c]) (hne : parts ≠ []) :
    split (join parts sep) c = parts.flatMap fun part => split part c := by
  rw [← join_flatMap_split hSep]
  apply split_join_of_notMem hSep
  · intro part hPart
    obtain ⟨whole, -, hSplit⟩ := mem_flatMap.mp hPart
    exact notMem_of_mem_split hSplit
  · intro hNil
    rw [flatMap_eq_nil_iff] at hNil
    obtain ⟨part, hPart⟩ := exists_mem_of_ne_nil parts hne
    exact split_ne_nil part c (hNil part hPart)

theorem split_of_notMem (h : c ∉ s.toList) : split s c = [s] := by
  have hJoin : split (join [s] (String.singleton c)) c = [s] :=
    split_join_of_notMem (String.toList_singleton c) (by simpa using h) (by simp)
  rwa [join, String.intercalate_singleton] at hJoin

end Qapi.Core
