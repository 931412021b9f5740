/-
Text operations on strings, on their lists of characters.

`trimSpace` drops white space at both ends, for the characters Unicode calls
white space (`trimSpace_trimSpace`: doing so twice is doing so once); `contains`
looks for one string inside another, `split` cuts a string at a separator, and `equalFold` compares
without regard to case.
`byteLen` and `dropBytes` count in bytes of UTF-8.
-/
import Mathlib.Data.List.DropRight
import Mathlib.Data.List.Infix

open List

namespace Text

/-- The characters with the Unicode property White_Space. -/
def isSpace (c : Char) : Bool :=
  let n := c.toNat
  (9 ≤ n && n ≤ 13) || n = 32 || n = 0x85 || n = 0xa0 || n = 0x1680 ||
    (0x2000 ≤ n && n ≤ 0x200a) || n = 0x2028 || n = 0x2029 || n = 0x202f ||
    n = 0x205f || n = 0x3000

/-- Drop white space at both ends of a list of characters. -/
def trimChars (l : List Char) : List Char :=
  ((l.dropWhile isSpace).reverse.dropWhile isSpace).reverse

variable (s : String)

/-- Drop white space at both ends. -/
def trimSpace : String := String.ofList (trimChars s.toList)

/-- A list that does not begin with `p` loses nothing when its end is dropped. -/
theorem dropWhile_reverse_dropWhile {α : Type} (p : α → Bool) (l : List α) (h : l.dropWhile p = l) :
    (l.reverse.dropWhile p).reverse.dropWhile p = (l.reverse.dropWhile p).reverse := by
  cases l with
  | nil => rfl
  | cons a l =>
    have ha : ¬ p a = true := dropWhile_eq_self_iff.mp h (by simp)
    rw [reverse_cons, dropWhile_append]
    split_ifs
    · simp [ha]
    · simp [ha]

theorem trimChars_trimChars (l : List Char) : trimChars (trimChars l) = trimChars l := by
  have hfront : (trimChars l).dropWhile isSpace = trimChars l :=
    dropWhile_reverse_dropWhile isSpace _ (dropWhile_idempotent ..)
  rw [trimChars, hfront]
  simp only [trimChars, reverse_reverse, dropWhile_idempotent]

@[simp] theorem trimSpace_trimSpace : trimSpace (trimSpace s) = trimSpace s := by
  simp [trimSpace, trimChars_trimChars]

@[simp] theorem trimSpace_empty : trimSpace "" = "" := by decide

/-- The ASCII character that `c` folds to; the long s and the Kelvin sign are the only
ones from outside ASCII that do. -/
def foldChar (c : Char) : Char :=
  if c = '\u017f' then 's' else if c = '\u212a' then 'k' else c.toLower

/-- Equality under case folding, for an ASCII text `t`. -/
def equalFold (s t : String) : Bool := s.toList.map foldChar = t.toList.map foldChar

/-- Lower case, as far as a comparison with an ASCII text can tell: the Kelvin sign and the
dotted capital I are the only characters from outside ASCII whose lower case is in it. -/
def lowerChar (c : Char) : Char :=
  if c = '\u212a' then 'k' else if c = '\u0130' then 'i' else c.toLower

/-- Lower case, where `outside` gives that of the characters which have none in ASCII. -/
def toLower (outside : Char → Char) (s : String) : String :=
  String.ofList (s.toList.map fun c =>
    if c.toNat < 128 ∨ c = '\u212a' ∨ c = '\u0130' then lowerChar c else outside c)

/-- The letters of ASCII in lower case. -/
def lower : String := String.ofList (s.toList.map Char.toLower)

theorem toNat_toLower {c : Char} (hlow : 65 ≤ c.toNat) (hhigh : c.toNat ≤ 90) :
    c.toLower.toNat = c.toNat + 32 := by
  have h : c.val ≥ 'A'.val ∧ c.val ≤ 'Z'.val := ⟨hlow, hhigh⟩
  unfold Char.toLower
  rw [dif_pos h]
  show (c.val + ('a'.val - 'A'.val)).toNat = c.val.toNat + 32
  have hsum : ('a'.val - 'A'.val).toNat = 32 := rfl
  rw [UInt32.toNat_add, hsum]
  have hval : c.val.toNat ≤ 90 := hhigh
  omega

/-- The case of a letter does not make it white space. -/
theorem isSpace_toLower (c : Char) : isSpace c.toLower = isSpace c := by
  by_cases h : 65 ≤ c.toNat ∧ c.toNat ≤ 90
  · have hlower := toNat_toLower h.1 h.2
    have hbefore : isSpace c = false := by simp [isSpace]; omega
    have hafter : isSpace c.toLower = false := by simp [isSpace, hlower]; omega
    rw [hbefore, hafter]
  · have hnot : ¬ (c.val ≥ 'A'.val ∧ c.val ≤ 'Z'.val) := h
    have hsame : c.toLower = c := by
      unfold Char.toLower
      rw [dif_neg hnot]
    rw [hsame]

theorem trimChars_map_toLower (l : List Char) :
    trimChars (l.map Char.toLower) = (trimChars l).map Char.toLower := by
  have hspace : isSpace ∘ Char.toLower = isSpace := funext isSpace_toLower
  unfold trimChars
  rw [dropWhile_map, hspace, ← map_reverse, dropWhile_map, hspace, ← map_reverse]

theorem lower_trimSpace : lower (trimSpace s) = trimSpace (lower s) := by
  simp [lower, trimSpace, trimChars_map_toLower]

/-- `s` in lower case is the ASCII text `t`. -/
def lowerIs (s t : String) : Bool := s.toList.map lowerChar = t.toList

variable (l : List String)

theorem join_eq_empty_iff : String.join l = "" ↔ ∀ s ∈ l, s = "" := by
  induction l with
  | nil => simp
  | cons s l ih => simp [String.join_cons, ih]

/-- A text in pieces is its last piece exactly if the other pieces are empty. -/
theorem join_eq_getLast_iff : String.join l = l.getLast?.getD "" ↔ ∀ s ∈ l.dropLast, s = "" := by
  rcases eq_nil_or_concat l with rfl | ⟨init, last, rfl⟩
  · simp
  · rw [concat_eq_append, String.join_append, getLast?_concat, dropLast_concat, ← join_eq_empty_iff]
    simp [String.join_cons]

/-- The first text that is not empty. -/
def firstText : String := (l.find? (· ≠ "")).getD ""

theorem firstText_eq_empty_iff : firstText l = "" ↔ ∀ s ∈ l, s = "" := by
  induction l with
  | nil => simp [firstText]
  | cons s l ih =>
    by_cases hs : s = ""
    · simpa [firstText, find?_cons, hs] using ih
    · simp [firstText, hs]

theorem firstText_concat : firstText (l ++ [s]) = if firstText l = "" then s else firstText l := by
  induction l with
  | nil => by_cases hs : s = "" <;> simp [firstText, hs]
  | cons t l ih =>
    by_cases ht : t = ""
    · simpa [firstText, find?_cons, ht] using ih
    · simp [firstText, ht]

/-- A text in pieces is its first piece that is not empty exactly if there is at most one such. -/
theorem join_eq_firstText_iff : String.join l = firstText l ↔ (l.filter (· ≠ "")).length ≤ 1 := by
  induction l with
  | nil => simp [firstText]
  | cons s l ih =>
    by_cases hs : s = ""
    · simpa [firstText, find?_cons, hs, String.join_cons] using ih
    · simp [firstText, hs, String.join_cons, join_eq_empty_iff]

/-- Numbers are printed differently. -/
theorem toString_inj {m n : Nat} (h : toString m = toString n) : m = n := by
  have hdigits : Nat.toDigits 10 m = Nat.toDigits 10 n := String.ofList_injective h
  rw [← Nat.ofDigitChars_toDigits (b := 10) (n := m) (by decide) (by decide), hdigits,
    Nat.ofDigitChars_toDigits (by decide) (by decide)]

/-- The number of bytes that the characters take in UTF-8. -/
def charBytes : List Char → Nat
  | [] => 0
  | c :: l => c.utf8Size + charBytes l

/-- The characters from byte `n` on.  Each byte of a character that is cut in two is marshalled
as a replacement character. -/
def dropCharBytes : Nat → List Char → List Char
  | _, [] => []
  | 0, l => l
  | n + 1, c :: l =>
    if c.utf8Size ≤ n + 1 then dropCharBytes (n + 1 - c.utf8Size) l
    else List.replicate (c.utf8Size - (n + 1)) '\ufffd' ++ l

theorem dropCharBytes_append (l l' : List Char) : dropCharBytes (charBytes l) (l ++ l') = l' := by
  induction l with
  | nil => cases l' <;> rfl
  | cons c l ih =>
    obtain ⟨n, hn⟩ : ∃ n, c.utf8Size + charBytes l = n + 1 :=
      ⟨c.utf8Size + charBytes l - 1, by have := c.utf8Size_pos; omega⟩
    have hrest : n + 1 - c.utf8Size = charBytes l := by omega
    rw [charBytes, hn, cons_append, dropCharBytes, if_pos (by omega), hrest, ih]

/-- `len(s)` -/
def byteLen : Nat := charBytes s.toList

/-- `s[n:]` -/
def dropBytes (n : Nat) (s : String) : String := String.ofList (dropCharBytes n s.toList)

@[simp] theorem byteLen_empty : byteLen "" = 0 := by simp [byteLen, charBytes]

theorem byteLen_append (t : String) : byteLen (s ++ t) = byteLen s + byteLen t := by
  have hchars : ∀ l l' : List Char, charBytes (l ++ l') = charBytes l + charBytes l' := by
    intro l l'
    induction l with
    | nil => simp [charBytes]
    | cons c l ih => simp [charBytes, ih, Nat.add_assoc]
  simp [byteLen, hchars]

theorem byteLen_pos {s : String} (h : s ≠ "") : 0 < byteLen s := by
  cases hs : s.toList with
  | nil => exact absurd (String.toList_eq_nil_iff.mp hs) h
  | cons c l =>
    rw [byteLen, hs, charBytes]
    have := c.utf8Size_pos
    omega

@[simp] theorem dropBytes_append (t : String) : dropBytes (byteLen s) (s ++ t) = t := by
  simp [dropBytes, byteLen, dropCharBytes_append]

@[simp] theorem dropBytes_zero : dropBytes 0 s = s := by
  simpa using dropBytes_append "" s

/-- What a text continues with after its beginning. -/
theorem exists_append_of_prefix {s t : String} (h : s.toList <+: t.toList) :
    ∃ rest, t = s ++ rest := by
  obtain ⟨l, hl⟩ := h
  exact ⟨String.ofList l, String.toList_inj.mp (by simp [hl])⟩

variable (s pat : String)

/-- `pat` occurs in `s`. -/
def contains : Bool := decide (pat.toList <:+: s.toList)

def hasPrefix : Bool := pat.toList.isPrefixOf s.toList

def hasSuffix : Bool := pat.toList.isSuffixOf s.toList

/-- `s` without `pat` at its beginning. -/
def cutPrefix : String :=
  if hasPrefix s pat then String.ofList (s.toList.drop pat.toList.length) else s

/-- `s` without `pat` at its end. -/
def cutSuffix : String :=
  if hasSuffix s pat then String.ofList (s.toList.take (s.toList.length - pat.toList.length)) else s

/-- The parts between the occurrences of `sep`; `skip` characters of one are still to be passed, and
`part` is read so far. -/
def splitChars (sep : List Char) : Nat → List Char → List Char → List (List Char)
  | _, part, [] => [part]
  | skip + 1, part, _ :: l => splitChars sep skip part l
  | 0, part, c :: l =>
    if sep.isPrefixOf (c :: l) then part :: splitChars sep (sep.length - 1) [] l
    else splitChars sep 0 (part ++ [c]) l

/-- The parts of `s` between the occurrences of `sep`, which is not empty. -/
def split (s sep : String) : List String := (splitChars sep.toList 0 [] s.toList).map String.ofList

theorem splitChars_ne_nil (sep : List Char) (skip : Nat) (part l : List Char) :
    splitChars sep skip part l ≠ [] := by
  induction l generalizing skip part with
  | nil => simp [splitChars]
  | cons c l ih =>
    cases skip with
    | zero =>
      rw [splitChars]
      split
      · exact cons_ne_nil _ _
      · exact ih 0 _
    | succ skip => exact ih skip part

/-- There is always a part. -/
theorem split_ne_nil (sep : String) : split s sep ≠ [] := by
  rw [split, ne_eq, map_eq_nil_iff]
  exact splitChars_ne_nil sep.toList 0 [] s.toList

/-- `s` with the first occurrence of `pat` replaced. -/
def replaceFirst (s pat new : String) : String :=
  match split s pat with
  | first :: rest => if rest = [] then first else first ++ new ++ pat.intercalate rest
  | [] => s

end Text
