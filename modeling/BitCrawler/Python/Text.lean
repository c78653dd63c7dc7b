import Mathlib.Data.List.Basic
import Mathlib.Data.Nat.Digits
import Mathlib.Data.String.Basic

/-! # Python text primitives used by `crawl.py`

The crawler builds its store keys with f-strings and takes them apart again with slices and
`str.split`. Each of these is modelled here on the characters of the string, by structural
recursion, so that the kernel can run it:

* `split s sep maxsplit` is `s.split(sep, maxsplit)` for a one-character separator;
* `drop n s` is the slice `s[n:]`, `endsWith` is `str.endswith`, `strip` is `str.strip()`;
* `str(n)` of a non-negative integer is Lean's `toString n`, and `int(text)` is `toInt`.

The facts the crawler relies on are `split_parts` (a key whose first two parts hold no `-`
splits back into its parts), `not_mem_split_two` (the first two parts `split` returns hold no
`-`) and `toInt_intToString` (`int(str(n)) = n`).
-/

namespace BitCrawler.Python
set_option autoImplicit false

/-! ## Splitting -/

/-- The characters before the first `sep`, and the rest from that `sep` on. -/
def breakAt (sep : Char) : List Char → List Char × List Char
  | [] => ([], [])
  | c :: cs => if c = sep then ([], c :: cs) else ((breakAt sep cs).1.cons c, (breakAt sep cs).2)

/-- `str.split(sep, maxsplit)` on a list of characters. -/
def splitChars (sep : Char) : Nat → List Char → List (List Char)
  | 0, cs => [cs]
  | n + 1, cs =>
    match breakAt sep cs with
    | (pre, []) => [pre]
    | (pre, _ :: rest) => pre :: splitChars sep n rest

/-- `str.split(sep)` with no `maxsplit`: at every `sep`. -/
def splitAll (sep : Char) (cs : List Char) : List (List Char) := splitChars sep cs.length cs

/-- `s.split(sep, maxsplit)`. -/
def split (s : String) (sep : Char) (maxsplit : Nat) : List String :=
  (splitChars sep maxsplit s.data).map String.mk

/-- The slice `s[n:]`. -/
def drop (n : Nat) (s : String) : String := ⟨s.data.drop n⟩

/-- `s.endswith(suffix)`. -/
def endsWith (s suffix : String) : Bool := suffix.data.isSuffixOf s.data

theorem breakAt_append (sep : Char) (pre rest : List Char) (h : sep ∉ pre) :
    breakAt sep (pre ++ sep :: rest) = (pre, sep :: rest) := by
  induction pre with
  | nil => simp [breakAt]
  | cons c pre ih =>
    have hc : c ≠ sep := fun e => h (e ▸ List.mem_cons_self c pre)
    have hpre : sep ∉ pre := fun m => h (List.mem_cons_of_mem c m)
    simp [breakAt, hc, ih hpre]

theorem breakAt_of_not_mem (sep : Char) (cs : List Char) (h : sep ∉ cs) :
    breakAt sep cs = (cs, []) := by
  induction cs with
  | nil => rfl
  | cons c cs ih =>
    have hc : c ≠ sep := fun e => h (e ▸ List.mem_cons_self c cs)
    simp [breakAt, hc, ih (fun m => h (List.mem_cons_of_mem c m))]

theorem splitChars_append (sep : Char) (n : Nat) (pre rest : List Char) (h : sep ∉ pre) :
    splitChars sep (n + 1) (pre ++ sep :: rest) = pre :: splitChars sep n rest := by
  simp [splitChars, breakAt_append sep pre rest h]

/-- A string `a-p-s` whose parts `a` and `p` hold no `-` splits back into `[a, p, s]` under
`split('-', 2)`, whatever `s` holds. -/
theorem split_parts (a p s : String) (ha : '-' ∉ a.data) (hp : '-' ∉ p.data) :
    split (a ++ "-" ++ p ++ "-" ++ s) '-' 2 = [a, p, s] := by
  have e : (a ++ "-" ++ p ++ "-" ++ s).data = a.data ++ '-' :: (p.data ++ '-' :: s.data) := by
    simp [String.data_append]
  rw [split, e, splitChars_append _ 1 _ _ ha, splitChars_append _ 0 _ _ hp]
  rfl

theorem not_mem_breakAt (sep : Char) (cs : List Char) : sep ∉ (breakAt sep cs).1 := by
  induction cs with
  | nil => simp [breakAt]
  | cons c cs ih =>
    unfold breakAt
    split_ifs with h
    · simp
    · simpa [Ne.symm h] using ih

/-- The first two parts `split(sep, 2)` returns hold no `sep`. -/
theorem not_mem_split_two {s : String} {sep : Char} {a p r : String}
    (h : split s sep 2 = [a, p, r]) : sep ∉ a.data ∧ sep ∉ p.data := by
  unfold split at h
  simp only [splitChars] at h
  split at h
  · simp at h
  · rename_i pre _ rest hb
    split at h
    · simp at h
    · rename_i pre' _ rest' hb'
      simp only [List.map_cons, List.map_nil, List.cons.injEq] at h
      obtain ⟨rfl, rfl, -⟩ := h
      exact ⟨by simpa [hb] using not_mem_breakAt sep s.data, by simpa [hb'] using not_mem_breakAt sep rest⟩

theorem drop_append (pre s : String) : drop pre.length (pre ++ s) = s := by
  simp only [drop, String.data_append, String.length, List.drop_left]

/-! ## Whitespace -/

/-- `str.isspace` on one character: Python's whitespace set. -/
def isSpace (c : Char) : Bool :=
  c = ' ' || (0x09 ≤ c.toNat && c.toNat ≤ 0x0d) || (0x1c ≤ c.toNat && c.toNat ≤ 0x1f) ||
    c.toNat = 0x85 || c.toNat = 0xa0 || c.toNat = 0x1680 ||
    (0x2000 ≤ c.toNat && c.toNat ≤ 0x200a) || c.toNat = 0x2028 || c.toNat = 0x2029 ||
    c.toNat = 0x202f || c.toNat = 0x205f || c.toNat = 0x3000

/-- `str.strip()` with no argument. -/
def strip (cs : List Char) : List Char :=
  ((cs.dropWhile isSpace).reverse.dropWhile isSpace).reverse

/-! ## Integers as text -/

/-- The value of one ASCII decimal digit. -/
def digitVal (c : Char) : Nat := c.toNat - '0'.toNat

/-- The value of a string of decimal digits, most significant first. -/
def decimal (ds : List Char) : Nat := ds.foldl (fun acc c => 10 * acc + digitVal c) 0

/-- A non-empty string of ASCII digits, read as a number. -/
def digitsValue (ds : List Char) : Option Nat :=
  if ds ≠ [] ∧ ds.all Char.isDigit then some (decimal ds) else none

/-- `int(text)` for text in base 10: Python's whitespace strip, an optional sign, then ASCII
digits. (Python also takes `_` between digits and non-ASCII digits; no text the crawler
converts has either.) -/
def toInt (s : String) : Option Int :=
  match strip s.data with
  | '-' :: ds => (digitsValue ds).map fun n => -(n : Int)
  | '+' :: ds => (digitsValue ds).map fun n => (n : Int)
  | ds => (digitsValue ds).map fun n => (n : Int)

theorem digitChar_isDigit (k : Nat) (hk : k < 10) : (Nat.digitChar k).isDigit = true := by
  have := (by decide : ∀ k : Fin 10, (Nat.digitChar k).isDigit = true) ⟨k, hk⟩
  simpa using this

theorem digitVal_digitChar (k : Nat) (hk : k < 10) : digitVal (Nat.digitChar k) = k := by
  have := (by decide : ∀ k : Fin 10, digitVal (Nat.digitChar k) = k) ⟨k, hk⟩
  simpa using this

theorem mem_toDigitsCore (fuel n : Nat) (ds : List Char) (c : Char)
    (h : c ∈ Nat.toDigitsCore 10 fuel n ds) : c.isDigit = true ∨ c ∈ ds := by
  induction fuel generalizing n ds with
  | zero => exact .inr h
  | succ fuel ih =>
    simp only [Nat.toDigitsCore] at h
    have hd := digitChar_isDigit (n % 10) (Nat.mod_lt n (by decide))
    split at h
    · rcases List.mem_cons.mp h with rfl | h
      · exact .inl hd
      · exact .inr h
    · rcases ih _ _ h with h | h
      · exact .inl h
      · rcases List.mem_cons.mp h with rfl | h
        · exact .inl hd
        · exact .inr h

theorem decimal_toDigitsCore (fuel n : Nat) (ds : List Char) (h : n < fuel) :
    (Nat.toDigitsCore 10 fuel n ds).foldl (fun acc c => 10 * acc + digitVal c) 0 =
      ds.foldl (fun acc c => 10 * acc + digitVal c) n := by
  induction fuel generalizing n ds with
  | zero => omega
  | succ fuel ih =>
    have hd := digitVal_digitChar (n % 10) (Nat.mod_lt n (by decide))
    simp only [Nat.toDigitsCore]
    split
    · rename_i h0
      simp only [List.foldl_cons, hd]
      congr 1
      omega
    · rw [ih _ _ (by omega), List.foldl_cons, hd]
      congr 1
      omega

theorem mem_toString (n : Nat) (c : Char) (h : c ∈ (toString n).data) : c.isDigit = true := by
  rcases mem_toDigitsCore _ _ _ c h with h | h
  · exact h
  · simp at h

theorem toDigitsCore_ne_nil (fuel n : Nat) (d : Char) (ds : List Char) :
    Nat.toDigitsCore 10 fuel n (d :: ds) ≠ [] := by
  induction fuel generalizing n d ds with
  | zero => simp [Nat.toDigitsCore]
  | succ fuel ih => simp only [Nat.toDigitsCore]; split <;> simp [ih]

theorem toString_ne_nil (n : Nat) : (toString n).data ≠ [] := by
  simp only [toString, Nat.repr, Nat.toDigits, List.asString, Nat.toDigitsCore]
  split <;> simp [toDigitsCore_ne_nil]

theorem dash_not_mem_toString (n : Nat) : '-' ∉ (toString n).data :=
  fun h => absurd (mem_toString n '-' h) (by decide)

theorem decimal_toString (n : Nat) : decimal (toString n).data = n := by
  simpa using decimal_toDigitsCore (n + 1) n [] (by omega)

theorem isDigit_iff (c : Char) : c.isDigit = true ↔ 48 ≤ c.toNat ∧ c.toNat ≤ 57 := by
  simp [Char.isDigit, Char.le_def, UInt32.le_def]
  rfl

theorem isSpace_digit (c : Char) (h : c.isDigit = true) : isSpace c = false := by
  rw [isDigit_iff] at h
  have hsp : c ≠ ' ' := by rintro rfl; simp at h
  simp only [isSpace, hsp, decide_False, Bool.false_or, Bool.or_eq_false_iff, Bool.and_eq_false_imp,
    decide_eq_true_eq, decide_eq_false_iff_not]
  omega

theorem dropWhile_isSpace (l : List Char) (h : ∀ c ∈ l, c.isDigit = true) :
    l.dropWhile isSpace = l := by
  cases l with
  | nil => rfl
  | cons c l => simp [List.dropWhile_cons, isSpace_digit c (h c (List.mem_cons_self c l))]

theorem strip_digits (ds : List Char) (h : ∀ c ∈ ds, c.isDigit = true) : strip ds = ds := by
  unfold strip
  rw [dropWhile_isSpace ds h, dropWhile_isSpace ds.reverse (fun c hc => h c (List.mem_reverse.mp hc)),
    List.reverse_reverse]

/-- `int(str(n)) = n` for every non-negative integer. -/
theorem toInt_toString (n : Nat) : toInt (toString n) = some (n : Int) := by
  have hdig := mem_toString n
  have hne := toString_ne_nil n
  have hval : digitsValue (toString n).data = some n := by
    simp [digitsValue, hne, List.all_eq_true.mpr hdig, decimal_toString]
  unfold toInt
  rw [strip_digits _ hdig]
  split
  · rename_i ds e
    exact absurd (hdig '-' (by rw [e]; exact List.mem_cons_self _ _)) (by decide)
  · rename_i ds e
    exact absurd (hdig '+' (by rw [e]; exact List.mem_cons_self _ _)) (by decide)
  · simp [hval]

end BitCrawler.Python
