import BitCrawler.Python.Text
import Mathlib.Tactic.Ring

/-! # `str(...)` and `eval(...)` of the values the crawler stores

`crawl.py` writes every structured value into the store with `str(...)` and reads it back with
`eval(...)`: endpoint tuples in `pending`, key tuples in `mempool_pending`, peer lists under
`peer:*`, rule sets under `exclude-ipv*-networks`. The values are of three layers, and the model
has one type for each:

* `Atom`: a `str` or an `int`;
* `Item`: an atom, or a tuple of atoms;
* `Value`: an item, or a list or set of items.

`Value.repr` is CPython's `str()` of such a value (`repr` of each element, `", "` between
elements, `(x,)` for a one-tuple, `set()` for the empty set). Which non-ASCII characters `repr`
writes as they are is Python's Unicode table `Py_UNICODE_ISPRINTABLE`; it is the parameter
`printable`. `eval` reads the literal syntax that `str()` writes; text outside it gives `none`.

The main result is `eval_repr`: `eval(str(v)) = v` for every value and every printable table.
-/

namespace BitCrawler.Python
set_option autoImplicit false

/-- A Python scalar: `str` or `int`. -/
inductive Atom
  | str (s : String)
  | int (n : Int)
  deriving DecidableEq, Repr

/-- An element of a container: a scalar, or a tuple of scalars. -/
inductive Item
  | atom (a : Atom)
  | tuple (xs : List Atom)
  deriving DecidableEq, Repr

/-- A value the crawler writes with `str` and reads with `eval`. -/
inductive Value
  | item (x : Item)
  | list (xs : List Item)
  | set (xs : List Item)
  deriving DecidableEq, Repr

/-! ## `repr` -/

/-- `w` lower-case hex digits of `n`, most significant first. -/
def hexDigits : Nat → Nat → List Char
  | 0, _ => []
  | w + 1, n => hexDigits w (n / 16) ++ [Nat.digitChar (n % 16)]

/-- How `repr` writes one character of a string quoted with `q` (CPython `unicode_repr`). -/
def escape (printable : Char → Bool) (q c : Char) : List Char :=
  if c = q ∨ c = '\\' then ['\\', c]
  else if c = '\t' then ['\\', 't']
  else if c = '\n' then ['\\', 'n']
  else if c = '\r' then ['\\', 'r']
  else if c.toNat < 0x20 ∨ c.toNat = 0x7f then '\\' :: 'x' :: hexDigits 2 c.toNat
  else if c.toNat < 0x7f then [c]
  else if printable c then [c]
  else if c.toNat ≤ 0xff then '\\' :: 'x' :: hexDigits 2 c.toNat
  else if c.toNat ≤ 0xffff then '\\' :: 'u' :: hexDigits 4 c.toNat
  else '\\' :: 'U' :: hexDigits 8 c.toNat

/-- `repr` quotes with `"` exactly when the string holds `'` and no `"`. -/
def quoteOf (s : List Char) : Char := if '\'' ∈ s ∧ '"' ∉ s then '"' else '\''

/-- `repr(s)` of a string. -/
def reprStr (printable : Char → Bool) (s : String) : List Char :=
  quoteOf s.data :: s.data.flatMap (escape printable (quoteOf s.data)) ++ [quoteOf s.data]

/-- `", ".join(parts)`. -/
def joinSep : List (List Char) → List Char
  | [] => []
  | [x] => x
  | x :: y :: xs => x ++ ',' :: ' ' :: joinSep (y :: xs)

def Atom.repr (printable : Char → Bool) : Atom → List Char
  | .str s => reprStr printable s
  | .int n => (toString n).data

def Item.repr (printable : Char → Bool) : Item → List Char
  | .atom a => a.repr printable
  | .tuple [a] => '(' :: a.repr printable ++ [',', ')']
  | .tuple xs => '(' :: joinSep (xs.map (Atom.repr printable)) ++ [')']

def Value.repr (printable : Char → Bool) : Value → List Char
  | .item x => x.repr printable
  | .list xs => '[' :: joinSep (xs.map (Item.repr printable)) ++ [']']
  | .set [] => ['s', 'e', 't', '(', ')']
  | .set xs => '{' :: joinSep (xs.map (Item.repr printable)) ++ ['}']

/-- `str(v)`. -/
def Value.str (printable : Char → Bool) (v : Value) : String := ⟨v.repr printable⟩

/-! ## `eval` -/

/-- The value of a hex digit. -/
def hexValue (c : Char) : Option Nat :=
  if c.isDigit then some (c.toNat - 48)
  else if 97 ≤ c.toNat ∧ c.toNat ≤ 102 then some (c.toNat - 87)
  else if 65 ≤ c.toNat ∧ c.toNat ≤ 70 then some (c.toNat - 55)
  else none

/-- The value of a string of hex digits, read after `acc`. -/
def hexValueOf (acc : Nat) : List Char → Option Nat
  | [] => some acc
  | c :: cs => (hexValue c).bind fun d => hexValueOf (16 * acc + d) cs

/-- The character a `\x`, `\u` or `\U` escape names. -/
def hexChar (ds : List Char) : Option Char :=
  (hexValueOf 0 ds).bind fun v => if v.isValidChar then some (Char.ofNat v) else none

/-- The `n` hex digits at the front of `cs`, as the character they name, and the rest. -/
def hexEscape (n : Nat) (cs : List Char) : Option (Char × List Char) :=
  if (cs.take n).length = n then (hexChar (cs.take n)).map (·, cs.drop n) else none

/-- The escape after a backslash: the character it names and the text after it. -/
def unescape : List Char → Option (Char × List Char)
  | [] => none
  | e :: rest =>
    if e = 'x' then hexEscape 2 rest
    else if e = 'u' then hexEscape 4 rest
    else if e = 'U' then hexEscape 8 rest
    else if e = 't' then some ('\t', rest)
    else if e = 'n' then some ('\n', rest)
    else if e = 'r' then some ('\r', rest)
    else if e = '\\' ∨ e = '\'' ∨ e = '"' then some (e, rest)
    else none

/-- The body of a string literal quoted with `q`, up to its closing quote: the characters it
denotes and the text after the quote. Each round reads at least one character, so the length
of the text is enough `fuel`. -/
def parseBody (q : Char) : Nat → List Char → Option (List Char × List Char)
  | 0, _ => none
  | _ + 1, [] => none
  | fuel + 1, c :: rest =>
    if c = '\\' then
      (unescape rest).bind fun (d, r) => (parseBody q fuel r).map fun (s, r) => (d :: s, r)
    else if c = q then some ([], rest)
    else if c = '\n' then none
    else (parseBody q fuel rest).map fun (s, r) => (c :: s, r)

/-- A string literal in either quote. -/
def parseStr : List Char → Option (String × List Char)
  | q :: rest =>
    if q = '\'' ∨ q = '"' then (parseBody q rest.length rest).map fun (s, r) => (⟨s⟩, r)
    else none
  | [] => none

/-- A non-empty run of decimal digits. -/
def parseNat (cs : List Char) : Option (Nat × List Char) :=
  if cs.takeWhile Char.isDigit = [] then none
  else some (decimal (cs.takeWhile Char.isDigit), cs.dropWhile Char.isDigit)

/-- An integer literal, with an optional minus sign. -/
def parseInt (cs : List Char) : Option (Int × List Char) :=
  if cs.head? = some '-' then (parseNat cs.tail).map fun (n, r) => (-(n : Int), r)
  else (parseNat cs).map fun (n, r) => ((n : Int), r)

def parseAtom (cs : List Char) : Option (Atom × List Char) :=
  if cs.head? = some '\'' ∨ cs.head? = some '"' then (parseStr cs).map fun (s, r) => (.str s, r)
  else (parseInt cs).map fun (n, r) => (.int n, r)

/-- The elements of a sequence from its first element on, up to and including the closing
bracket `close`. Each round consumes at least one character, so the length of the text is
enough `fuel`. -/
def parseSeq {α : Type} (elem : List Char → Option (α × List Char)) (close : Char) :
    Nat → List Char → Option (List α × List Char)
  | 0, _ => none
  | fuel + 1, cs =>
    match elem cs with
    | some (x, ',' :: ' ' :: rest) => (parseSeq elem close fuel rest).map fun (xs, r) => (x :: xs, r)
    | some (x, ',' :: c :: rest) => if c = close then some ([x], rest) else none
    | some (x, c :: rest) => if c = close then some ([x], rest) else none
    | _ => none

/-- The elements of a sequence after its opening bracket. -/
def parseElems {α : Type} (elem : List Char → Option (α × List Char)) (close : Char)
    (cs : List Char) : Option (List α × List Char) :=
  if cs.head? = some close then some ([], cs.tail) else parseSeq elem close cs.length cs

def parseItem (cs : List Char) : Option (Item × List Char) :=
  if cs.head? = some '(' then (parseElems parseAtom ')' cs.tail).map fun (xs, r) => (.tuple xs, r)
  else (parseAtom cs).map fun (a, r) => (.atom a, r)

def parseValue (cs : List Char) : Option (Value × List Char) :=
  if cs.head? = some '[' then (parseElems parseItem ']' cs.tail).map fun (xs, r) => (.list xs, r)
  else if cs.head? = some '{' then
    (parseElems parseItem '}' cs.tail).bind fun (xs, r) =>
      if xs = [] then none else some (.set xs, r)
  else if cs.take 5 = ['s', 'e', 't', '(', ')'] then some (.set [], cs.drop 5)
  else (parseItem cs).map fun (x, r) => (.item x, r)

/-- `eval(text)` on the literal syntax `str` writes. -/
def eval (s : String) : Option Value :=
  match parseValue s.data with
  | some (v, []) => some v
  | _ => none

/-! ## Round trip -/

theorem hexValue_digitChar (k : Nat) (hk : k < 16) : hexValue (Nat.digitChar k) = some k := by
  have := (by decide : ∀ k : Fin 16, hexValue (Nat.digitChar k) = some k) ⟨k, hk⟩
  simpa using this

theorem hexValueOf_append (acc : Nat) (l l' : List Char) :
    hexValueOf acc (l ++ l') = (hexValueOf acc l).bind fun v => hexValueOf v l' := by
  induction l generalizing acc with
  | nil => rfl
  | cons c l ih => cases h : hexValue c <;> simp [hexValueOf, h, ih]

theorem hexValueOf_hexDigits (w n acc : Nat) :
    hexValueOf acc (hexDigits w n) = some (acc * 16 ^ w + n % 16 ^ w) := by
  induction w generalizing n acc with
  | zero => simp [hexDigits, hexValueOf, Nat.mod_one]
  | succ w ih =>
    rw [hexDigits, hexValueOf_append, ih]
    simp only [Option.some_bind, hexValueOf, hexValue_digitChar _ (Nat.mod_lt n (by decide))]
    rw [Nat.pow_succ, Nat.mul_comm (16 ^ w) 16, Nat.mod_mul]
    simp only [Option.some_bind, Option.some.injEq]
    ring

theorem hexChar_hexDigits (w : Nat) (c : Char) (h : c.toNat < 16 ^ w) :
    hexChar (hexDigits w c.toNat) = some c := by
  have hv : c.toNat.isValidChar := c.valid
  simp [hexChar, hexValueOf_hexDigits, Nat.mod_eq_of_lt h, hv]

theorem toNat_lt (c : Char) : c.toNat < 0x110000 := by
  have hv : c.toNat.isValidChar := c.valid
  rcases hv with h | h <;> omega

theorem hexEscape_hexDigits (n : Nat) (c : Char) (h : c.toNat < 16 ^ n) (rest : List Char)
    (hlen : (hexDigits n c.toNat).length = n) :
    hexEscape n (hexDigits n c.toNat ++ rest) = some (c, rest) := by
  simp [hexEscape, List.take_left' hlen, List.drop_left' hlen, hlen, hexChar_hexDigits n c h]

theorem length_hexDigits (n v : Nat) : (hexDigits n v).length = n := by
  induction n generalizing v with
  | zero => rfl
  | succ n ih => simp [hexDigits, ih]

/-- The six kinds of text `escape` writes for a character. -/
theorem escape_cases (pr : Char → Bool) (q c : Char) :
    (escape pr q c = ['\\', c] ∧ (c = q ∨ c = '\\')) ∨
    (escape pr q c = ['\\', 't'] ∧ c = '\t') ∨ (escape pr q c = ['\\', 'n'] ∧ c = '\n') ∨
    (escape pr q c = ['\\', 'r'] ∧ c = '\r') ∨
    (escape pr q c = [c] ∧ c ≠ q ∧ c ≠ '\\' ∧ c ≠ '\n') ∨
    (escape pr q c = '\\' :: 'x' :: hexDigits 2 c.toNat ∧ c.toNat < 16 ^ 2) ∨
    (escape pr q c = '\\' :: 'u' :: hexDigits 4 c.toNat ∧ c.toNat < 16 ^ 4) ∨
    (escape pr q c = '\\' :: 'U' :: hexDigits 8 c.toNat ∧ c.toNat < 16 ^ 8) := by
  have hlt := toNat_lt c
  unfold escape
  by_cases h1 : c = q ∨ c = '\\'
  · exact .inl ⟨if_pos h1, h1⟩
  rw [if_neg h1]
  by_cases h2 : c = '\t'
  · exact .inr (.inl ⟨if_pos h2, h2⟩)
  rw [if_neg h2]
  by_cases h3 : c = '\n'
  · exact .inr (.inr (.inl ⟨if_pos h3, h3⟩))
  rw [if_neg h3]
  by_cases h4 : c = '\r'
  · exact .inr (.inr (.inr (.inl ⟨if_pos h4, h4⟩)))
  rw [if_neg h4]
  have hplain := (not_or.mp h1).1
  have hbs := (not_or.mp h1).2
  by_cases h5 : c.toNat < 0x20 ∨ c.toNat = 0x7f
  · exact .inr (.inr (.inr (.inr (.inr (.inl ⟨if_pos h5, by omega⟩)))))
  rw [if_neg h5]
  by_cases h6 : c.toNat < 0x7f
  · exact .inr (.inr (.inr (.inr (.inl ⟨if_pos h6, hplain, hbs, h3⟩))))
  rw [if_neg h6]
  by_cases h7 : pr c = true
  · exact .inr (.inr (.inr (.inr (.inl ⟨if_pos h7, hplain, hbs, h3⟩))))
  rw [if_neg h7]
  by_cases h8 : c.toNat ≤ 0xff
  · exact .inr (.inr (.inr (.inr (.inr (.inl ⟨if_pos h8, by omega⟩)))))
  rw [if_neg h8]
  by_cases h9 : c.toNat ≤ 0xffff
  · exact .inr (.inr (.inr (.inr (.inr (.inr (.inl ⟨if_pos h9, by omega⟩))))))
  rw [if_neg h9]
  exact .inr (.inr (.inr (.inr (.inr (.inr (.inr ⟨rfl, by omega⟩))))))

/-- One character, as `repr` writes it inside quotes `q`, reads back as itself. -/
theorem parseBody_escape (pr : Char → Bool) (q c : Char) (hq : q = '\'' ∨ q = '"')
    (fuel : Nat) (rest : List Char) :
    parseBody q (fuel + 1) (escape pr q c ++ rest) =
      (parseBody q fuel rest).map fun (s, r) => (c :: s, r) := by
  have hesc : ∀ e, unescape (e ++ rest) = some (c, rest) →
      parseBody q (fuel + 1) ('\\' :: (e ++ rest)) =
        (parseBody q fuel rest).map fun (s, r) => (c :: s, r) := fun e he => by
    rw [parseBody, if_pos rfl, he, Option.some_bind]
  have hhex : ∀ (e : Char) (n : Nat), c.toNat < 16 ^ n →
      (∀ l, unescape (e :: l) = hexEscape n l) →
      parseBody q (fuel + 1) ('\\' :: (e :: (hexDigits n c.toNat ++ rest))) =
        (parseBody q fuel rest).map fun (s, r) => (c :: s, r) := fun e n hn he =>
    hesc (e :: hexDigits n c.toNat) (by
      rw [List.cons_append, he, hexEscape_hexDigits n c hn rest (length_hexDigits n _)])
  rcases escape_cases pr q c with ⟨h, h1⟩ | ⟨h, rfl⟩ | ⟨h, rfl⟩ | ⟨h, rfl⟩ | ⟨h, hq', hbs, hn⟩ |
      ⟨h, hn⟩ | ⟨h, hn⟩ | ⟨h, hn⟩ <;> rw [h]
  · refine hesc [c] ?_
    rcases h1 with rfl | rfl
    · rcases hq with rfl | rfl <;> rfl
    · rfl
  · exact hesc ['t'] rfl
  · exact hesc ['n'] rfl
  · exact hesc ['r'] rfl
  · rw [List.singleton_append, parseBody, if_neg hbs, if_neg hq', if_neg hn]
  · exact hhex 'x' 2 hn fun _ => rfl
  · exact hhex 'u' 4 hn fun _ => rfl
  · exact hhex 'U' 8 hn fun _ => rfl

theorem parseBody_escapes (pr : Char → Bool) (q : Char) (hq : q = '\'' ∨ q = '"')
    (s rest : List Char) (fuel : Nat) (hfuel : s.length < fuel) :
    parseBody q fuel (s.flatMap (escape pr q) ++ q :: rest) = some (s, rest) := by
  induction s generalizing fuel with
  | nil =>
    obtain ⟨fuel, rfl⟩ : ∃ k, fuel = k + 1 := ⟨fuel - 1, by simp at hfuel; omega⟩
    have hne : q ≠ '\\' := by rcases hq with rfl | rfl <;> decide
    simp [parseBody, hne]
  | cons c s ih =>
    obtain ⟨fuel, rfl⟩ : ∃ k, fuel = k + 1 := ⟨fuel - 1, by simp at hfuel; omega⟩
    rw [List.flatMap_cons, List.append_assoc, parseBody_escape pr q c hq,
      ih fuel (by simp at hfuel; omega)]
    rfl

theorem escape_ne_nil (pr : Char → Bool) (q c : Char) : escape pr q c ≠ [] := by
  rcases escape_cases pr q c with ⟨h, -⟩ | ⟨h, -⟩ | ⟨h, -⟩ | ⟨h, -⟩ | ⟨h, -⟩ | ⟨h, -⟩ | ⟨h, -⟩ |
    ⟨h, -⟩ <;> rw [h] <;> exact List.cons_ne_nil _ _

theorem length_le_flatMap_escape (pr : Char → Bool) (q : Char) (s : List Char) :
    s.length ≤ (s.flatMap (escape pr q)).length := by
  induction s with
  | nil => simp
  | cons c s ih => simp only [List.flatMap_cons, List.length_append, List.length_cons]; have := List.length_pos.mpr (escape_ne_nil pr q c); omega

theorem quoteOf_cases (s : List Char) : quoteOf s = '\'' ∨ quoteOf s = '"' := by
  unfold quoteOf; split <;> simp

theorem parseStr_reprStr (pr : Char → Bool) (s : String) (rest : List Char) :
    parseStr (reprStr pr s ++ rest) = some (s, rest) := by
  have hq := quoteOf_cases s.data
  have hlen := length_le_flatMap_escape pr (quoteOf s.data) s.data
  simp only [reprStr, List.cons_append, List.append_assoc, List.singleton_append, parseStr,
    if_pos hq]
  rw [parseBody_escapes pr _ hq _ _ _ (by simp only [List.length_append, List.length_cons]; omega)]
  rfl

/-- The text after a literal: empty, or starting with a character that is not a digit. -/
def Delim (rest : List Char) : Prop := ∀ c ∈ rest.head?, c.isDigit = false

theorem parseNat_toString (n : Nat) (rest : List Char) (h : Delim rest) :
    parseNat ((toString n).data ++ rest) = some (n, rest) := by
  have hdig := mem_toString n
  have hr : rest.takeWhile Char.isDigit = [] ∧ rest.dropWhile Char.isDigit = rest := by
    cases rest with
    | nil => simp
    | cons c r => simp [List.takeWhile_cons, List.dropWhile_cons, h c rfl]
  simp [parseNat, List.takeWhile_append_of_pos hdig, List.dropWhile_append_of_pos hdig, hr,
    toString_ne_nil, decimal_toString]

theorem head_toString (n : Nat) : ∃ d ds, (toString n).data = d :: ds ∧ d.isDigit = true := by
  obtain ⟨d, ds, e⟩ := List.exists_cons_of_ne_nil (toString_ne_nil n)
  exact ⟨d, ds, e, mem_toString n d (by rw [e]; exact List.mem_cons_self d ds)⟩

theorem parseInt_toString (n : Int) (rest : List Char) (h : Delim rest) :
    parseInt ((toString n).data ++ rest) = some (n, rest) := by
  cases n with
  | ofNat m =>
    obtain ⟨d, ds, e, hd⟩ := head_toString m
    have hne : d ≠ '-' := by rintro rfl; exact absurd hd (by decide)
    have : (toString (Int.ofNat m)).data = (toString m).data := rfl
    simp only [parseInt, this, e, List.cons_append, List.head?_cons, Option.some.injEq, hne,
      if_false]
    rw [← List.cons_append, ← e, parseNat_toString m rest h]
    rfl
  | negSucc m =>
    have : (toString (Int.negSucc m)).data = '-' :: (toString (m + 1)).data := rfl
    simp only [parseInt, this, List.cons_append, List.head?_cons, List.tail_cons, if_true,
      parseNat_toString _ rest h]
    rfl

theorem Atom.parse_repr (pr : Char → Bool) (a : Atom) (rest : List Char) (h : Delim rest) :
    parseAtom (a.repr pr ++ rest) = some (a, rest) := by
  cases a with
  | str s =>
    have hq := quoteOf_cases s.data
    have hh : (reprStr pr s ++ rest).head? = some (quoteOf s.data) := rfl
    simp only [Atom.repr, parseAtom, hh, parseStr_reprStr]
    rcases hq with hq | hq <;> simp [hq]
  | int n =>
    cases n with
    | ofNat m =>
      obtain ⟨d, ds, e, hd⟩ := head_toString m
      have hq : d ≠ '\'' ∧ d ≠ '"' := by constructor <;> rintro rfl <;> exact absurd hd (by decide)
      have : (toString (Int.ofNat m)).data = (toString m).data := rfl
      have hh : ((toString (Int.ofNat m)).data ++ rest).head? = some d := by rw [this, e]; rfl
      simp only [Atom.repr, parseAtom, hh, Option.some.injEq, hq.1, hq.2, or_self, if_false,
        parseInt_toString _ rest h]
      rfl
    | negSucc m =>
      have hh : ((toString (Int.negSucc m)).data ++ rest).head? = some '-' := rfl
      simp only [Atom.repr, parseAtom, hh, Option.some.injEq, parseInt_toString _ rest h]
      rfl

theorem length_le_joinSep {α : Type} (f : α → List Char) (hne : ∀ x, f x ≠ []) (xs : List α) :
    xs.length ≤ (joinSep (xs.map f)).length + 1 := by
  induction xs with
  | nil => simp
  | cons x xs ih =>
    cases xs with
    | nil => simp [joinSep]
    | cons y ys =>
      have := List.length_pos.mpr (hne x)
      simp only [List.map_cons, joinSep, List.length_append, List.length_cons] at ih ⊢
      omega

section Seq
variable {α : Type} (elem : List Char → Option (α × List Char)) (f : α → List Char)
  (close : Char) (hclose : close.isDigit = false ∧ close ≠ ',')
  (helem : ∀ x rest, Delim rest → elem (f x ++ rest) = some (x, rest))
include hclose helem

theorem parseSeq_joinSep (xs : List α) (hxs : xs ≠ []) (fuel : Nat) (hfuel : xs.length ≤ fuel)
    (rest : List Char) :
    parseSeq elem close fuel (joinSep (xs.map f) ++ close :: rest) = some (xs, rest) := by
  induction xs generalizing fuel with
  | nil => exact absurd rfl hxs
  | cons x xs ih =>
    obtain ⟨fuel, rfl⟩ : ∃ k, fuel = k + 1 := ⟨fuel - 1, by simp at hfuel; omega⟩
    cases xs with
    | nil =>
      have he := helem x (close :: rest) (by simp [Delim, hclose.1])
      simp only [List.map_cons, List.map_nil, joinSep] at he ⊢
      simp [parseSeq, he, hclose.2]
    | cons y ys =>
      have he := helem x (',' :: ' ' :: (joinSep ((y :: ys).map f) ++ close :: rest))
        (by simp [Delim])
      simp only [List.map_cons, joinSep, List.append_assoc, List.cons_append] at he ⊢
      simp only [parseSeq, he]
      rw [← List.map_cons, ih (List.cons_ne_nil y ys) fuel (by simp at hfuel ⊢; omega)]
      rfl

theorem parseElems_joinSep (hhead : ∀ x, ∃ c cs, f x = c :: cs ∧ c ≠ close) (xs : List α)
    (rest : List Char) :
    parseElems elem close (joinSep (xs.map f) ++ close :: rest) = some (xs, rest) := by
  cases xs with
  | nil => simp [parseElems, joinSep]
  | cons x xs =>
    obtain ⟨c, cs, e, hc⟩ := hhead x
    have hh : (joinSep ((x :: xs).map f) ++ close :: rest).head? = some c := by
      cases xs <;> simp [joinSep, e]
    have hne : ∀ x, f x ≠ [] := fun x => by
      obtain ⟨c, cs, e, -⟩ := hhead x
      simp [e]
    rw [parseElems, hh, if_neg (by simpa using hc)]
    exact parseSeq_joinSep elem f close hclose helem _ (List.cons_ne_nil x xs) _
      (by have := length_le_joinSep f hne (x :: xs)
          simp only [List.length_append, List.length_cons] at this ⊢; omega) rest

end Seq

theorem Atom.repr_head (pr : Char → Bool) (a : Atom) : ∃ c cs, a.repr pr = c :: cs ∧
    (c = '\'' ∨ c = '"' ∨ c = '-' ∨ c.isDigit = true) := by
  cases a with
  | str s => exact ⟨_, _, rfl, by rcases quoteOf_cases s.data with h | h <;> simp [h]⟩
  | int n =>
    cases n with
    | ofNat m =>
      obtain ⟨d, ds, e, hd⟩ := head_toString m
      exact ⟨d, ds, e, by simp [hd]⟩
    | negSucc m => exact ⟨'-', _, rfl, by simp⟩

theorem Item.repr_head (pr : Char → Bool) (x : Item) : ∃ c cs, x.repr pr = c :: cs ∧
    (c = '\'' ∨ c = '"' ∨ c = '-' ∨ c.isDigit = true ∨ c = '(') := by
  cases x with
  | atom a =>
    obtain ⟨c, cs, e, h⟩ := Atom.repr_head pr a
    exact ⟨c, cs, e, by tauto⟩
  | tuple xs =>
    match xs with
    | [] => exact ⟨'(', _, rfl, by simp⟩
    | [a] => exact ⟨'(', _, rfl, by simp⟩
    | a :: b :: xs => exact ⟨'(', _, rfl, by simp⟩

/-- No repr of a scalar or tuple starts with a closing bracket or a comma. -/
theorem head_ne_close (c : Char) (h : c = '\'' ∨ c = '"' ∨ c = '-' ∨ c.isDigit = true ∨ c = '(')
    (close : Char) (hclose : close = ')' ∨ close = ']' ∨ close = '}') : c ≠ close := by
  rintro rfl
  rcases hclose with rfl | rfl | rfl <;> revert h <;> decide

theorem Item.parse_repr (pr : Char → Bool) (x : Item) (rest : List Char) (h : Delim rest) :
    parseItem (x.repr pr ++ rest) = some (x, rest) := by
  have hatom : ∀ a : Atom, ∃ c cs, a.repr pr = c :: cs ∧ c ≠ ')' := fun a => by
    obtain ⟨c, cs, e, hc⟩ := Atom.repr_head pr a
    exact ⟨c, cs, e, head_ne_close c (by tauto) ')' (by simp)⟩
  have hclose : (')' : Char).isDigit = false ∧ (')' : Char) ≠ ',' := by decide
  cases x with
  | atom a =>
    obtain ⟨c, cs, e, hc⟩ := Atom.repr_head pr a
    have hh : (Item.repr pr (.atom a) ++ rest).head? = some c := by simp [Item.repr, e]
    have hne : c ≠ '(' := by rintro rfl; revert hc; decide
    rw [parseItem, hh, if_neg (by simpa using hne)]
    simp [Item.repr, Atom.parse_repr pr a rest h]
  | tuple xs =>
    match xs with
    | [a] =>
      obtain ⟨c, cs, e, hc⟩ := hatom a
      have hs : parseSeq parseAtom ')' (a.repr pr ++ ',' :: ')' :: rest).length
          (a.repr pr ++ ',' :: ')' :: rest) = some ([a], rest) := by
        rw [e, List.cons_append, List.length_cons, parseSeq, ← List.cons_append, ← e,
          Atom.parse_repr pr a _ (by simp [Delim])]
        simp
      simp only [Item.repr, parseItem, List.cons_append, List.head?_cons, if_true, List.tail_cons,
        List.append_assoc, List.singleton_append, List.nil_append, parseElems, e, Option.some.injEq, hc, if_false]
      rw [← List.cons_append, ← e, hs]
      rfl
    | [] => simp [Item.repr, parseItem, parseElems, joinSep]
    | a :: b :: xs =>
      have := parseElems_joinSep parseAtom (Atom.repr pr) ')' hclose
        (fun a rest h => Atom.parse_repr pr a rest h) hatom (a :: b :: xs) rest
      simp only [Item.repr, parseItem, List.cons_append, List.head?_cons, if_true, List.tail_cons,
        List.append_assoc, List.singleton_append, List.nil_append, this]
      rfl

theorem Value.parse_repr (pr : Char → Bool) (v : Value) (rest : List Char) (h : Delim rest) :
    parseValue (v.repr pr ++ rest) = some (v, rest) := by
  have hitem : ∀ x, ∃ c cs, Item.repr pr x = c :: cs ∧ c ≠ ']' ∧ c ≠ '}' := fun x => by
    obtain ⟨c, cs, e, hc⟩ := Item.repr_head pr x
    exact ⟨c, cs, e, head_ne_close c hc _ (by simp), head_ne_close c hc _ (by simp)⟩
  cases v with
  | item x =>
    obtain ⟨c, cs, e, hc⟩ := Item.repr_head pr x
    have h1 : c ≠ '[' ∧ c ≠ '{' ∧ c ≠ 's' := by
      refine ⟨?_, ?_, ?_⟩ <;> rintro rfl <;> revert hc <;> decide
    have htake : ((c :: cs) ++ rest).take 5 ≠ ['s', 'e', 't', '(', ')'] := by
      simp [h1.2.2]
    simp only [Value.repr, e, parseValue, List.cons_append, List.head?_cons, Option.some.injEq,
      h1.1, h1.2.1, if_false]
    rw [if_neg (by simpa using htake), ← List.cons_append, ← e, Item.parse_repr pr x rest h]
    rfl
  | list xs =>
    have := parseElems_joinSep parseItem (Item.repr pr) ']' (by decide)
      (fun x rest h => Item.parse_repr pr x rest h) (fun x => by
        obtain ⟨c, cs, e, h1, -⟩ := hitem x; exact ⟨c, cs, e, h1⟩) xs rest
    simp only [Value.repr, parseValue, List.cons_append, List.head?_cons, if_true,
      List.tail_cons, List.append_assoc, List.singleton_append, List.nil_append, this]
    rfl
  | set xs =>
    match xs with
    | [] => simp [Value.repr, parseValue]
    | x :: xs =>
      have := parseElems_joinSep parseItem (Item.repr pr) '}' (by decide)
        (fun x rest h => Item.parse_repr pr x rest h) (fun x => by
          obtain ⟨c, cs, e, -, h2⟩ := hitem x; exact ⟨c, cs, e, h2⟩) (x :: xs) rest
      have h1 : ('{' : Char) ≠ '[' := by decide
      simp only [Value.repr, parseValue, List.cons_append, List.head?_cons, Option.some.injEq,
        h1, if_false, if_true, List.tail_cons, List.append_assoc, List.singleton_append,
        List.nil_append]
      rw [this]
      simp

/-- `eval(str(v)) = v`: every value the crawler stores reads back as itself. -/
theorem eval_str (pr : Char → Bool) (v : Value) : eval (v.str pr) = some v := by
  have := Value.parse_repr pr v [] (by simp [Delim])
  rw [List.append_nil] at this
  simp [eval, Value.str, this]

end BitCrawler.Python
