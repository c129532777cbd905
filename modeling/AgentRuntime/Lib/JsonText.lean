import Mathlib.Data.List.Basic
import Mathlib.Data.List.Nodup
import Mathlib.Data.List.Sort
import Mathlib.Tactic.IntervalCases

/-!
# JSON as text

Values without floats, their compact text (`dump`), and a reader for texts
(`loads`) in the manner of a recursive descent: white space between tokens is
passed over, strings have their escapes, a key that is repeated has its last
value, and what follows the value is refused.

`loads_dump` is the round trip: a value whose keys are different at every
level is read back. So the text is a code: it tells the values apart
(`dump_injective`). The step behind it, `value_dump`, is about a text that goes
on after the value, as it does inside of an array or an object.

Characters are scalar values; a lone surrogate escape is not read, and neither
is a number with a fraction or an exponent.
-/

namespace JsonText

/-- A JSON value without floats. -/
inductive Tree
  | null
  | bool (b : Bool)
  | int (n : Int)
  | str (s : List Char)
  | arr (items : List Tree)
  | obj (fields : List (List Char × Tree))

/-! ## Writing -/

/-- A hexadecimal digit. -/
def hexDigit (n : Nat) : Char := Nat.digitChar n

/-- A character inside of a string. -/
def escape (c : Char) : List Char :=
  if c = '"' then ['\\', '"']
  else if c = '\\' then ['\\', '\\']
  else if c = '\n' then ['\\', 'n']
  else if c = '\r' then ['\\', 'r']
  else if c = '\t' then ['\\', 't']
  else if c = '\x08' then ['\\', 'b']
  else if c = '\x0c' then ['\\', 'f']
  else if c.toNat < 32 then ['\\', 'u', '0', '0', hexDigit (c.toNat / 16), hexDigit (c.toNat % 16)]
  else [c]

/-- A string literal. -/
def quote (s : List Char) : List Char := '"' :: s.flatMap escape ++ ['"']

/-- A decimal numeral. -/
def numeral : Int → List Char
  | .ofNat n => Nat.toDigits 10 n
  | .negSucc n => '-' :: Nat.toDigits 10 (n + 1)

theorem numeral_ofNat (n : Nat) : numeral (.ofNat n) = Nat.toDigits 10 n := rfl

mutual

/-- The compact text of a value. -/
def dump : Tree → List Char
  | .null => ['n', 'u', 'l', 'l']
  | .bool true => ['t', 'r', 'u', 'e']
  | .bool false => ['f', 'a', 'l', 's', 'e']
  | .int n => numeral n
  | .str s => quote s
  | .arr [] => ['[', ']']
  | .arr (item :: items) => '[' :: dump item ++ dumpItems items ++ [']']
  | .obj [] => ['{', '}']
  | .obj ((key, value) :: fields) =>
    '{' :: quote key ++ ':' :: dump value ++ dumpFields fields ++ ['}']

/-- The items after the first one. -/
def dumpItems : List Tree → List Char
  | [] => []
  | item :: items => ',' :: dump item ++ dumpItems items

/-- The fields after the first one. -/
def dumpFields : List (List Char × Tree) → List Char
  | [] => []
  | (key, value) :: fields => ',' :: quote key ++ ':' :: dump value ++ dumpFields fields

end

/-! ## Reading -/

def isSpace (c : Char) : Bool := c = ' ' || c = '\t' || c = '\n' || c = '\r'

/-- Pass over white space. -/
def skip (cs : List Char) : List Char := cs.dropWhile isSpace

/-- The value of a hexadecimal digit. -/
def hexValue (c : Char) : Option Nat :=
  if '0' ≤ c ∧ c ≤ '9' then some (c.toNat - 48)
  else if 'a' ≤ c ∧ c ≤ 'f' then some (c.toNat - 87)
  else if 'A' ≤ c ∧ c ≤ 'F' then some (c.toNat - 55)
  else none

/-- Four hexadecimal digits. -/
def hex4 (a b c d : Char) : Option Nat := do
  let a ← hexValue a
  let b ← hexValue b
  let c ← hexValue c
  let d ← hexValue d
  pure (((a * 16 + b) * 16 + c) * 16 + d)

/-- The character of a `\u` escape, of a pair of them for a surrogate pair,
and what is left. -/
def unicodeEscape : List Char → Option (Char × List Char)
  | a :: b :: c :: d :: rest => do
    let n ← hex4 a b c d
    if n < 0xD800 ∨ 0xDFFF < n then pure (Char.ofNat n, rest)
    else if 0xDC00 ≤ n then none
    else
      match rest with
      | '\\' :: 'u' :: a :: b :: c :: d :: rest => do
        let low ← hex4 a b c d
        if 0xDC00 ≤ low ∧ low ≤ 0xDFFF then
          pure (Char.ofNat (0x10000 + (n - 0xD800) * 0x400 + (low - 0xDC00)), rest)
        else none
      | _ => none
  | _ => none

/-- The character of an escape, the backslash being read. -/
def unescape : List Char → Option (Char × List Char)
  | '"' :: rest => some ('"', rest)
  | '\\' :: rest => some ('\\', rest)
  | '/' :: rest => some ('/', rest)
  | 'b' :: rest => some ('\x08', rest)
  | 'f' :: rest => some ('\x0c', rest)
  | 'n' :: rest => some ('\n', rest)
  | 'r' :: rest => some ('\r', rest)
  | 't' :: rest => some ('\t', rest)
  | 'u' :: rest => unicodeEscape rest
  | _ => none

/-- The rest of a string literal, the opening quote being read. -/
def string : Nat → List Char → Option (List Char × List Char)
  | 0, _ => none
  | _ + 1, [] => none
  | fuel + 1, c :: cs =>
    if c = '"' then some ([], cs)
    else if c = '\\' then do
      let (c, cs) ← unescape cs
      let (s, cs) ← string fuel cs
      pure (c :: s, cs)
    else if c.toNat < 32 then none
    else do
      let (s, cs) ← string fuel cs
      pure (c :: s, cs)

/-- A fraction or an exponent comes next. -/
def goesOn : List Char → Bool
  | '.' :: c :: _ => c.isDigit
  | 'e' :: c :: _ => c.isDigit || c = '-' || c = '+'
  | 'E' :: c :: _ => c.isDigit || c = '-' || c = '+'
  | _ => false

/-- A number without a sign. -/
def natural (cs : List Char) : Option (Nat × List Char) :=
  match cs with
  | [] => none
  | c :: cs =>
    if c = '0' then if goesOn cs then none else some (0, cs)
    else if c.isDigit then
      let rest := cs.dropWhile Char.isDigit
      if goesOn rest then none
      else some (Nat.ofDigitChars 10 (c :: cs.takeWhile Char.isDigit) 0, rest)
    else none

/-- A field of an object: a key that is there keeps its place and takes the
new value. -/
def setField (fields : List (List Char × Tree)) (key : List Char) (value : Tree) :
    List (List Char × Tree) :=
  if key ∈ fields.map (·.1) then fields.map (fun f => if f.1 = key then (key, value) else f)
  else fields ++ [(key, value)]

/-- What comes after `expected`. -/
def expect (expected : List Char) (t : Tree) (cs : List Char) : Option (Tree × List Char) :=
  if expected <+: cs then some (t, cs.drop expected.length) else none

mutual

/-- A value, and what is left. -/
def value : Nat → List Char → Option (Tree × List Char)
  | 0, _ => none
  | _ + 1, [] => none
  | fuel + 1, c :: cs =>
    if c = '"' then do
      let (s, cs) ← string fuel cs
      pure (.str s, cs)
    else if c = '[' then
      match skip cs with
      | ']' :: cs => some (.arr [], cs)
      | cs => items fuel [] cs
    else if c = '{' then
      match skip cs with
      | '}' :: cs => some (.obj [], cs)
      | cs => fields fuel [] cs
    else if c = 'n' then expect ['u', 'l', 'l'] .null cs
    else if c = 't' then expect ['r', 'u', 'e'] (.bool true) cs
    else if c = 'f' then expect ['a', 'l', 's', 'e'] (.bool false) cs
    else if c = '-' then do
      let (n, cs) ← natural cs
      pure (.int (-n), cs)
    else do
      let (n, cs) ← natural (c :: cs)
      pure (.int n, cs)

/-- The items of an array, with those read before. -/
def items : Nat → List Tree → List Char → Option (Tree × List Char)
  | 0, _, _ => none
  | fuel + 1, before, cs => do
    let (item, cs) ← value fuel cs
    match skip cs with
    | ']' :: cs => pure (.arr (before ++ [item]), cs)
    | ',' :: cs => items fuel (before ++ [item]) (skip cs)
    | _ => none

/-- The fields of an object, with those read before. -/
def fields : Nat → List (List Char × Tree) → List Char → Option (Tree × List Char)
  | 0, _, _ => none
  | fuel + 1, before, cs =>
    match cs with
    | '"' :: cs => do
      let (key, cs) ← string fuel cs
      match skip cs with
      | ':' :: cs => do
        let (field, cs) ← value fuel (skip cs)
        match skip cs with
        | '}' :: cs => pure (.obj (setField before key field), cs)
        | ',' :: cs => fields fuel (setField before key field) (skip cs)
        | _ => none
      | _ => none
    | _ => none

end

/-- The value of a text, which is all there is. -/
def loads (cs : List Char) : Option Tree := do
  let (t, rest) ← value (cs.length + 1) (skip cs)
  match skip rest with
  | [] => pure t
  | _ => none

/-! ## Strings -/

theorem hex4_small : ∀ n < 32, hex4 '0' '0' (hexDigit (n / 16)) (hexDigit (n % 16)) = some n := by
  decide

/-- What follows the escape of a character is read after it. -/
theorem string_escape (c : Char) (fuel : Nat) (cs : List Char) :
    string (fuel + 1) (escape c ++ cs) = (do
      let (s, rest) ← string fuel cs
      pure (c :: s, rest)) := by
  unfold escape
  by_cases hquote : c = '"'
  · subst hquote
    rfl
  rw [if_neg hquote]
  by_cases hslash : c = '\\'
  · subst hslash
    rfl
  rw [if_neg hslash]
  by_cases hn : c = '\n'
  · subst hn
    rfl
  rw [if_neg hn]
  by_cases hr : c = '\r'
  · subst hr
    rfl
  rw [if_neg hr]
  by_cases ht : c = '\t'
  · subst ht
    rfl
  rw [if_neg ht]
  by_cases hb : c = '\x08'
  · subst hb
    rfl
  rw [if_neg hb]
  by_cases hf : c = '\x0c'
  · subst hf
    rfl
  rw [if_neg hf]
  by_cases hcontrol : c.toNat < 32
  · rw [if_pos hcontrol]
    have hescape : unicodeEscape
        ('0' :: '0' :: hexDigit (c.toNat / 16) :: hexDigit (c.toNat % 16) :: cs) = some (c, cs) := by
      simp only [unicodeEscape, hex4_small c.toNat hcontrol, Option.bind_eq_bind,
        Option.bind_some]
      rw [if_pos (Or.inl (by omega)), Char.ofNat_toNat]
      rfl
    show (do
      let (c, cs) ← unicodeEscape
        ('0' :: '0' :: hexDigit (c.toNat / 16) :: hexDigit (c.toNat % 16) :: cs)
      let (s, cs) ← string fuel cs
      pure (c :: s, cs)) = _
    rw [hescape]
    rfl
  · rw [if_neg hcontrol]
    show (if c = '"' then some ([], cs) else if c = '\\' then _ else _) = _
    rw [if_neg hquote, if_neg hslash, if_neg hcontrol]
    rfl

/-- A string literal is read, whatever follows it. -/
theorem string_quote : ∀ (s : List Char) (fuel : Nat) (rest : List Char), s.length < fuel →
    string fuel (s.flatMap escape ++ '"' :: rest) = some (s, rest)
  | [], fuel + 1, rest, _ => rfl
  | c :: s, fuel + 1, rest, h => by
    have hrest := string_quote s fuel rest (by simpa using h)
    rw [List.flatMap_cons, List.append_assoc, string_escape, hrest]
    rfl

theorem quote_append (s rest : List Char) :
    quote s ++ rest = '"' :: (s.flatMap escape ++ '"' :: rest) := by
  unfold quote
  rw [List.cons_append, List.cons_append, List.append_assoc]
  rfl

theorem length_escape (c : Char) : 1 ≤ (escape c).length := by
  unfold escape
  split_ifs <;> simp

theorem length_quote (s : List Char) : s.length + 2 ≤ (quote s).length := by
  have hescaped : ∀ s : List Char, s.length ≤ (s.flatMap escape).length := by
    intro s
    induction s with
    | nil => exact Nat.le_refl 0
    | cons c s ih =>
      have hc := length_escape c
      rw [List.flatMap_cons, List.length_append, List.length_cons]
      omega
  have hs := hescaped s
  unfold quote
  rw [List.cons_append, List.length_cons, List.length_append, List.length_singleton]
  omega

/-! ## Numbers -/

/-- The text does not go on with a number. -/
def Stops (cs : List Char) : Prop :=
  ∀ c ∈ cs.head?, c.isDigit = false ∧ c ≠ '.' ∧ c ≠ 'e' ∧ c ≠ 'E'

theorem Stops.goesOn {cs : List Char} (h : Stops cs) : goesOn cs = false := by
  cases cs with
  | nil => rfl
  | cons c cs =>
    obtain ⟨_, hdot, he, hE⟩ := h c rfl
    unfold JsonText.goesOn
    split
    · next heq => exact absurd (List.cons.inj heq).1 hdot
    · next heq => exact absurd (List.cons.inj heq).1 he
    · next heq => exact absurd (List.cons.inj heq).1 hE
    · rfl

theorem takeWhile_digits {ds rest : List Char} (hds : ∀ c ∈ ds, c.isDigit = true)
    (h : Stops rest) : (ds ++ rest).takeWhile Char.isDigit = ds ∧
      (ds ++ rest).dropWhile Char.isDigit = rest := by
  have hrest : rest.takeWhile Char.isDigit = [] ∧ rest.dropWhile Char.isDigit = rest := by
    cases rest with
    | nil => exact ⟨rfl, rfl⟩
    | cons c rest =>
      have hc := (h c rfl).1
      refine ⟨List.takeWhile_cons_of_neg ?_, List.dropWhile_cons_of_neg ?_⟩
      · rw [hc]
        exact Bool.false_ne_true
      · rw [hc]
        exact Bool.false_ne_true
  constructor
  · rw [List.takeWhile_append_of_pos hds, hrest.1, List.append_nil]
  · rw [List.dropWhile_append_of_pos hds, hrest.2]

/-- The numeral of a number above 0 starts with another digit than 0. -/
theorem toDigits_head {n : Nat} (hn : 0 < n) :
    ∃ d ds, Nat.toDigits 10 n = d :: ds ∧ d ≠ '0' := by
  induction n using Nat.strong_induction_on with
  | _ n ih =>
    by_cases hlt : n < 10
    · refine ⟨n.digitChar, [], Nat.toDigits_of_lt_base hlt, ?_⟩
      interval_cases n <;> decide
    · obtain ⟨d, ds, hdigits, hd⟩ := ih (n / 10) (by omega) (by omega)
      refine ⟨d, ds ++ Nat.toDigits 10 (n % 10), ?_, hd⟩
      rw [Nat.toDigits_of_base_le (by omega) (by omega), hdigits,
        Nat.toDigits_of_lt_base (by omega)]
      rfl

/-- A numeral is read, if the text does not go on with a number. -/
theorem natural_toDigits (n : Nat) {rest : List Char} (h : Stops rest) :
    natural (Nat.toDigits 10 n ++ rest) = some (n, rest) := by
  by_cases hn : n = 0
  · subst hn
    show (if goesOn rest then none else some (0, rest)) = _
    rw [h.goesOn]
    rfl
  · obtain ⟨d, ds, hdigits, hd⟩ := toDigits_head (Nat.pos_of_ne_zero hn)
    have hall : ∀ c ∈ d :: ds, c.isDigit = true := by
      rw [← hdigits]
      exact fun c hc => Nat.isDigit_of_mem_toDigits (by omega) (by omega) hc
    obtain ⟨htake, hdrop⟩ := takeWhile_digits
      (fun c hc => hall c (List.mem_cons_of_mem _ hc)) h
    have hvalue : Nat.ofDigitChars 10 (d :: ds) 0 = n := by
      rw [← hdigits]
      exact Nat.ofDigitChars_ten_toDigits
    rw [hdigits]
    show (if d = '0' then _ else if d.isDigit then
      if goesOn ((ds ++ rest).dropWhile Char.isDigit) then none
      else some (Nat.ofDigitChars 10 (d :: (ds ++ rest).takeWhile Char.isDigit) 0,
        (ds ++ rest).dropWhile Char.isDigit)
      else none) = _
    rw [if_neg hd, if_pos (hall d List.mem_cons_self), htake, hdrop, h.goesOn, hvalue]
    rfl

/-! ## Values -/

mutual

/-- The keys are different at every level. -/
def Proper : Tree → Prop
  | .arr items => ProperItems items
  | .obj fields => (fields.map (·.1)).Nodup ∧ ProperFields fields
  | _ => True

def ProperItems : List Tree → Prop
  | [] => True
  | item :: items => Proper item ∧ ProperItems items

def ProperFields : List (List Char × Tree) → Prop
  | [] => True
  | (_, value) :: fields => Proper value ∧ ProperFields fields

end

/-- What a value can start with. -/
def Starts (c : Char) : Prop := isSpace c = false ∧ c ≠ ']' ∧ c ≠ '}'

instance : DecidablePred Starts := fun c =>
  inferInstanceAs (Decidable (isSpace c = false ∧ c ≠ ']' ∧ c ≠ '}'))

theorem starts_digit {c : Char} (h : c.isDigit = true) : Starts c := by
  refine ⟨?_, ?_, ?_⟩
  · cases hspace : isSpace c with
    | false => rfl
    | true =>
      simp only [isSpace, Bool.or_eq_true, decide_eq_true_eq] at hspace
      rcases hspace with ((rfl | rfl) | rfl) | rfl <;> cases h
  · rintro rfl
    cases h
  · rintro rfl
    cases h

theorem toDigits_cons (n : Nat) :
    ∃ d ds, Nat.toDigits 10 n = d :: ds ∧ d.isDigit = true := by
  by_cases hn : n = 0
  · subst hn
    exact ⟨'0', [], rfl, rfl⟩
  · obtain ⟨d, ds, hdigits, _⟩ := toDigits_head (Nat.pos_of_ne_zero hn)
    refine ⟨d, ds, hdigits, Nat.isDigit_of_mem_toDigits (b := 10) (n := n) (by omega) (by omega) ?_⟩
    rw [hdigits]
    exact List.mem_cons_self

theorem dump_head (t : Tree) : ∃ c cs, dump t = c :: cs ∧ Starts c := by
  cases t with
  | null => exact ⟨_, _, rfl, by decide⟩
  | bool b => cases b <;> exact ⟨_, _, rfl, by decide⟩
  | int n =>
    cases n with
    | ofNat n =>
      obtain ⟨d, ds, hdigits, hd⟩ := toDigits_cons n
      exact ⟨d, ds, hdigits, starts_digit hd⟩
    | negSucc n => exact ⟨_, _, rfl, by decide⟩
  | str s => exact ⟨_, _, rfl, by decide⟩
  | arr items => cases items <;> exact ⟨_, _, rfl, by decide⟩
  | obj fields =>
    rcases fields with _ | ⟨⟨key, value⟩, fields⟩
    · exact ⟨_, _, rfl, by decide⟩
    · exact ⟨_, _, rfl, by decide⟩

theorem skip_cons {c : Char} (h : isSpace c = false) (cs : List Char) :
    skip (c :: cs) = c :: cs := by
  refine List.dropWhile_cons_of_neg ?_
  rw [h]
  exact Bool.false_ne_true

theorem skip_dump (t : Tree) (rest : List Char) : skip (dump t ++ rest) = dump t ++ rest := by
  obtain ⟨c, cs, hdump, hc⟩ := dump_head t
  rw [hdump]
  exact skip_cons hc.1 _

theorem stops_cons {c : Char} (cs : List Char)
    (h : c.isDigit = false ∧ c ≠ '.' ∧ c ≠ 'e' ∧ c ≠ 'E') : Stops (c :: cs) := by
  intro d hd
  obtain rfl : c = d := Option.some.inj hd
  exact h

theorem stops_nil : Stops [] := by
  intro c hc
  cases hc

theorem value_numeral (n : Int) (fuel : Nat) {rest : List Char} (h : Stops rest) :
    value (fuel + 1) (numeral n ++ rest) = some (.int n, rest) := by
  cases n with
  | negSucc n =>
    show (do
      let (n, cs) ← natural (Nat.toDigits 10 (n + 1) ++ rest)
      pure (Tree.int (-n), cs)) = _
    rw [natural_toDigits (n + 1) h]
    rfl
  | ofNat n =>
    obtain ⟨d, ds, hdigits, hd⟩ := toDigits_cons n
    have hother : ∀ c : Char, c.isDigit = false → d ≠ c := by
      rintro c hc rfl
      rw [hc] at hd
      cases hd
    have hread := natural_toDigits n h
    rw [hdigits] at hread
    rw [numeral_ofNat, hdigits]
    show (if d = '"' then _ else if d = '[' then _ else if d = '\x7b' then _
      else if d = 'n' then _ else if d = 't' then _ else if d = 'f' then _
      else if d = '-' then _ else do
        let (n, cs) ← natural (d :: ds ++ rest)
        pure (Tree.int n, cs)) = _
    rw [if_neg (hother _ rfl), if_neg (hother _ rfl), if_neg (hother _ rfl),
      if_neg (hother _ rfl), if_neg (hother _ rfl), if_neg (hother _ rfl),
      if_neg (hother _ rfl), hread]
    rfl

theorem value_quote (s : List Char) (fuel : Nat) (rest : List Char) (h : s.length < fuel) :
    value (fuel + 1) (quote s ++ rest) = some (.str s, rest) := by
  have hread := string_quote s fuel rest h
  rw [quote_append]
  show (do
    let (s, cs) ← string fuel (s.flatMap escape ++ '"' :: rest)
    pure (Tree.str s, cs)) = _
  rw [hread]
  rfl

/-- An array that is not empty is read from its first item on. -/
theorem value_array {c : Char} (h : Starts c) (fuel : Nat) (cs : List Char) :
    value (fuel + 1) ('[' :: c :: cs) = items fuel [] (c :: cs) := by
  show (match skip (c :: cs) with
    | ']' :: cs => some (Tree.arr [], cs)
    | cs => items fuel [] cs) = _
  rw [skip_cons h.1]
  split
  · next heq => exact absurd (List.cons.inj heq).1 h.2.1
  · rfl

/-- A field that is read is put behind those before it, its key being new. -/
theorem setField_new {fields : List (List Char × Tree)} {key : List Char} (value : Tree)
    (h : key ∉ fields.map (·.1)) : setField fields key value = fields ++ [(key, value)] :=
  if_neg h

theorem items_close {item : Tree} {fuel : Nat} {cs rest : List Char} (before : List Tree)
    (h : value fuel cs = some (item, ']' :: rest)) :
    items (fuel + 1) before cs = some (.arr (before ++ [item]), rest) := by
  rw [items, h]
  rfl

theorem items_comma {item : Tree} {fuel : Nat} {cs rest : List Char} (before : List Tree)
    (h : value fuel cs = some (item, ',' :: rest)) :
    items (fuel + 1) before cs = items fuel (before ++ [item]) (skip rest) := by
  rw [items, h]
  rfl

theorem fields_close {key : List Char} {field : Tree} {fuel : Nat} {cs rest : List Char}
    (before : List (List Char × Tree)) (hkey : key.length < fuel)
    (h : value fuel (skip cs) = some (field, '\x7d' :: rest)) :
    fields (fuel + 1) before (quote key ++ ':' :: cs) =
      some (.obj (setField before key field), rest) := by
  rw [quote_append, fields, string_quote key fuel _ hkey]
  show (do
    let (field, cs) ← value fuel (skip cs)
    match skip cs with
    | '\x7d' :: cs => pure (Tree.obj (setField before key field), cs)
    | ',' :: cs => fields fuel (setField before key field) (skip cs)
    | _ => none) = _
  rw [h]
  rfl

theorem fields_comma {key : List Char} {field : Tree} {fuel : Nat} {cs rest : List Char}
    (before : List (List Char × Tree)) (hkey : key.length < fuel)
    (h : value fuel (skip cs) = some (field, ',' :: rest)) :
    fields (fuel + 1) before (quote key ++ ':' :: cs) =
      fields fuel (setField before key field) (skip rest) := by
  rw [quote_append, fields, string_quote key fuel _ hkey]
  show (do
    let (field, cs) ← value fuel (skip cs)
    match skip cs with
    | '\x7d' :: cs => pure (Tree.obj (setField before key field), cs)
    | ',' :: cs => fields fuel (setField before key field) (skip cs)
    | _ => none) = _
  rw [h]
  rfl

theorem dump_arr (item : Tree) (more : List Tree) (rest : List Char) :
    dump (.arr (item :: more)) ++ rest = '[' :: (dump item ++ dumpItems more ++ ']' :: rest) := by
  rw [dump]
  simp only [List.cons_append, List.append_assoc, List.nil_append]

theorem dump_obj (key : List Char) (field : Tree) (more : List (List Char × Tree))
    (rest : List Char) : dump (.obj ((key, field) :: more)) ++ rest =
      '\x7b' :: (quote key ++ ':' :: (dump field ++ dumpFields more ++ '\x7d' :: rest)) := by
  rw [dump]
  simp only [List.cons_append, List.append_assoc, List.nil_append]

theorem dump_arr_length (item : Tree) (more : List Tree) :
    (dump (.arr (item :: more))).length = (dump item).length + (dumpItems more).length + 2 := by
  have h := congrArg List.length (dump_arr item more [])
  simp only [List.append_nil, List.length_cons, List.length_append, List.length_nil] at h
  omega

theorem dump_obj_length (key : List Char) (field : Tree) (more : List (List Char × Tree)) :
    (dump (.obj ((key, field) :: more))).length =
      (quote key).length + (dump field).length + (dumpFields more).length + 3 := by
  have h := congrArg List.length (dump_obj key field more [])
  simp only [List.append_nil, List.length_cons, List.length_append, List.length_nil] at h
  omega

mutual

/-- A value is read back, if what follows it does not go on with a number. -/
theorem value_dump : ∀ (t : Tree) (fuel : Nat) (rest : List Char), Proper t → Stops rest →
    (dump t).length < fuel → value fuel (dump t ++ rest) = some (t, rest)
  | .null, fuel + 1, rest, _, _, _ => by
    show expect ['u', 'l', 'l'] .null ('u' :: 'l' :: 'l' :: rest) = _
    exact if_pos ⟨rest, rfl⟩
  | .bool true, fuel + 1, rest, _, _, _ => by
    show expect ['r', 'u', 'e'] (.bool true) ('r' :: 'u' :: 'e' :: rest) = _
    exact if_pos ⟨rest, rfl⟩
  | .bool false, fuel + 1, rest, _, _, _ => by
    show expect ['a', 'l', 's', 'e'] (.bool false) ('a' :: 'l' :: 's' :: 'e' :: rest) = _
    exact if_pos ⟨rest, rfl⟩
  | .int n, fuel + 1, rest, _, hrest, _ => value_numeral n fuel hrest
  | .str s, fuel + 1, rest, _, _, hfuel => by
    have hlength := length_quote s
    change (quote s).length < fuel + 1 at hfuel
    exact value_quote s fuel rest (by omega)
  | .arr [], fuel + 1, rest, _, _, _ => rfl
  | .arr (item :: more), fuel + 1, rest, hproper, _, hfuel => by
    rw [dump_arr_length] at hfuel
    have hread := items_dump item more [] fuel rest hproper.1 hproper.2 (by omega)
    obtain ⟨c, cs, hdump, hc⟩ := dump_head item
    rw [dump_arr, ← List.nil_append (item :: more), ← hread, hdump]
    exact value_array hc fuel _
  | .obj [], fuel + 1, rest, _, _, _ => rfl
  | .obj ((key, field) :: more), fuel + 1, rest, hproper, _, hfuel => by
    rw [dump_obj_length] at hfuel
    have hread := fields_dump key field more [] fuel rest hproper.2.1 hproper.2.2 hproper.1
      (by omega)
    rw [dump_obj, ← List.nil_append ((key, field) :: more), ← hread]
    rfl

/-- The items of an array are read up to the bracket. -/
theorem items_dump : ∀ (item : Tree) (more before : List Tree) (fuel : Nat) (rest : List Char),
    Proper item → ProperItems more → (dump item).length + (dumpItems more).length + 1 < fuel →
    items fuel before (dump item ++ dumpItems more ++ ']' :: rest) =
      some (.arr (before ++ item :: more), rest)
  | item, [], before, fuel + 1, rest, hitem, _, hfuel => by
    have hread := value_dump item fuel (']' :: rest) hitem (stops_cons _ (by decide)) (by omega)
    rw [dumpItems, List.append_nil]
    exact items_close before hread
  | item, next :: more, before, fuel + 1, rest, hitem, hmore, hfuel => by
    have htext : dump item ++ dumpItems (next :: more) ++ ']' :: rest =
        dump item ++ ',' :: (dump next ++ dumpItems more ++ ']' :: rest) := by
      rw [dumpItems]
      simp only [List.cons_append, List.append_assoc]
    have hlength : (dumpItems (next :: more)).length =
        (dump next).length + (dumpItems more).length + 1 := by
      rw [dumpItems, List.cons_append, List.length_cons, List.length_append]
    have hread := value_dump item fuel
      (',' :: (dump next ++ dumpItems more ++ ']' :: rest)) hitem (stops_cons _ (by decide))
      (by omega)
    have hrest := items_dump next more (before ++ [item]) fuel rest hmore.1 hmore.2 (by omega)
    rw [htext, items_comma before hread, List.append_assoc (dump next), skip_dump,
      ← List.append_assoc (dump next), hrest, List.append_assoc before]
    rfl

/-- The fields of an object are read up to the brace, their keys being new. -/
theorem fields_dump : ∀ (key : List Char) (field : Tree) (more before : List (List Char × Tree))
    (fuel : Nat) (rest : List Char), Proper field → ProperFields more →
    (before.map (·.1) ++ key :: more.map (·.1)).Nodup →
    (quote key).length + (dump field).length + (dumpFields more).length + 2 < fuel →
    fields fuel before
        (quote key ++ ':' :: (dump field ++ dumpFields more ++ '\x7d' :: rest)) =
      some (.obj (before ++ (key, field) :: more), rest)
  | key, field, [], before, fuel + 1, rest, hfield, _, hkeys, hfuel => by
    have hquote := length_quote key
    have hread := value_dump field fuel ('\x7d' :: rest) hfield (stops_cons _ (by decide))
      (by omega)
    rw [← skip_dump] at hread
    have hnew : key ∉ before.map (·.1) := by
      intro hmem
      exact (List.nodup_append.1 hkeys).2.2 key hmem key List.mem_cons_self rfl
    rw [dumpFields, List.append_nil, fields_close before (by omega) hread, setField_new field hnew]
  | key, field, (key', field') :: more, before, fuel + 1, rest, hfield, hmore, hkeys, hfuel => by
    have hquote := length_quote key
    have htext : dump field ++ dumpFields ((key', field') :: more) ++ '\x7d' :: rest =
        dump field ++ ',' ::
          (quote key' ++ ':' :: (dump field' ++ dumpFields more ++ '\x7d' :: rest)) := by
      rw [dumpFields]
      simp only [List.cons_append, List.append_assoc]
    have hlength : (dumpFields ((key', field') :: more)).length =
        (quote key').length + (dump field').length + (dumpFields more).length + 2 := by
      rw [dumpFields]
      simp only [List.cons_append, List.length_cons, List.length_append]
      omega
    have hread := value_dump field fuel
      (',' :: (quote key' ++ ':' :: (dump field' ++ dumpFields more ++ '\x7d' :: rest))) hfield
      (stops_cons _ (by decide)) (by omega)
    rw [← skip_dump] at hread
    have hnew : key ∉ before.map (·.1) := by
      intro hmem
      exact (List.nodup_append.1 hkeys).2.2 key hmem key List.mem_cons_self rfl
    have hrest := fields_dump key' field' more (before ++ [(key, field)]) fuel rest hmore.1
      hmore.2 (by rw [List.map_append, List.append_assoc]; exact hkeys) (by omega)
    have hskip : skip (quote key' ++ ':' :: (dump field' ++ dumpFields more ++ '\x7d' :: rest)) =
        quote key' ++ ':' :: (dump field' ++ dumpFields more ++ '\x7d' :: rest) := by
      rw [quote_append]
      exact skip_cons rfl _
    rw [htext, fields_comma before (by omega) hread, hskip, setField_new field hnew, hrest,
      List.append_assoc]
    rfl

end

/-! ## Texts -/

/-- A text that was written is read. -/
theorem loads_dump {t : Tree} (h : Proper t) : loads (dump t) = some t := by
  have hread := value_dump t ((dump t).length + 1) [] h stops_nil (by omega)
  have hskip := skip_dump t []
  rw [List.append_nil] at hread hskip
  unfold loads
  rw [hskip, hread]
  rfl

/-- Different values have different texts. -/
theorem dump_injective {t u : Tree} (ht : Proper t) (hu : Proper u) (h : dump t = dump u) :
    t = u := by
  have hread := loads_dump ht
  rw [h, loads_dump hu] at hread
  exact (Option.some.inj hread).symm

/-! ## Fields in order -/

/-- The order of the fields in a text. -/
def FieldLe (f g : List Char × Tree) : Prop := List.le f.1 g.1

instance : DecidableRel FieldLe := fun f g => List.decidableLE f.1 g.1

mutual

/-- The fields are put in the order of their keys, at every level. -/
def sorted : Tree → Tree
  | .arr items => .arr (sortedItems items)
  | .obj fields => .obj ((sortedFields fields).insertionSort FieldLe)
  | .null => .null
  | .bool b => .bool b
  | .int n => .int n
  | .str s => .str s

def sortedItems : List Tree → List Tree
  | [] => []
  | item :: items => sorted item :: sortedItems items

def sortedFields : List (List Char × Tree) → List (List Char × Tree)
  | [] => []
  | (key, value) :: fields => (key, sorted value) :: sortedFields fields

end

/-- The text that does not depend on the order of the fields. -/
def canonical (t : Tree) : List Char := dump (sorted t)

/-- The value of a field. -/
def field? : List (List Char × Tree) → List Char → Option Tree
  | [], _ => none
  | (key', value) :: fields, key => if key' = key then some value else field? fields key

instance : Std.Total FieldLe where
  total f g := List.le_total f.1 g.1

instance : IsTrans (List Char × Tree) FieldLe where
  trans _ _ _ hfg hgk := List.le_trans (α := Char) hfg hgk

theorem sortedFields_keys : ∀ fields : List (List Char × Tree),
    (sortedFields fields).map (·.1) = fields.map (·.1)
  | [] => rfl
  | (key, _) :: fields => congrArg (key :: ·) (sortedFields_keys fields)

theorem sortedFields_perm {fields fields' : List (List Char × Tree)} (h : fields.Perm fields') :
    (sortedFields fields).Perm (sortedFields fields') := by
  induction h with
  | nil => exact .nil
  | cons f _ ih => exact .cons _ ih
  | swap f g fields => exact .swap _ _ _
  | trans _ _ ih ih' => exact ih.trans ih'

theorem properFields_iff : ∀ fields : List (List Char × Tree),
    ProperFields fields ↔ ∀ f ∈ fields, Proper f.2
  | [] => ⟨fun _ _ hf => absurd hf List.not_mem_nil, fun _ => trivial⟩
  | (key, value) :: fields => by
    rw [ProperFields, properFields_iff fields, List.forall_mem_cons]

mutual

theorem Proper.sorted : ∀ {t : Tree}, Proper t → Proper (sorted t)
  | .null, _ => trivial
  | .bool _, _ => trivial
  | .int _, _ => trivial
  | .str _, _ => trivial
  | .arr _, h => ProperItems.sorted h
  | .obj fields, h => by
    have hperm := List.perm_insertionSort FieldLe (sortedFields fields)
    refine ⟨?_, ?_⟩
    · rw [(hperm.map _).nodup_iff, sortedFields_keys]
      exact h.1
    · rw [properFields_iff]
      intro f hf
      exact (properFields_iff _).1 (ProperFields.sorted h.2) f (hperm.mem_iff.1 hf)

theorem ProperItems.sorted : ∀ {items : List Tree}, ProperItems items →
    ProperItems (sortedItems items)
  | [], _ => trivial
  | _ :: _, h => ⟨Proper.sorted h.1, ProperItems.sorted h.2⟩

theorem ProperFields.sorted : ∀ {fields : List (List Char × Tree)}, ProperFields fields →
    ProperFields (sortedFields fields)
  | [], _ => trivial
  | (_, _) :: _, h => ⟨Proper.sorted h.1, ProperFields.sorted h.2⟩

end

theorem field?_eq_some_iff : ∀ {fields : List (List Char × Tree)},
    (fields.map (·.1)).Nodup → ∀ (key : List Char) (value : Tree),
      (field? fields key = some value ↔ (key, value) ∈ fields)
  | [], _, _, _ => ⟨fun h => (by cases h), fun h => (by cases h)⟩
  | (key', value') :: fields, h, key, value => by
    obtain ⟨hnew, hrest⟩ := List.nodup_cons.1 h
    have ih := field?_eq_some_iff hrest key value
    rw [field?, List.mem_cons, Prod.mk.injEq]
    by_cases hkey : key' = key
    · subst hkey
      rw [if_pos rfl]
      constructor
      · intro hvalue
        exact Or.inl ⟨rfl, (Option.some.inj hvalue).symm⟩
      · rintro (⟨_, rfl⟩ | hmem)
        · rfl
        · exact absurd (List.mem_map_of_mem (f := (·.1)) hmem) hnew
    · rw [if_neg hkey, ih]
      constructor
      · exact Or.inr
      · rintro (⟨rfl, _⟩ | hmem)
        · exact absurd rfl hkey
        · exact hmem

theorem field?_perm {fields fields' : List (List Char × Tree)} (h : (fields.map (·.1)).Nodup)
    (hperm : fields.Perm fields') (key : List Char) : field? fields' key = field? fields key := by
  have h' : (fields'.map (·.1)).Nodup := (hperm.map _).nodup_iff.1 h
  apply Option.ext
  intro value
  rw [field?_eq_some_iff h', field?_eq_some_iff h, hperm.mem_iff]

theorem field?_sortedFields : ∀ (fields : List (List Char × Tree)) (key : List Char),
    field? (sortedFields fields) key = (field? fields key).map sorted
  | [], _ => rfl
  | (key', value) :: fields, key => by
    rw [sortedFields, field?, field?, field?_sortedFields fields key]
    by_cases hkey : key' = key
    · rw [if_pos hkey, if_pos hkey]
      rfl
    · rw [if_neg hkey, if_neg hkey]

/-- A field has its value at any place. -/
theorem field?_sorted {fields : List (List Char × Tree)} (h : (fields.map (·.1)).Nodup)
    (key : List Char) : field? ((sortedFields fields).insertionSort FieldLe) key =
      (field? fields key).map sorted := by
  rw [← field?_sortedFields]
  refine field?_perm ?_ (List.perm_insertionSort _ _).symm key
  rw [sortedFields_keys]
  exact h

/-- The text is the same for the same fields in another order. -/
theorem canonical_perm {fields fields' : List (List Char × Tree)}
    (h : (fields.map (·.1)).Nodup) (hperm : fields.Perm fields') :
    canonical (.obj fields) = canonical (.obj fields') := by
  have hsorted : (sortedFields fields).insertionSort FieldLe =
      (sortedFields fields').insertionSort FieldLe := by
    refine List.Perm.eq_of_pairwise ?_ (List.pairwise_insertionSort _ _)
      (List.pairwise_insertionSort _ _) ?_
    · intro f g hf hg hfg hgf
      have hkey : f.1 = g.1 := List.le_antisymm hfg hgf
      have hg' : g ∈ sortedFields fields :=
        (sortedFields_perm hperm).mem_iff.2 ((List.mem_insertionSort _).1 hg)
      refine List.inj_on_of_nodup_map ?_ ((List.mem_insertionSort _).1 hf) hg' hkey
      rw [sortedFields_keys]
      exact h
    · exact (List.perm_insertionSort _ _).trans
        ((sortedFields_perm hperm).trans (List.perm_insertionSort _ _).symm)
  unfold canonical
  rw [sorted, sorted, hsorted]

/-- What a canonical text is read as. -/
theorem loads_canonical {t : Tree} (h : Proper t) : loads (canonical t) = some (sorted t) :=
  loads_dump h.sorted

/-- Canonical texts tell values apart up to the order of fields. -/
theorem canonical_eq_iff {t u : Tree} (ht : Proper t) (hu : Proper u) :
    canonical t = canonical u ↔ sorted t = sorted u :=
  ⟨dump_injective ht.sorted hu.sorted, congrArg dump⟩

end JsonText
