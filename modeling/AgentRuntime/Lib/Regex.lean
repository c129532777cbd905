import Mathlib.Data.List.Basic

/-!
# Regular expressions with lookarounds

The expressions of a backtracking matcher over characters of any type:
classes, greedy repetition of a class, choice with the left side first, and
assertions about the characters before and after a position.

`lengths` is the matcher: the lengths that match at a position, in the order
in which backtracking comes to them. `Matches` says what a match is, and
`mem_lengths` that the two agree, so that proofs work with the matched text
and its neighbours. `divide` walks through a text as a substitution does:
the first match at a position is cut out whole, and a character at which
none begins is kept. `divide_divided` says what the pieces are; in
particular no match begins at a character that was kept
(`Divided.not_matches`).

An assertion looks at the neighbours of a match; where an expression has
none, the same text matches between any neighbours (`Matches.congr`).
-/

namespace Regex

variable {σ : Type}

inductive Re (σ : Type)
  /-- A character of the class. -/
  | one (p : σ → Bool)
  /-- As many characters of the class as there are, or fewer. -/
  | many (p : σ → Bool)
  | seq (a b : Re σ)
  | alt (a b : Re σ)
  | skip
  /-- `(?<!p)`. -/
  | notAfter (p : σ → Bool)
  /-- `(?!p)`. -/
  | notBefore (p : σ → Bool)
  /-- `\b`, for the word characters `w`. -/
  | boundary (w : σ → Bool)

namespace Re

/-- A text of its own. -/
def literal [DecidableEq σ] : List σ → Re σ
  | [] => skip
  | c :: text => seq (one fun d => decide (d = c)) (literal text)

/-- `p{n}`. -/
def times (p : σ → Bool) : Nat → Re σ
  | 0 => skip
  | n + 1 => seq (one p) (times p n)

/-- `p{n,}`. -/
def atLeast (p : σ → Bool) (n : Nat) : Re σ := seq (times p n) (many p)

/-- `p{0,n}`. -/
def upTo (p : σ → Bool) : Nat → Re σ
  | 0 => skip
  | n + 1 => alt (seq (one p) (upTo p n)) skip

/-- `a?`. -/
def opt (a : Re σ) : Re σ := alt a skip

/-- The first of several that matches. -/
def choice : Re σ → List (Re σ) → Re σ
  | a, [] => a
  | a, b :: more => alt a (choice b more)

end Re

/-! ## The matcher -/

/-- The character before a position, after `s` has been read. -/
def lastOf (prev : Option σ) (s : List σ) : Option σ := s.getLast?.or prev

/-- The lengths that match in front of `s`, the preferred one first. -/
def lengths : Re σ → (prev : Option σ) → List σ → List Nat
  | .one p, _, s =>
    match s with
    | [] => []
    | c :: _ => if p c then [1] else []
  | .many p, _, s => (List.range ((s.takeWhile p).length + 1)).reverse
  | .seq a b, prev, s =>
    (lengths a prev s).flatMap fun n =>
      (lengths b (lastOf prev (s.take n)) (s.drop n)).map (n + ·)
  | .alt a b, prev, s => lengths a prev s ++ lengths b prev s
  | .skip, _, _ => [0]
  | .notAfter p, prev, _ => if prev.any p then [] else [0]
  | .notBefore p, _, s => if s.head?.any p then [] else [0]
  | .boundary w, prev, s => if prev.any w = s.head?.any w then [] else [0]

/-- The match at a position; one without characters does not count. -/
def first? (re : Re σ) (prev : Option σ) (s : List σ) : Option Nat :=
  (lengths re prev s).find? (0 < ·)

/-- `re.search`, as a question: whether there is a match in `s`. -/
def search (re : Re σ) (prev : Option σ) : List σ → Bool
  | [] => !(lengths re prev []).isEmpty
  | c :: s => !(lengths re prev (c :: s)).isEmpty || search re (some c) s

/-- A part of a text. -/
inductive Piece (σ : Type)
  | kept (c : σ)
  | hit (text : List σ)

/-- The text of the pieces. -/
def Piece.source : Piece σ → List σ
  | kept c => [c]
  | hit text => text

/-- What a substitution makes of a piece. -/
def Piece.render (replacement : List σ) : Piece σ → List σ
  | kept c => [c]
  | hit _ => replacement

/-- The division of a text into matches and the characters between them;
`skip` characters still belong to the last match. -/
def divide (re : Re σ) : (prev : Option σ) → (skip : Nat) → List σ → List (Piece σ)
  | _, _, [] => []
  | _, skip + 1, c :: s => divide re (some c) skip s
  | prev, 0, c :: s =>
    match first? re prev (c :: s) with
    | some (n + 1) => .hit ((c :: s).take (n + 1)) :: divide re (some c) n s
    | _ => .kept c :: divide re (some c) 0 s

/-- `re.sub`. -/
def sub (re : Re σ) (replacement s : List σ) : List σ :=
  (divide re none 0 s).flatMap (Piece.render replacement)

/-! ## What a match is -/

/-- `u` matches, after `prev` and in front of `rest`. -/
def Matches : Re σ → (prev : Option σ) → (u rest : List σ) → Prop
  | .one p, _, u, _ => ∃ c, u = [c] ∧ p c = true
  | .many p, _, u, _ => ∀ c ∈ u, p c = true
  | .seq a b, prev, u, rest => ∃ v w, u = v ++ w ∧ Matches a prev v (w ++ rest) ∧
      Matches b (lastOf prev v) w rest
  | .alt a b, prev, u, rest => Matches a prev u rest ∨ Matches b prev u rest
  | .skip, _, u, _ => u = []
  | .notAfter p, prev, u, _ => u = [] ∧ prev.any p = false
  | .notBefore p, _, u, rest => u = [] ∧ rest.head?.any p = false
  | .boundary w, prev, u, rest => u = [] ∧ prev.any w ≠ rest.head?.any w

theorem mem_lengths_many {p : σ → Bool} {s : List σ} {n : Nat} :
    n ≤ (s.takeWhile p).length ↔ n ≤ s.length ∧ ∀ c ∈ s.take n, p c = true := by
  induction s generalizing n with
  | nil => simp
  | cons c s ih =>
    cases n with
    | zero => simp
    | succ n =>
      rw [List.take_succ_cons, List.forall_mem_cons, List.length_cons]
      by_cases hp : p c = true
      · rw [List.takeWhile_cons_of_pos hp, List.length_cons, Nat.succ_le_succ_iff, ih,
          Nat.succ_le_succ_iff]
        exact and_congr_right fun _ => (and_iff_right hp).symm
      · rw [List.takeWhile_cons_of_neg hp]
        refine iff_of_false (by simp) fun h => hp h.2.1

theorem split_iff {s : List σ} {n : Nat} {P : List σ → List σ → Prop} :
    (n ≤ s.length ∧ P (s.take n) (s.drop n)) ↔
      ∃ u rest, s = u ++ rest ∧ u.length = n ∧ P u rest := by
  constructor
  · rintro ⟨hn, hP⟩
    exact ⟨s.take n, s.drop n, (List.take_append_drop n s).symm, List.length_take_of_le hn, hP⟩
  · rintro ⟨u, rest, rfl, rfl, hP⟩
    rw [List.take_left', List.drop_left']
    · refine ⟨?_, hP⟩
      rw [List.length_append]
      exact Nat.le_add_right _ _
    · rfl
    · rfl

/-- The matcher finds what matches. -/
theorem mem_lengths : ∀ {re : Re σ} {prev : Option σ} {s : List σ} {n : Nat},
    n ∈ lengths re prev s ↔ ∃ u rest, s = u ++ rest ∧ u.length = n ∧ Matches re prev u rest
  | .one p, prev, s, n => by
    unfold lengths Matches
    constructor
    · intro h
      cases s with
      | nil => cases h
      | cons c s =>
        dsimp only at h
        split at h
        next hp =>
          cases List.mem_singleton.mp h
          exact ⟨[c], s, rfl, rfl, c, rfl, hp⟩
        · cases h
    · rintro ⟨u, rest, rfl, rfl, c, rfl, hp⟩
      show 1 ∈ if p c then [1] else []
      rw [if_pos hp]
      exact List.mem_singleton_self 1
  | .many p, prev, s, n => by
    unfold lengths Matches
    rw [List.mem_reverse, List.mem_range, Nat.lt_succ_iff, mem_lengths_many]
    exact split_iff (P := fun u _ => ∀ c ∈ u, p c = true)
  | .seq a b, prev, s, n => by
    unfold lengths Matches
    rw [List.mem_flatMap]
    constructor
    · rintro ⟨i, hi, hn⟩
      obtain ⟨j, hj, rfl⟩ := List.mem_map.mp hn
      obtain ⟨v, tail, rfl, rfl, ha⟩ := mem_lengths.mp hi
      rw [List.take_left', List.drop_left'] at hj
      · obtain ⟨w, rest, rfl, rfl, hb⟩ := mem_lengths.mp hj
        exact ⟨v ++ w, rest, (List.append_assoc ..).symm, List.length_append, v, w, rfl, ha, hb⟩
      · rfl
      · rfl
    · rintro ⟨u, rest, rfl, rfl, v, w, rfl, ha, hb⟩
      refine ⟨v.length, mem_lengths.mpr ⟨v, w ++ rest, List.append_assoc .., rfl, ha⟩, ?_⟩
      rw [List.append_assoc, List.take_left', List.drop_left']
      · refine List.mem_map.mpr ⟨w.length, mem_lengths.mpr ⟨w, rest, rfl, rfl, hb⟩, ?_⟩
        exact List.length_append.symm
      · rfl
      · rfl
  | .alt a b, prev, s, n => by
    unfold lengths Matches
    rw [List.mem_append, mem_lengths, mem_lengths, ← exists_or]
    refine exists_congr fun u => ?_
    rw [← exists_or]
    refine exists_congr fun rest => ?_
    rw [← and_or_left, ← and_or_left]
  | .skip, prev, s, n => by
    unfold lengths Matches
    rw [List.mem_singleton]
    constructor
    · rintro rfl
      exact ⟨[], s, rfl, rfl, rfl⟩
    · rintro ⟨u, rest, -, rfl, rfl⟩
      rfl
  | .notAfter p, prev, s, n => by
    unfold lengths Matches
    split
    next h =>
      refine iff_of_false (fun h => by cases h) ?_
      rintro ⟨u, rest, -, -, -, hno⟩
      cases h.symm.trans hno
    next h =>
      rw [List.mem_singleton]
      constructor
      · rintro rfl
        exact ⟨[], s, rfl, rfl, rfl, Bool.eq_false_iff.mpr h⟩
      · rintro ⟨u, rest, -, rfl, rfl, -⟩
        rfl
  | .notBefore p, prev, s, n => by
    unfold lengths Matches
    split
    next h =>
      refine iff_of_false (fun h => by cases h) ?_
      rintro ⟨u, rest, rfl, -, rfl, hno⟩
      cases h.symm.trans hno
    next h =>
      rw [List.mem_singleton]
      constructor
      · rintro rfl
        exact ⟨[], s, rfl, rfl, rfl, Bool.eq_false_iff.mpr h⟩
      · rintro ⟨u, rest, -, rfl, rfl, -⟩
        rfl
  | .boundary w, prev, s, n => by
    unfold lengths Matches
    split
    next h =>
      refine iff_of_false (fun h => by cases h) ?_
      rintro ⟨u, rest, rfl, -, rfl, hno⟩
      exact hno h
    next h =>
      rw [List.mem_singleton]
      constructor
      · rintro rfl
        exact ⟨[], s, rfl, rfl, rfl, h⟩
      · rintro ⟨u, rest, -, rfl, rfl, -⟩
        rfl

/-! ## Where a match is -/

@[simp] theorem lastOf_nil (prev : Option σ) : lastOf prev [] = prev := rfl

theorem lastOf_concat (prev : Option σ) (u : List σ) (c : σ) :
    lastOf prev (u ++ [c]) = some c := by
  unfold lastOf
  rw [List.getLast?_concat]
  rfl

theorem lastOf_append (prev : Option σ) (u v : List σ) :
    lastOf prev (u ++ v) = lastOf (lastOf prev u) v := by
  unfold lastOf
  rw [List.getLast?_append, Option.or_assoc]

theorem lastOf_cons (prev : Option σ) (c : σ) (u : List σ) :
    lastOf prev (c :: u) = lastOf (some c) u :=
  lastOf_append prev [c] u

/-- A text matches somewhere in `s`. -/
def Occurs (re : Re σ) (prev : Option σ) (s : List σ) : Prop :=
  ∃ a u b, s = a ++ u ++ b ∧ Matches re (lastOf prev a) u b

theorem isEmpty_lengths {re : Re σ} {prev : Option σ} {s : List σ} :
    (!(lengths re prev s).isEmpty) = true ↔ ∃ u b, s = u ++ b ∧ Matches re prev u b := by
  rw [Bool.not_eq_true', List.isEmpty_eq_false_iff_exists_mem]
  constructor
  · rintro ⟨n, hn⟩
    obtain ⟨u, b, hs, -, h⟩ := mem_lengths.mp hn
    exact ⟨u, b, hs, h⟩
  · rintro ⟨u, b, hs, h⟩
    exact ⟨u.length, mem_lengths.mpr ⟨u, b, hs, rfl, h⟩⟩

theorem search_iff {re : Re σ} {prev : Option σ} {s : List σ} :
    search re prev s = true ↔ Occurs re prev s := by
  induction s generalizing prev with
  | nil =>
    unfold search Occurs
    rw [isEmpty_lengths]
    constructor
    · rintro ⟨u, b, hs, h⟩
      exact ⟨[], u, b, hs, h⟩
    · rintro ⟨a, u, b, hs, h⟩
      rw [List.append_assoc, eq_comm, List.append_eq_nil_iff] at hs
      obtain ⟨rfl, hub⟩ := hs
      exact ⟨u, b, hub.symm, h⟩
  | cons c s ih =>
    unfold search
    rw [Bool.or_eq_true, isEmpty_lengths, ih]
    constructor
    · rintro (⟨u, b, hs, h⟩ | ⟨a, u, b, rfl, h⟩)
      · exact ⟨[], u, b, hs, h⟩
      · exact ⟨c :: a, u, b, rfl, by rw [lastOf_cons]; exact h⟩
    · rintro ⟨a, u, b, hs, h⟩
      cases a with
      | nil => exact Or.inl ⟨u, b, hs, h⟩
      | cons d a =>
        cases hs
        exact Or.inr ⟨a, u, b, rfl, by rw [lastOf_cons] at h; exact h⟩

/-! ## The pieces of a text -/

/-- The text of several pieces. -/
def sourceOf (pieces : List (Piece σ)) : List σ := pieces.flatMap Piece.source

@[simp] theorem sourceOf_nil : sourceOf ([] : List (Piece σ)) = [] := rfl

@[simp] theorem sourceOf_cons (piece : Piece σ) (pieces : List (Piece σ)) :
    sourceOf (piece :: pieces) = piece.source ++ sourceOf pieces := rfl

@[simp] theorem sourceOf_append (xs ys : List (Piece σ)) :
    sourceOf (xs ++ ys) = sourceOf xs ++ sourceOf ys :=
  List.flatMap_append

/-- No text with characters matches in front of `s`. -/
def NoMatch (re : Re σ) (prev : Option σ) (s : List σ) : Prop :=
  ∀ u b, s = u ++ b → Matches re prev u b → u = []

/-- The pieces are matches and characters at which none begins. -/
def Divided (re : Re σ) : (prev : Option σ) → List (Piece σ) → Prop
  | _, [] => True
  | prev, .kept c :: pieces =>
    NoMatch re prev (c :: sourceOf pieces) ∧ Divided re (some c) pieces
  | prev, .hit text :: pieces =>
    text ≠ [] ∧ Matches re prev text (sourceOf pieces) ∧ Divided re (lastOf prev text) pieces

theorem first?_some {re : Re σ} {prev : Option σ} {s : List σ} {n : Nat}
    (h : first? re prev s = some n) :
    0 < n ∧ n ≤ s.length ∧ Matches re prev (s.take n) (s.drop n) := by
  have hpos := List.find?_some h
  obtain ⟨u, b, rfl, rfl, hm⟩ := mem_lengths.mp (List.mem_of_find?_eq_some h)
  refine ⟨by simpa using hpos, ?_, ?_⟩
  · rw [List.length_append]
    exact Nat.le_add_right _ _
  · rw [List.take_left, List.drop_left]
    exact hm

theorem noMatch_of_first? {re : Re σ} {prev : Option σ} {s : List σ}
    (h : first? re prev s = none) : NoMatch re prev s := by
  intro u b hs hm
  have hn := List.find?_eq_none.mp h u.length (mem_lengths.mpr ⟨u, b, hs, rfl, hm⟩)
  simpa using hn

/-- What a substitution walks over: the text, and all of it. -/
theorem divide_divided (re : Re σ) : ∀ (s : List σ) (prev : Option σ) (n : Nat),
    sourceOf (divide re prev n s) = s.drop n ∧
      Divided re (lastOf prev (s.take n)) (divide re prev n s)
  | [], prev, n => by
    unfold divide
    rw [List.drop_nil]
    exact ⟨rfl, trivial⟩
  | c :: s, prev, n + 1 => by
    obtain ⟨hsource, hdivided⟩ := divide_divided re s (some c) n
    unfold divide
    rw [List.drop_succ_cons, List.take_succ_cons, lastOf_cons]
    exact ⟨hsource, hdivided⟩
  | c :: s, prev, 0 => by
    unfold divide
    rw [List.drop_zero, List.take_zero, lastOf_nil]
    cases hfirst : first? re prev (c :: s) with
    | none =>
      obtain ⟨hsource, hdivided⟩ := divide_divided re s (some c) 0
      have hrest : sourceOf (divide re (some c) 0 s) = s := hsource
      refine ⟨congrArg (c :: ·) hrest, ?_, hdivided⟩
      rw [hrest]
      exact noMatch_of_first? hfirst
    | some n =>
      obtain ⟨hpos, -, hm⟩ := first?_some hfirst
      obtain ⟨n, rfl⟩ : ∃ k, n = k + 1 := ⟨n - 1, by omega⟩
      obtain ⟨hsource, hdivided⟩ := divide_divided re s (some c) n
      dsimp only
      rw [sourceOf_cons, hsource]
      refine ⟨List.take_append_drop (n + 1) (c :: s), ?_, ?_, ?_⟩
      · rw [List.take_succ_cons]
        exact List.cons_ne_nil _ _
      · rw [hsource]
        exact hm
      · rw [List.take_succ_cons, lastOf_cons]
        exact hdivided

theorem sourceOf_divide (re : Re σ) (prev : Option σ) (s : List σ) :
    sourceOf (divide re prev 0 s) = s :=
  (divide_divided re s prev 0).1

/-- Behind some of the pieces the rest is divided as well. -/
theorem Divided.append {re : Re σ} : ∀ {xs ys : List (Piece σ)} {prev : Option σ},
    Divided re prev (xs ++ ys) → Divided re (lastOf prev (sourceOf xs)) ys
  | [], _, _, h => h
  | .kept c :: xs, ys, prev, h => by
    rw [sourceOf_cons]
    show Divided re (lastOf prev ([c] ++ sourceOf xs)) ys
    rw [lastOf_append]
    exact h.2.append
  | .hit text :: xs, ys, prev, h => by
    rw [sourceOf_cons]
    show Divided re (lastOf prev (text ++ sourceOf xs)) ys
    rw [lastOf_append]
    exact h.2.2.append

/-- At a character that was kept no match begins. -/
theorem Divided.not_matches {re : Re σ} {xs ys : List (Piece σ)} {c : σ} {prev : Option σ}
    (h : Divided re prev (xs ++ .kept c :: ys)) {u b : List σ} (hs : c :: sourceOf ys = u ++ b)
    (hu : u ≠ []) : ¬ Matches re (lastOf prev (sourceOf xs)) u b :=
  fun hm => hu (h.append.1 u b hs hm)

theorem first?_of_noMatch {re : Re σ} {prev : Option σ} {s : List σ} (h : NoMatch re prev s) :
    first? re prev s = none := by
  refine List.find?_eq_none.mpr fun n hn => ?_
  obtain ⟨u, b, hs, rfl, hm⟩ := mem_lengths.mp hn
  rw [h u b hs hm]
  simp

theorem divide_skip {re : Re σ} : ∀ (u s : List σ) (prev : Option σ),
    divide re prev u.length (u ++ s) = divide re (lastOf prev u) 0 s
  | [], _, _ => rfl
  | c :: u, s, prev => by
    rw [lastOf_cons]
    exact divide_skip u s (some c)

/-- A character at which no match begins is kept. -/
theorem divide_kept {re : Re σ} {prev : Option σ} {c : σ} {s : List σ}
    (h : NoMatch re prev (c :: s)) :
    divide re prev 0 (c :: s) = .kept c :: divide re (some c) 0 s := by
  rw [divide, first?_of_noMatch h]

/-- Where only one text matches it is cut out. -/
theorem divide_hit {re : Re σ} {prev : Option σ} {u s : List σ} (hu : u ≠ [])
    (hm : Matches re prev u s)
    (hunique : ∀ v b, u ++ s = v ++ b → Matches re prev v b → v = [] ∨ v = u) :
    divide re prev 0 (u ++ s) = .hit u :: divide re (lastOf prev u) 0 s := by
  have hfirst : first? re prev (u ++ s) = some u.length := by
    cases h : first? re prev (u ++ s) with
    | none => exact absurd (noMatch_of_first? h u s rfl hm) hu
    | some n =>
      obtain ⟨hpos, hn, hm'⟩ := first?_some h
      have hlength : ((u ++ s).take n).length = n := List.length_take_of_le hn
      rcases hunique _ _ (List.take_append_drop n _).symm hm' with hnil | hsame
      · rw [hnil] at hlength
        exact absurd hlength.symm (Nat.ne_of_gt hpos)
      · rw [← hlength, hsame]
  obtain ⟨c, v, rfl⟩ := List.exists_cons_of_ne_nil hu
  rw [List.cons_append] at hfirst ⊢
  rw [divide, hfirst]
  have htake : (c :: v ++ s).take (c :: v).length = c :: v := List.take_left' rfl
  show Piece.hit ((c :: (v ++ s)).take (v.length + 1)) :: divide re (some c) v.length (v ++ s) = _
  rw [show (c :: (v ++ s)).take (v.length + 1) = c :: v from htake, divide_skip, lastOf_cons]

/-! ## The preferred match -/

/-- The hits are what the matcher prefers. -/
def Preferred (re : Re σ) : (prev : Option σ) → List (Piece σ) → Prop
  | _, [] => True
  | _, .kept c :: pieces => Preferred re (some c) pieces
  | prev, .hit text :: pieces =>
    first? re prev (text ++ sourceOf pieces) = some text.length ∧
      Preferred re (lastOf prev text) pieces

theorem divide_preferred (re : Re σ) : ∀ (s : List σ) (prev : Option σ) (n : Nat),
    Preferred re (lastOf prev (s.take n)) (divide re prev n s)
  | [], _, _ => trivial
  | c :: s, prev, n + 1 => by
    have hrest := divide_preferred re s (some c) n
    unfold divide
    rw [List.take_succ_cons, lastOf_cons]
    exact hrest
  | c :: s, prev, 0 => by
    unfold divide
    rw [List.take_zero, lastOf_nil]
    cases hfirst : first? re prev (c :: s) with
    | none => exact divide_preferred re s (some c) 0
    | some n =>
      obtain ⟨hpos, hn, -⟩ := first?_some hfirst
      obtain ⟨n, rfl⟩ : ∃ k, n = k + 1 := ⟨n - 1, by omega⟩
      have hrest := divide_preferred re s (some c) n
      refine ⟨?_, ?_⟩
      · rw [(divide_divided re s (some c) n).1, List.length_take_of_le hn]
        show first? re prev ((c :: s).take (n + 1) ++ (c :: s).drop (n + 1)) = _
        rw [List.take_append_drop, hfirst]
      · rw [List.take_succ_cons, lastOf_cons]
        exact hrest

theorem Preferred.append {re : Re σ} : ∀ {xs ys : List (Piece σ)} {prev : Option σ},
    Preferred re prev (xs ++ ys) → Preferred re (lastOf prev (sourceOf xs)) ys
  | [], _, _, h => h
  | .kept c :: xs, ys, prev, h => by
    rw [sourceOf_cons]
    show Preferred re (lastOf prev ([c] ++ sourceOf xs)) ys
    rw [lastOf_append]
    exact Preferred.append h
  | .hit text :: xs, ys, prev, h => by
    rw [sourceOf_cons]
    show Preferred re (lastOf prev (text ++ sourceOf xs)) ys
    rw [lastOf_append]
    exact h.2.append

/-- The expression ends in as many characters of the class as there are. -/
def Re.EndsIn (p : σ → Bool) : Re σ → Prop
  | many q => q = p
  | seq _ b => b.EndsIn p
  | alt a b => a.EndsIn p ∧ b.EndsIn p
  | one _ | skip | notAfter _ | notBefore _ | boundary _ => False

/-- Behind the preferred match there is then none of the class left. -/
theorem head_lengths_endsIn {p : σ → Bool} : ∀ {re : Re σ}, re.EndsIn p →
    ∀ {prev : Option σ} {s : List σ} {n : Nat}, (lengths re prev s).head? = some n →
      (s.drop n).head?.any p = false
  | .many q, hends, prev, s, n, h => by
    rw [show q = p from hends] at h
    unfold lengths at h
    rw [List.range_succ, List.reverse_append] at h
    cases h
    have hdrop := @List.drop_left σ (s.takeWhile p) (s.dropWhile p)
    rw [List.takeWhile_append_dropWhile] at hdrop
    rw [hdrop]
    cases hrest : s.dropWhile p with
    | nil => rfl
    | cons c rest =>
      have hc := List.head?_dropWhile_not p s
      rw [hrest] at hc
      simpa using hc
  | .seq a b, hends, prev, s, n, h => by
    unfold lengths at h
    rw [List.head?_flatMap] at h
    obtain ⟨m, hm, hhead⟩ := List.exists_of_findSome?_eq_some h
    rw [List.head?_map] at hhead
    obtain ⟨k, hk, rfl⟩ := Option.map_eq_some_iff.mp hhead
    have hrest := head_lengths_endsIn (show b.EndsIn p from hends) hk
    rw [List.drop_drop] at hrest
    exact hrest
  | .alt a b, hends, prev, s, n, h => by
    unfold lengths at h
    rw [List.head?_append] at h
    rcases Option.or_eq_some_iff.mp h with ha | ⟨-, hb⟩
    · exact head_lengths_endsIn hends.1 ha
    · exact head_lengths_endsIn hends.2 hb

/-! ## Expressions without assertions -/

/-- The expression says nothing about the neighbours of a match. -/
def Re.Plain : Re σ → Prop
  | one _ | many _ | skip => True
  | seq a b | alt a b => a.Plain ∧ b.Plain
  | notAfter _ | notBefore _ | boundary _ => False

/-- Where there is no assertion the neighbours do not matter. -/
theorem Matches.congr : ∀ {re : Re σ}, re.Plain → ∀ {prev prev' : Option σ} {u rest rest' : List σ},
    Matches re prev u rest → Matches re prev' u rest'
  | .one _, _, _, _, _, _, _, h => h
  | .many _, _, _, _, _, _, _, h => h
  | .skip, _, _, _, _, _, _, h => h
  | .seq _ _, hp, _, _, _, _, _, ⟨v, w, hu, ha, hb⟩ =>
    ⟨v, w, hu, ha.congr hp.1, hb.congr hp.2⟩
  | .alt _ _, hp, _, _, _, _, _, Or.inl ha => Or.inl (ha.congr hp.1)
  | .alt _ _, hp, _, _, _, _, _, Or.inr hb => Or.inr (hb.congr hp.2)

/-- Every character that is read meets `q`. -/
def Re.Within (q : σ → Prop) : Re σ → Prop
  | one p | many p => ∀ c, p c = true → q c
  | seq a b | alt a b => a.Within q ∧ b.Within q
  | skip | notAfter _ | notBefore _ | boundary _ => True

theorem Matches.within {q : σ → Prop} : ∀ {re : Re σ}, re.Within q →
    ∀ {prev : Option σ} {u rest : List σ}, Matches re prev u rest → ∀ c ∈ u, q c
  | .one _, hq, _, _, _, ⟨c, hu, hp⟩, d, hd => by
    rw [hu, List.mem_singleton] at hd
    exact hd ▸ hq c hp
  | .many _, hq, _, _, _, h, c, hc => hq c (h c hc)
  | .seq _ _, hq, _, _, _, ⟨v, w, hu, ha, hb⟩, c, hc => by
    rw [hu, List.mem_append] at hc
    rcases hc with hv | hw
    · exact ha.within hq.1 c hv
    · exact hb.within hq.2 c hw
  | .alt _ _, hq, _, _, _, Or.inl ha, c, hc => ha.within hq.1 c hc
  | .alt _ _, hq, _, _, _, Or.inr hb, c, hc => hb.within hq.2 c hc
  | .skip, _, _, _, _, h, c, hc => by
    rw [show _ = [] from h] at hc
    cases hc
  | .notAfter _, _, _, _, _, h, c, hc => by
    rw [h.1] at hc
    cases hc
  | .notBefore _, _, _, _, _, h, c, hc => by
    rw [h.1] at hc
    cases hc
  | .boundary _, _, _, _, _, h, c, hc => by
    rw [h.1] at hc
    cases hc

/-! ## Derived expressions -/

theorem matches_literal [DecidableEq σ] {text : List σ} : ∀ {prev : Option σ} {u rest : List σ},
    Matches (Re.literal text) prev u rest ↔ u = text := by
  induction text with
  | nil => exact Iff.rfl
  | cons c text ih =>
    intro prev u rest
    constructor
    · rintro ⟨v, w, rfl, ⟨d, rfl, hd⟩, hw⟩
      rw [ih.mp hw, of_decide_eq_true hd]
      rfl
    · rintro rfl
      exact ⟨[c], text, rfl, ⟨c, rfl, decide_eq_true rfl⟩, ih.mpr rfl⟩

theorem matches_times {p : σ → Bool} : ∀ {n : Nat} {prev : Option σ} {u rest : List σ},
    Matches (Re.times p n) prev u rest ↔ u.length = n ∧ ∀ c ∈ u, p c = true
  | 0, prev, u, rest => by
    constructor
    · intro h
      rw [show u = [] from h]
      exact ⟨rfl, fun _ hc => (nomatch hc)⟩
    · rintro ⟨h, -⟩
      exact List.length_eq_zero_iff.mp h
  | n + 1, prev, u, rest => by
    constructor
    · rintro ⟨v, w, rfl, ⟨c, rfl, hc⟩, hw⟩
      obtain ⟨hlength, hp⟩ := matches_times.mp hw
      refine ⟨congrArg (· + 1) hlength, fun d hd => ?_⟩
      rcases List.mem_cons.mp hd with rfl | hd
      · exact hc
      · exact hp d hd
    · rintro ⟨hlength, hp⟩
      cases u with
      | nil => cases hlength
      | cons c w =>
        refine ⟨[c], w, rfl, ⟨c, rfl, hp c List.mem_cons_self⟩, matches_times.mpr ⟨?_, ?_⟩⟩
        · exact Nat.succ.inj hlength
        · exact fun d hd => hp d (List.mem_cons_of_mem _ hd)

theorem matches_atLeast {p : σ → Bool} {n : Nat} {prev : Option σ} {u rest : List σ} :
    Matches (Re.atLeast p n) prev u rest ↔ n ≤ u.length ∧ ∀ c ∈ u, p c = true := by
  constructor
  · rintro ⟨v, w, rfl, hv, hw⟩
    obtain ⟨hlength, hp⟩ := matches_times.mp hv
    refine ⟨?_, List.forall_mem_append.mpr ⟨hp, hw⟩⟩
    rw [List.length_append, hlength]
    exact Nat.le_add_right _ _
  · rintro ⟨hn, hp⟩
    refine ⟨u.take n, u.drop n, (List.take_append_drop n u).symm, matches_times.mpr ⟨?_, ?_⟩, ?_⟩
    · exact List.length_take_of_le hn
    · exact fun c hc => hp c (List.mem_of_mem_take hc)
    · exact fun c hc => hp c (List.mem_of_mem_drop hc)

/-! ## Assertions at the ends -/

theorem matches_notAfter_seq {p : σ → Bool} {a : Re σ} {prev : Option σ} {u rest : List σ} :
    Matches (.seq (.notAfter p) a) prev u rest ↔
      prev.any p = false ∧ Matches a prev u rest := by
  constructor
  · rintro ⟨v, w, rfl, ⟨rfl, hprev⟩, ha⟩
    exact ⟨hprev, ha⟩
  · rintro ⟨hprev, ha⟩
    exact ⟨[], u, rfl, ⟨rfl, hprev⟩, ha⟩

theorem matches_boundary_seq {w : σ → Bool} {a : Re σ} {prev : Option σ} {u rest : List σ} :
    Matches (.seq (.boundary w) a) prev u rest ↔
      prev.any w ≠ (u ++ rest).head?.any w ∧ Matches a prev u rest := by
  constructor
  · rintro ⟨v, x, rfl, ⟨rfl, hprev⟩, ha⟩
    exact ⟨hprev, ha⟩
  · rintro ⟨hprev, ha⟩
    exact ⟨[], u, rfl, ⟨rfl, hprev⟩, ha⟩

theorem matches_seq_notBefore {p : σ → Bool} {a : Re σ} {prev : Option σ} {u rest : List σ} :
    Matches (.seq a (.notBefore p)) prev u rest ↔
      Matches a prev u rest ∧ rest.head?.any p = false := by
  constructor
  · rintro ⟨v, w, rfl, ha, rfl, hrest⟩
    rw [List.append_nil]
    exact ⟨ha, hrest⟩
  · rintro ⟨ha, hrest⟩
    exact ⟨u, [], (List.append_nil u).symm, ha, rfl, hrest⟩

theorem matches_seq_boundary {w : σ → Bool} {a : Re σ} {prev : Option σ} {u rest : List σ} :
    Matches (.seq a (.boundary w)) prev u rest ↔
      Matches a prev u rest ∧ (lastOf prev u).any w ≠ rest.head?.any w := by
  constructor
  · rintro ⟨v, x, rfl, ha, rfl, hrest⟩
    rw [List.append_nil]
    exact ⟨ha, hrest⟩
  · rintro ⟨ha, hrest⟩
    exact ⟨u, [], (List.append_nil u).symm, ha, rfl, hrest⟩

/-! ## Runs of a class -/

theorem occurs_atLeast {p : σ → Bool} {n : Nat} {prev : Option σ} {s : List σ} :
    Occurs (Re.atLeast p n) prev s ↔
      ∃ a u b, s = a ++ u ++ b ∧ n ≤ u.length ∧ ∀ c ∈ u, p c = true :=
  exists₃_congr fun _ _ _ => and_congr_right fun _ => matches_atLeast

theorem occurs_of_infix {p : σ → Bool} {n : Nat} {prev : Option σ} {s : List σ}
    (h : Occurs (Re.atLeast p n) prev s) (prev' : Option σ) (before after : List σ) :
    Occurs (Re.atLeast p n) prev' (before ++ s ++ after) := by
  obtain ⟨a, u, b, rfl, hu⟩ := occurs_atLeast.mp h
  refine occurs_atLeast.mpr ⟨before ++ a, u, b ++ after, ?_, hu⟩
  simp only [List.append_assoc]

/-- A run is on one side of a place next to which there is no character of
the class. -/
theorem occurs_append {p : σ → Bool} {n : Nat} {prev : Option σ} {x y : List σ}
    (hedge : x.getLast?.any p = false ∨ y.head?.any p = false)
    (h : Occurs (Re.atLeast p n) prev (x ++ y)) :
    Occurs (Re.atLeast p n) none x ∨ Occurs (Re.atLeast p n) none y := by
  obtain ⟨a, u, b, hs, hlength, hu⟩ := occurs_atLeast.mp h
  rcases List.append_eq_append_iff.mp hs with ⟨m, hau, rfl⟩ | ⟨m, rfl, rfl⟩
  · rcases List.append_eq_append_iff.mp hau with ⟨k, rfl, rfl⟩ | ⟨k, rfl, rfl⟩
    · -- the run would reach over the place
      obtain ⟨hk, hm⟩ := List.forall_mem_append.mp hu
      rcases hedge with hlast | hhead
      · have hnil : k = [] := by
          by_contra hne
          obtain ⟨last, front, hfront⟩ := List.exists_cons_of_ne_nil
            (List.reverse_ne_nil_iff.mpr hne)
          have hk' : k = front.reverse ++ [last] := by
            rw [← List.reverse_cons, ← hfront, List.reverse_reverse]
          have hp := hk last (hk' ▸ List.mem_append_right _ List.mem_cons_self)
          rw [hk', ← List.append_assoc, List.getLast?_concat] at hlast
          exact Bool.false_ne_true (hlast.symm.trans hp)
        refine Or.inr (occurs_atLeast.mpr ⟨[], m, b, rfl, ?_, hm⟩)
        rw [hnil, List.nil_append] at hlength
        exact hlength
      · cases m with
        | nil =>
          rw [List.append_nil] at hlength
          exact Or.inl (occurs_atLeast.mpr ⟨a, k, [], (List.append_nil _).symm, hlength, hk⟩)
        | cons d m =>
          have hp := hm d List.mem_cons_self
          exact absurd (hhead.symm.trans hp) Bool.false_ne_true
    · exact Or.inr (occurs_atLeast.mpr ⟨k, u, b, rfl, hlength, hu⟩)
  · exact Or.inl (occurs_atLeast.mpr ⟨a, u, m, rfl, hlength, hu⟩)

end Regex
