import AgentRuntime.TextPatterns
import Mathlib.Data.List.TakeWhile

/-!
# The text of a material

`_sanitize_material_summary` replaces what `_MATERIAL_SENSITIVE_TEXT` finds,
then a nickname at the start, then strips the text and cuts it. A number is
not found where another digit stands next to it, and the digit may go: it is
cut off, or it belongs to the next thing that is replaced. These are the only
ways for something to be left that the expression finds
(`material_summary_clean_iff`).

The argument follows the pieces of the substitution. What matches in the
result has no bracket up to its end, or up to its last part, so it was kept
character by character (`kept_of_render`), and there the expression found
nothing.

Mirroring notes:
- `(?i:...)` folds the letters of the alphabet, and the four others that
  Unicode folds to them.
- `$` is also before a line break at the end, and a line break is `\s`.
-/

namespace AgentRuntime

open Regex

/-- The classes, and that the full-width comma and semicolon are no digits. -/
structure TextClasses extends CharClasses where
  comma : digit '，' = false
  semicolon : digit '；' = false

/-- The classes of ASCII texts with Chinese characters. -/
def plainClasses : TextClasses where
  toCharClasses := asciiClasses
  comma := by decide
  semicolon := by decide

/-! ## The expressions -/

/-- `[A-Za-z0-9._%+-]`. -/
def localChar (c : Char) : Bool := c.isAlphanum || decide (c ∈ ['.', '_', '%', '+', '-'])

/-- `[A-Za-z0-9.-]`. -/
def domainChar (c : Char) : Bool := c.isAlphanum || decide (c ∈ ['.', '-'])

/-- `[^\s,，;；]`. -/
def openChar (c : Char) : Bool := !(isSpace c || decide (c ∈ [',', '，', ';', '；']))

/-- A letter of a text that is matched in either case. -/
def foldCase (c : Char) : Char :=
  if c = '\u0130' ∨ c = '\u0131' then 'i'
  else if c = '\u017f' then 's'
  else if c = '\u212a' then 'k'
  else c.toLower

/-- A text of its own, in either case. -/
def ignoreCase : List Char → Re Char
  | [] => .skip
  | c :: text => .seq (.one fun d => decide (foldCase d = c)) (ignoreCase text)

/-- `[A-Za-z0-9._%+-]+@[A-Za-z0-9.-]+\.[A-Za-z]{2,}`. -/
def emailAddress : Re Char :=
  .seq (.atLeast localChar 1) (.seq (.literal ['@'])
    (.seq (.atLeast domainChar 1) (.seq (.literal ['.']) (.atLeast Char.isAlpha 2))))

/-- `https?://`. -/
def urlScheme : Re Char :=
  .seq (.literal "http".toList) (.seq (.opt (.literal ['s'])) (.literal "://".toList))

/-- `www\.`. -/
def wwwHost : Re Char := .literal "www.".toList

/-- `(?i:access[_-]?token|api[_-]?key|token|openid)\s*[:=]\s*`. -/
def tokenKey : Re Char :=
  let dash : Re Char := .opt (.one fun c => decide (c = '_' ∨ c = '-'))
  let key : Re Char := .choice
    (.seq (ignoreCase "access".toList) (.seq dash (ignoreCase "token".toList)))
    [.seq (ignoreCase "api".toList) (.seq dash (ignoreCase "key".toList)),
      ignoreCase "token".toList, ignoreCase "openid".toList]
  .seq key (.seq (.many isSpace) (.seq (.one fun c => decide (c = ':' ∨ c = '=')) (.many isSpace)))

/-- The alternatives that take what follows up to a blank, a comma or a
semicolon. -/
def openEnded : Re Char :=
  .choice (.seq urlScheme (.atLeast openChar 1))
    [.seq wwwHost (.atLeast openChar 1), .seq tokenKey (.atLeast openChar 1)]

/-- `_MATERIAL_SENSITIVE_TEXT`. -/
def materialSensitive (cc : CharClasses) : Re Char :=
  .alt (sensitiveIdentifier cc) (.alt emailAddress openEnded)

/-- The characters of Chinese names. -/
def nameChar (c : Char) : Bool := codeRange 0x4e00 0x9fff c

/-- What follows a nickname. -/
def nicknameEnds : List Char → Bool
  | [] => true
  | c :: rest =>
    isSpace c || decide (c ∈ ['说', '在', '去', '来', '：', ':', '，', '。', '！', '？', '；', '、']) ||
      [['电', '话'], ['手', '机'], ['邮', '箱']].any fun word => word.isPrefixOf (c :: rest)

/-- `_MATERIAL_SELF_NICKNAME.sub("我", …)`. -/
def replaceNickname : List Char → List Char
  | a :: c :: rest =>
    if (a = '小' ∨ a = '阿') ∧ nameChar c = true ∧ nicknameEnds rest = true then '我' :: rest
    else a :: c :: rest
  | s => s

/-- `strip`. -/
def stripChars (s : List Char) : List Char :=
  ((s.dropWhile isSpace).reverse.dropWhile isSpace).reverse

/-- The characters that a slice up to `limit` takes of `length`. -/
def sliceEnd (limit : Int) (length : Nat) : Nat :=
  if 0 ≤ limit then limit.toNat else length - limit.natAbs

/-- The two substitutions. -/
def redactMaterial (cc : CharClasses) (content : String) : String :=
  String.ofList (replaceNickname (sub (materialSensitive cc) redactedText content.toList))

/-- `_sanitize_material_summary`, with any limit. -/
def materialSummary (cc : CharClasses) (content : String) (limit : Int) : String :=
  let stripped := stripText (redactMaterial cc content)
  firstChars (sliceEnd limit stripped.length) stripped

/-- The limits of the source are none below zero. -/
theorem materialSummary_of_nat (cc : CharClasses) (content : String) (limit : Nat) :
    materialSummary cc content limit
      = MemoirNodeRunner.sanitizeMaterialSummary (redactMaterial cc) content limit := by
  unfold materialSummary MemoirNodeRunner.sanitizeMaterialSummary sliceEnd
  dsimp only
  rw [if_pos (Int.natCast_nonneg limit)]
  rfl

/-! ## The pieces that are shown -/

/-- The pieces, with a nickname replaced. -/
def nicknamePieces : List (Piece Char) → List (Piece Char)
  | .kept a :: .kept c :: pieces =>
    if (a = '小' ∨ a = '阿') ∧ nameChar c = true ∧
        nicknameEnds (pieces.flatMap (Piece.render redactedText)) = true then
      .kept '我' :: pieces
    else .kept a :: .kept c :: pieces
  | pieces => pieces

def blankPiece : Piece Char → Bool
  | .kept c => isSpace c
  | .hit _ => false

/-- The pieces of a content as they are shown, before the cut. -/
def shownPieces (cc : CharClasses) (content : List Char) : List (Piece Char) :=
  (((nicknamePieces (divide (materialSensitive cc) none 0 content)).dropWhile
    blankPiece).reverse.dropWhile blankPiece).reverse

/-- What pieces look like. -/
abbrev shown (pieces : List (Piece Char)) : List Char :=
  pieces.flatMap (Piece.render redactedText)

theorem render_kept (mark : List Char) (c : Char) (pieces : List (Piece Char)) :
    (Piece.kept c :: pieces).flatMap (Piece.render mark)
      = c :: pieces.flatMap (Piece.render mark) := rfl

theorem render_hit (mark text : List Char) (pieces : List (Piece Char)) :
    (Piece.hit text :: pieces).flatMap (Piece.render mark)
      = mark ++ pieces.flatMap (Piece.render mark) := rfl

theorem replaceNickname_shown (pieces : List (Piece Char)) :
    replaceNickname (shown pieces) = shown (nicknamePieces pieces) := by
  cases pieces with
  | nil => rfl
  | cons first pieces =>
    cases first with
    | hit text => rfl
    | kept a =>
      cases pieces with
      | nil => rfl
      | cons second pieces =>
        cases second with
        | kept c =>
          have hpieces : nicknamePieces (.kept a :: .kept c :: pieces)
              = if (a = '小' ∨ a = '阿') ∧ nameChar c = true ∧ nicknameEnds (shown pieces) = true then
                  .kept '我' :: pieces
                else .kept a :: .kept c :: pieces := rfl
          rw [hpieces, shown, render_kept, render_kept, replaceNickname]
          split <;> rfl
        | hit text =>
          have hname : nameChar '[' = false := by decide
          exact if_neg fun h => Bool.false_ne_true (hname.symm.trans h.2.1)

theorem dropWhile_shown {c : Char} {mark : List Char} (hc : isSpace c = false)
    (pieces : List (Piece Char)) :
    (pieces.flatMap (Piece.render (c :: mark))).dropWhile isSpace
      = (pieces.dropWhile blankPiece).flatMap (Piece.render (c :: mark)) := by
  induction pieces with
  | nil => rfl
  | cons piece pieces ih =>
    cases piece with
    | hit text =>
      rw [render_hit, List.cons_append,
        List.dropWhile_cons_of_neg (by rw [hc]; exact Bool.false_ne_true)]
      rfl
    | kept d =>
      rw [render_kept]
      by_cases hd : isSpace d = true
      · have hpiece : blankPiece (.kept d) = true := hd
        rw [List.dropWhile_cons_of_pos hd, ih, List.dropWhile_cons_of_pos hpiece]
      · have hpiece : ¬ blankPiece (.kept d) = true := hd
        rw [List.dropWhile_cons_of_neg hd, List.dropWhile_cons_of_neg hpiece, render_kept]

theorem reverse_shown (mark : List Char) (pieces : List (Piece Char)) :
    (pieces.flatMap (Piece.render mark)).reverse
      = pieces.reverse.flatMap (Piece.render mark.reverse) := by
  rw [List.reverse_flatMap]
  congr 1
  funext piece
  cases piece <;> rfl

/-- The text before the cut. -/
theorem toList_stripped (cc : CharClasses) (content : String) :
    (stripText (redactMaterial cc content)).toList = shown (shownPieces cc content.toList) := by
  have hmark : redactedText.reverse = ']' :: "DETCADER[".toList := by decide
  unfold stripText redactMaterial shownPieces sub
  rw [String.toList_ofList, String.toList_ofList]
  show ((List.dropWhile isSpace (replaceNickname (shown _))).reverse.dropWhile isSpace).reverse = _
  rw [replaceNickname_shown]
  generalize nicknamePieces _ = pieces
  have hfront : (shown pieces).dropWhile isSpace = shown (pieces.dropWhile blankPiece) :=
    dropWhile_shown (by decide) pieces
  rw [hfront]
  unfold shown
  rw [reverse_shown, hmark, dropWhile_shown (by decide), ← hmark, reverse_shown,
    List.reverse_reverse]

/-! ## What was kept -/

/-- A text without the opening bracket that starts where a piece does was
kept, character by character. -/
theorem kept_of_start : ∀ {u b : List Char} {pieces : List (Piece Char)},
    shown pieces = u ++ b → '[' ∉ u →
    ∃ rest, pieces = u.map .kept ++ rest ∧ shown rest = b
  | [], _, pieces, h, _ => ⟨pieces, rfl, h⟩
  | c :: u, b, [], h, _ => by cases h
  | c :: u, b, .hit text :: pieces, h, hopen => by
    have hfirst : '[' = c := (List.cons.inj h).1
    exact absurd (hfirst ▸ List.mem_cons_self) hopen
  | c :: u, b, .kept d :: pieces, h, hopen => by
    obtain ⟨rfl, hrest⟩ := List.cons.inj h
    obtain ⟨rest, rfl, hb⟩ := kept_of_start hrest fun hmem => hopen (List.mem_cons_of_mem _ hmem)
    exact ⟨rest, rfl, hb⟩

/-- A text without brackets that is not all from the placeholder was kept. -/
theorem kept_of_shown {u b : List Char} (hopen : '[' ∉ u) (hclose : ']' ∉ u)
    (hown : ∃ c ∈ u, c ∉ redactedText) : ∀ {a : List Char} {pieces : List (Piece Char)},
    shown pieces = a ++ (u ++ b) →
    ∃ front rest, pieces = front ++ (u.map .kept ++ rest) ∧ shown front = a ∧ shown rest = b
  | a, [], h => by
    obtain ⟨c, hc, -⟩ := hown
    have hnone : a ++ (u ++ b) = [] := h.symm
    rw [List.append_eq_nil_iff, List.append_eq_nil_iff] at hnone
    rw [hnone.2.1] at hc
    cases hc
  | [], piece :: pieces, h => by
    have hstart : shown (piece :: pieces) = u ++ b := h
    obtain ⟨rest, hrest, hb⟩ := kept_of_start hstart hopen
    exact ⟨[], rest, hrest, rfl, hb⟩
  | d :: a, .kept c :: pieces, h => by
    obtain ⟨rfl, hrest⟩ := List.cons.inj h
    obtain ⟨front, rest, rfl, rfl, hb⟩ := kept_of_shown hopen hclose hown hrest
    exact ⟨.kept c :: front, rest, rfl, rfl, hb⟩
  | d :: a, .hit text :: pieces, h => by
    have hsplit : redactedText ++ shown pieces = (d :: a) ++ (u ++ b) := h
    rcases List.append_eq_append_iff.mp hsplit with ⟨m, ha, hrest⟩ | ⟨m, hmark, hrest⟩
    · obtain ⟨front, rest, rfl, rfl, hb⟩ := kept_of_shown hopen hclose hown hrest
      exact ⟨.hit text :: front, rest, rfl, ha.symm, hb⟩
    · -- the text would begin in the placeholder, and is all of it or reaches over its end
      rcases List.eq_nil_or_concat m with rfl | ⟨m, last, rfl⟩
      · have hstart : shown pieces = [] ++ (u ++ b) := hrest.symm
        obtain ⟨front, rest, rfl, hfront, hb⟩ := kept_of_shown hopen hclose hown hstart
        refine ⟨.hit text :: front, rest, rfl, ?_, hb⟩
        have hnone : front.flatMap (Piece.render redactedText) = [] := hfront
        rw [shown, render_hit, hnone, List.append_nil, hmark, List.append_nil]
      · rw [List.concat_eq_append] at hmark hrest
        exfalso
        have hlast : last = ']' := by
          have hend := congrArg List.getLast? hmark
          rw [← List.append_assoc, List.getLast?_concat] at hend
          exact (Option.some.inj hend).symm
        obtain ⟨c, hc, hother⟩ := hown
        rcases List.append_eq_append_iff.mp hrest with ⟨k, hm, -⟩ | ⟨k, hu, -⟩
        · refine hother ?_
          rw [hmark, hm]
          exact List.mem_append_right _ (List.mem_append_left _ hc)
        · refine hclose ?_
          rw [hu, hlast]
          simp

/-- A list without what is blank at its ends. -/
theorem strip_split {α : Type} (p : α → Bool) (l : List α) :
    ∃ lead middle trail, ((l.dropWhile p).reverse.dropWhile p).reverse = middle ∧
      l = lead ++ (middle ++ trail) ∧ (∀ x ∈ lead, p x = true) ∧ ∀ x ∈ trail, p x = true := by
  refine ⟨l.takeWhile p, _, ((l.dropWhile p).reverse.takeWhile p).reverse, rfl, ?_,
    fun x hx => List.mem_takeWhile_imp hx,
    fun x hx => List.mem_takeWhile_imp (List.mem_reverse.mp hx)⟩
  rw [← List.reverse_append, List.takeWhile_append_dropWhile, List.reverse_reverse,
    List.takeWhile_append_dropWhile]

theorem nicknamePieces_cases (pieces : List (Piece Char)) :
    nicknamePieces pieces = pieces ∨ ∃ a c rest, pieces = .kept a :: .kept c :: rest ∧
      nameChar c = true ∧ nicknamePieces pieces = .kept '我' :: rest := by
  unfold nicknamePieces
  split
  next a c rest =>
    split
    next hname => exact Or.inr ⟨a, c, rest, rfl, hname.2.1, rfl⟩
    next => exact Or.inl rfl
  next => exact Or.inl rfl

section

variable {cc : TextClasses}

theorem last_blank {pieces : List (Piece Char)} (h : ∀ x ∈ pieces, blankPiece x = true) :
    (lastOf none (sourceOf pieces)).any cc.digit = false := by
  rcases List.eq_nil_or_concat pieces with rfl | ⟨front, last, rfl⟩
  · rfl
  · rw [List.concat_eq_append] at h ⊢
    have hlast := h last (List.mem_append_right _ List.mem_cons_self)
    cases last with
    | hit text => cases hlast
    | kept c =>
      rw [sourceOf_append]
      show (lastOf none (sourceOf front ++ [c])).any cc.digit = false
      rw [lastOf_concat]
      exact (cc.space c hlast).1

theorem head_blank {pieces : List (Piece Char)} (h : ∀ x ∈ pieces, blankPiece x = true) :
    (sourceOf pieces).head?.any cc.digit = false := by
  cases pieces with
  | nil => rfl
  | cons first pieces =>
    have hfirst := h first List.mem_cons_self
    cases first with
    | hit text => cases hfirst
    | kept c => exact (cc.space c hfirst).1

/-- What is shown of a content: its pieces without some at the ends, where no
digit stands, and `我` for a nickname. -/
theorem shownPieces_split (cc : TextClasses) (content : List Char) :
    ∃ named front middle behind,
      divide (materialSensitive cc.toCharClasses) none 0 content = front ++ (middle ++ behind) ∧
      shownPieces cc.toCharClasses content = named ++ middle ∧
      (named = [] ∨ named = [.kept '我']) ∧
      (lastOf none (sourceOf front)).any cc.digit = false ∧
      (sourceOf behind).head?.any cc.digit = false := by
  unfold shownPieces
  generalize divide (materialSensitive cc.toCharClasses) none 0 content = pieces
  obtain ⟨lead, middle, trail, hmiddle, hsplit, hlead, htrail⟩ :=
    strip_split blankPiece (nicknamePieces pieces)
  rw [hmiddle]
  rcases nicknamePieces_cases pieces with hsame | ⟨a, c, rest, rfl, hname, hsame⟩
  · rw [hsame] at hsplit
    exact ⟨[], lead, middle, trail, hsplit, rfl, Or.inl rfl, last_blank hlead, head_blank htrail⟩
  · -- the name is not blank, so it is where the pieces that are shown begin
    rw [hsame] at hsplit
    have hme : blankPiece (.kept '我') = false := by decide
    cases lead with
    | cons first lead =>
      have hfirst := hlead first List.mem_cons_self
      rw [← (List.cons.inj hsplit).1, hme] at hfirst
      cases hfirst
    | nil =>
      cases middle with
      | nil =>
        have hfirst := htrail (.kept '我') (by
          rw [List.nil_append, List.nil_append] at hsplit
          rw [← hsplit]
          exact List.mem_cons_self)
        rw [hme] at hfirst
        cases hfirst
      | cons first middle =>
        obtain ⟨rfl, hrest⟩ := List.cons.inj hsplit
        refine ⟨[.kept '我'], [.kept a, .kept c], middle, trail, ?_, rfl, Or.inr rfl, ?_,
          head_blank htrail⟩
        · rw [hrest]
          rfl
        · have hrange := of_decide_eq_true hname
          exact (cc.cjk c hrange.1 hrange.2).1

/-! ## The alternatives -/

/-- Neither a bracket nor the word for a nickname. -/
def Free (c : Char) : Prop := c ≠ '[' ∧ c ≠ ']' ∧ c ≠ '我'

instance : DecidablePred Free := fun _ => inferInstanceAs (Decidable (_ ∧ _ ∧ _))

theorem isAlpha_iff (c : Char) : c.isAlpha = true ↔
    (65 ≤ c.toNat ∧ c.toNat ≤ 90) ∨ (97 ≤ c.toNat ∧ c.toNat ≤ 122) := by
  unfold Char.isAlpha Char.isUpper Char.isLower
  simp [UInt32.le_iff_toNat_le]

theorem not_digit_of_isAlpha {c : Char} (h : c.isAlpha = true) : cc.digit c = false := by
  have hrange := (isAlpha_iff c).mp h
  rw [cc.digit_ascii c (by omega)]
  refine Bool.eq_false_iff.mpr fun hd => ?_
  have hdigit := (isDigit_iff c).mp hd
  omega

theorem free_of_alphanum {c : Char} {more : List Char} (hmore : ∀ d ∈ more, Free d)
    (h : (c.isAlphanum || decide (c ∈ more)) = true) : Free c := by
  rcases (Bool.or_eq_true _ _).mp h with halnum | hmem
  · refine ⟨?_, ?_, ?_⟩
    · rintro rfl
      exact absurd halnum (by decide)
    · rintro rfl
      exact absurd halnum (by decide)
    · rintro rfl
      exact absurd halnum (by decide)
  · exact hmore c (of_decide_eq_true hmem)

theorem emailAddress_within : emailAddress.Within Free := by
  have hliteral : ∀ c d : Char, Free d → decide (c = d) = true → Free c := by
    intro c d hd h
    exact of_decide_eq_true h ▸ hd
  have hat : Free '@' := by decide
  have hdot : Free '.' := by decide
  have hlocal : ∀ c, localChar c = true → Free c := fun c h =>
    free_of_alphanum (forall_mem_of_all (by decide)) h
  have hdomain : ∀ c, domainChar c = true → Free c := fun c h =>
    free_of_alphanum (forall_mem_of_all (by decide)) h
  have halpha : ∀ c : Char, c.isAlpha = true → Free c := by
    intro c h
    refine @free_of_alphanum c [] (fun d hd => (nomatch hd)) ?_
    unfold Char.isAlphanum
    rw [h]
    rfl
  exact ⟨⟨⟨hlocal, trivial⟩, hlocal⟩, ⟨fun c h => hliteral c '@' hat h, trivial⟩,
    ⟨⟨hdomain, trivial⟩, hdomain⟩, ⟨fun c h => hliteral c '.' hdot h, trivial⟩,
    ⟨halpha, halpha, trivial⟩, halpha⟩

theorem emailAddress_plain : emailAddress.Plain :=
  ⟨⟨⟨trivial, trivial⟩, trivial⟩, ⟨trivial, trivial⟩, ⟨⟨trivial, trivial⟩, trivial⟩,
    ⟨trivial, trivial⟩, ⟨trivial, trivial, trivial⟩, trivial⟩

/-- An address begins with a character of its name, has an `@` and ends in a
letter. -/
theorem email_shape {prev : Option Char} {u rest : List Char}
    (h : Matches emailAddress prev u rest) :
    (∃ c v, u = c :: v ∧ localChar c = true) ∧ '@' ∈ u ∧
      ∃ v c, u = v ++ [c] ∧ c.isAlpha = true := by
  obtain ⟨name, w, rfl, hname, sign, x, rfl, hsign, domain, y, rfl, -, dot, top, rfl, -, htop⟩ := h
  obtain ⟨hlength, hlocal⟩ := matches_atLeast.mp hname
  obtain ⟨htwo, halpha⟩ := matches_atLeast.mp htop
  rw [matches_literal.mp hsign]
  refine ⟨?_, by simp, ?_⟩
  · cases name with
    | nil => cases hlength
    | cons c name => exact ⟨c, _, rfl, hlocal c List.mem_cons_self⟩
  · rcases List.eq_nil_or_concat top with rfl | ⟨v, c, rfl⟩
    · cases htwo
    · rw [List.concat_eq_append] at halpha ⊢
      refine ⟨name ++ (['@'] ++ (domain ++ (dot ++ v))), c, ?_,
        halpha c (List.mem_append_right _ List.mem_cons_self)⟩
      simp only [List.append_assoc]

/-- What stands before the open end. -/
def openHeads : List (Re Char) := [urlScheme, wwwHost, tokenKey]

theorem matches_openEnded {prev : Option Char} {u rest : List Char} :
    Matches openEnded prev u rest ↔
      ∃ re ∈ openHeads, Matches (.seq re (.atLeast openChar 1)) prev u rest := by
  unfold openHeads
  rw [List.exists_mem_cons_iff, List.exists_mem_cons_iff, List.exists_mem_cons_iff]
  simp only [List.not_mem_nil, false_and, exists_false, or_false]
  exact Iff.rfl

theorem within_literal {q : Char → Prop} : ∀ {text : List Char}, (∀ c ∈ text, q c) →
    (Re.literal text).Within q
  | [], _ => trivial
  | c :: _, h =>
    ⟨fun _ hd => of_decide_eq_true hd ▸ h c List.mem_cons_self,
      within_literal fun d hd => h d (List.mem_cons_of_mem _ hd)⟩

theorem within_ignoreCase : ∀ {text : List Char}, (∀ c ∈ text, Free c) →
    (ignoreCase text).Within Free
  | [], _ => trivial
  | c :: _, h => by
    obtain ⟨hfirst, hrest⟩ := List.forall_mem_cons.mp h
    refine ⟨fun d hd => ?_, within_ignoreCase hrest⟩
    have hfold : foldCase d = c := of_decide_eq_true hd
    -- a bracket folds to itself
    refine ⟨?_, ?_, ?_⟩
    · rintro rfl
      exact hfirst.1 hfold.symm
    · rintro rfl
      exact hfirst.2.1 hfold.symm
    · rintro rfl
      exact hfirst.2.2 hfold.symm

theorem plain_literal : ∀ text : List Char, (Re.literal text).Plain
  | [] => trivial
  | _ :: text => ⟨trivial, plain_literal text⟩

theorem plain_ignoreCase : ∀ text : List Char, (ignoreCase text).Plain
  | [] => trivial
  | _ :: text => ⟨trivial, plain_ignoreCase text⟩

theorem matches_ignoreCase_cons {x : Char} {text : List Char} {prev : Option Char}
    {u rest : List Char} (h : Matches (ignoreCase (x :: text)) prev u rest) :
    ∃ d v, u = d :: v ∧ foldCase d = x := by
  obtain ⟨_, w, rfl, ⟨d, rfl, hd⟩, -⟩ := h
  exact ⟨d, w, rfl, of_decide_eq_true hd⟩

theorem foldCase_of_space {c : Char} (h : isSpace c = true) : foldCase c = c := by
  have hrange := of_decide_eq_true h
  have hother : ∀ d : Char, isSpace d = false → c ≠ d := by
    rintro d hd rfl
    rw [h] at hd
    cases hd
  unfold foldCase
  rw [if_neg (not_or.mpr ⟨hother _ (by decide), hother _ (by decide)⟩),
    if_neg (hother _ (by decide)), if_neg (hother _ (by decide))]
  unfold Char.toLower
  rw [dif_neg]
  rintro ⟨hlow, hhigh⟩
  have hlow' : 65 ≤ c.toNat := UInt32.le_iff_toNat_le.mp hlow
  have hhigh' : c.toNat ≤ 90 := UInt32.le_iff_toNat_le.mp hhigh
  omega

theorem openChar_of_foldCase {d x : Char} (hx : x ∈ ['a', 't', 'o']) (h : foldCase d = x) :
    openChar d = true := by
  have hplain : ∀ c ∈ ['a', 't', 'o'], openChar c = true := forall_mem_of_all (by decide)
  have hkept : foldCase d = d → openChar d = true := fun hsame =>
    hplain d ((hsame.symm.trans h) ▸ hx)
  cases hopen : openChar d with
  | true => rfl
  | false =>
    rw [← hopen]
    unfold openChar at hopen
    rw [Bool.not_eq_false', Bool.or_eq_true] at hopen
    rcases hopen with hspace | hmem
    · exact hkept (foldCase_of_space hspace)
    · have hfold : ∀ c ∈ [',', '，', ';', '；'], foldCase c = c := forall_mem_of_all (by decide)
      exact hkept (hfold d (of_decide_eq_true hmem))

/-- What stands before the open end is a text of its own, whatever is next to
it. -/
theorem openHead_shape {re : Re Char} (hre : re ∈ openHeads) :
    re.Plain ∧ re.Within Free ∧ ∀ {prev : Option Char} {u rest : List Char},
      Matches re prev u rest → (∃ c ∈ u, c ∉ redactedText) ∧
        ∃ c v, u = c :: v ∧ openChar c = true := by
  unfold openHeads at hre
  simp only [List.mem_cons, List.not_mem_nil, or_false] at hre
  rcases hre with rfl | rfl | rfl
  · refine ⟨⟨plain_literal _, ⟨plain_literal _, trivial⟩, plain_literal _⟩,
      ⟨within_literal (forall_mem_of_all (by decide)), ⟨within_literal (forall_mem_of_all (by decide)), trivial⟩,
        within_literal (forall_mem_of_all (by decide))⟩, ?_⟩
    rintro prev u rest ⟨v, w, rfl, hv, -⟩
    rw [matches_literal.mp hv]
    exact ⟨⟨'h', List.mem_cons_self, by decide⟩, 'h', _, rfl, by decide⟩
  · refine ⟨plain_literal _, within_literal (forall_mem_of_all (by decide)), ?_⟩
    intro prev u rest hu
    rw [matches_literal.mp hu]
    exact ⟨⟨'w', List.mem_cons_self, by decide⟩, 'w', _, rfl, by decide⟩
  · refine ⟨?_, ?_, ?_⟩
    · have hdash : (Re.opt (.one fun c => decide (c = '_' ∨ c = '-'))).Plain := ⟨trivial, trivial⟩
      exact ⟨⟨⟨plain_ignoreCase _, hdash, plain_ignoreCase _⟩,
        ⟨plain_ignoreCase _, hdash, plain_ignoreCase _⟩, plain_ignoreCase _, plain_ignoreCase _⟩,
        trivial, trivial, trivial⟩
    · have hfree : ∀ {p : Char → Bool}, p '[' = false → p ']' = false → p '我' = false →
          ∀ c, p c = true → Free c := by
        intro p hopen hclose hme c hc
        refine ⟨?_, ?_, ?_⟩
        · rintro rfl
          exact Bool.false_ne_true (hopen.symm.trans hc)
        · rintro rfl
          exact Bool.false_ne_true (hclose.symm.trans hc)
        · rintro rfl
          exact Bool.false_ne_true (hme.symm.trans hc)
      have hdash : (Re.opt (.one fun c => decide (c = '_' ∨ c = '-'))).Within Free :=
        ⟨hfree (by decide) (by decide) (by decide), trivial⟩
      have htext : ∀ {text : List Char}, (text.all fun c => decide (Free c)) = true →
          (ignoreCase text).Within Free := fun h => within_ignoreCase (forall_mem_of_all h)
      exact ⟨⟨⟨htext (by decide), hdash, htext (by decide)⟩,
        ⟨htext (by decide), hdash, htext (by decide)⟩, htext (by decide), htext (by decide)⟩,
        hfree (by decide) (by decide) (by decide), hfree (by decide) (by decide) (by decide),
        hfree (by decide) (by decide) (by decide)⟩
    · rintro prev u rest ⟨key, w, rfl, hkey, blanks, x, rfl, -, sep, y, rfl, ⟨c, rfl, hc⟩, -⟩
      refine ⟨⟨c, by simp, ?_⟩, ?_⟩
      · rcases of_decide_eq_true hc with rfl | rfl
        · decide
        · decide
      · have hfirst : ∃ d v, key = d :: v ∧ foldCase d ∈ ['a', 't', 'o'] := by
          have hhead : ∀ {x : Char} {text : List Char} {prev : Option Char} {v w rest : List Char},
              x ∈ ['a', 't', 'o'] → Matches (ignoreCase (x :: text)) prev v rest →
              ∃ d t, v ++ w = d :: t ∧ foldCase d ∈ ['a', 't', 'o'] := by
            intro x text prev v w rest hx hv
            obtain ⟨d, t, rfl, hd⟩ := matches_ignoreCase_cons hv
            exact ⟨d, t ++ w, rfl, hd ▸ hx⟩
          rcases hkey with ⟨v, w, rfl, hv, -⟩ | ⟨v, w, rfl, hv, -⟩ | htoken | hopenid
          · exact @hhead 'a' _ _ v w _ (by decide) hv
          · exact @hhead 'a' _ _ v w _ (by decide) hv
          · rw [← List.append_nil key]
            exact @hhead 't' _ _ key [] _ (by decide) htoken
          · rw [← List.append_nil key]
            exact @hhead 'o' _ _ key [] _ (by decide) hopenid
        obtain ⟨d, v, rfl, hd⟩ := hfirst
        exact ⟨d, _, rfl, openChar_of_foldCase hd rfl⟩

/-! ## What is replaced -/

theorem openChar_of_digit {c : Char} (h : cc.digit c = true) : openChar c = true := by
  have hother : ∀ d : Char, cc.digit d = false → c ≠ d := by
    rintro d hd rfl
    rw [h] at hd
    cases hd
  have hspace : isSpace c = false := by
    refine Bool.eq_false_iff.mpr fun hs => ?_
    rw [(cc.space c hs).1] at h
    cases h
  have hascii : ∀ d : Char, d.toNat < 128 → d.isDigit = false → cc.digit d = false := by
    intro d hd hno
    rw [cc.digit_ascii d hd, hno]
  have hmarks : c ∉ [',', '，', ';', '；'] := by
    simp only [List.mem_cons, List.not_mem_nil, or_false, not_or]
    exact ⟨hother _ (hascii _ (by decide) (by decide)), hother _ cc.comma,
      hother _ (hascii _ (by decide) (by decide)), hother _ cc.semicolon⟩
  unfold openChar
  rw [hspace, decide_eq_false hmarks]
  rfl

theorem openChar_of_localChar {c : Char} (h : localChar c = true) : openChar c = true := by
  rcases (Bool.or_eq_true _ _).mp h with halnum | hmem
  · have hrange := (isAlphanum_iff c).mp halnum
    have hspace : isSpace c = false := by
      refine Bool.eq_false_iff.mpr fun hs => ?_
      have hblank := of_decide_eq_true hs
      omega
    have hmarks : c ∉ [',', '，', ';', '；'] := by
      intro hmem
      have hnone : ∀ d ∈ [',', '，', ';', '；'], d.isAlphanum = false :=
        forall_mem_of_all (by decide)
      exact Bool.false_ne_true ((hnone c hmem).symm.trans halnum)
    unfold openChar
    rw [hspace, decide_eq_false hmarks]
    rfl
  · have hall : ∀ d ∈ ['.', '_', '%', '+', '-'], openChar d = true := forall_mem_of_all (by decide)
    exact hall c (of_decide_eq_true hmem)

/-- An identifier begins with a digit. -/
theorem identifier_head {u : List Char}
    (h : IsPhone cc.toCharClasses u ∨ IsIdentity cc.toCharClasses u) :
    ∃ c v, u = c :: v ∧ cc.digit c = true := by
  rcases h with ⟨c, v, rfl, -⟩ | ⟨digits, c, rfl, hlength, hdigits, -⟩
  · exact ⟨'1', _, rfl, digit_one⟩
  · cases digits with
    | nil => cases hlength
    | cons d digits => exact ⟨d, _, rfl, hdigits d List.mem_cons_self⟩

/-- What is found begins with a character that may be behind a key. -/
theorem hit_head {prev : Option Char} {u rest : List Char}
    (h : Matches (materialSensitive cc.toCharClasses) prev u rest) :
    ∃ c v, u = c :: v ∧ openChar c = true := by
  rcases h with hid | hemail | hopen
  · obtain ⟨c, v, hu, hc⟩ := identifier_head (matches_sensitiveIdentifier.mp hid).2.1
    exact ⟨c, v, hu, openChar_of_digit hc⟩
  · obtain ⟨⟨c, v, hu, hc⟩, -⟩ := email_shape hemail
    exact ⟨c, v, hu, openChar_of_localChar hc⟩
  · obtain ⟨re, hre, v, w, rfl, hv, -⟩ := matches_openEnded.mp hopen
    obtain ⟨-, c, x, rfl, hc⟩ := (openHead_shape hre).2.2 hv
    exact ⟨c, _, rfl, hc⟩

theorem openEnded_endsIn : openEnded.EndsIn openChar := ⟨rfl, rfl, rfl⟩

theorem find?_pos_head? : ∀ {l : List Nat}, (∀ n ∈ l, 0 < n) → l.find? (0 < ·) = l.head?
  | [], _ => rfl
  | n :: _, h => List.find?_cons_of_pos (decide_eq_true (h n List.mem_cons_self))

/-- Behind what is replaced there is no digit, unless it ends in another
character. -/
theorem hit_last {prev : Option Char} {u rest : List Char}
    (h : first? (materialSensitive cc.toCharClasses) prev (u ++ rest) = some u.length) :
    rest.head?.any cc.digit = false ∨ (lastOf prev u).any cc.digit = false := by
  have hsame : ∀ {re : Re Char}, u.length ∈ lengths re prev (u ++ rest) → Matches re prev u rest := by
    intro re hmem
    obtain ⟨v, b, hsplit, hlength, hm⟩ := mem_lengths.mp hmem
    obtain ⟨rfl, rfl⟩ := List.append_inj hsplit hlength.symm
    exact hm
  unfold first? at h
  rw [show lengths (materialSensitive cc.toCharClasses) prev (u ++ rest)
    = lengths (sensitiveIdentifier cc.toCharClasses) prev (u ++ rest) ++
      (lengths emailAddress prev (u ++ rest) ++ lengths openEnded prev (u ++ rest)) from rfl,
    List.find?_append, List.find?_append] at h
  rcases Option.or_eq_some_iff.mp h with hid | ⟨-, h⟩
  · have hm := hsame (List.mem_of_find?_eq_some hid)
    exact Or.inl (matches_sensitiveIdentifier.mp hm).2.2
  rcases Option.or_eq_some_iff.mp h with hemail | ⟨-, hopen⟩
  · obtain ⟨-, -, v, c, rfl, hc⟩ := email_shape (hsame (List.mem_of_find?_eq_some hemail))
    refine Or.inr ?_
    rw [lastOf_concat]
    exact not_digit_of_isAlpha hc
  · -- such a match goes on as far as it can
    have hpos : ∀ n ∈ lengths openEnded prev (u ++ rest), 0 < n := by
      intro n hn
      obtain ⟨v, b, -, rfl, hm⟩ := mem_lengths.mp hn
      obtain ⟨c, w, rfl, -⟩ := @hit_head cc prev v b (Or.inr (Or.inr hm))
      exact Nat.succ_pos _
    rw [find?_pos_head? hpos] at hopen
    have hend := head_lengths_endsIn openEnded_endsIn hopen
    rw [List.drop_left] at hend
    refine Or.inl ?_
    cases rest with
    | nil => rfl
    | cons c rest =>
      refine Bool.eq_false_iff.mpr fun hd => ?_
      have hc : openChar c = false := hend
      rw [openChar_of_digit hd] at hc
      cases hc

/-! ## What is left -/

/-- What is shown as it was, between what stands around it in the content. -/
theorem kept_in_content {content : List Char} {before after : List (Piece Char)} {u : List Char}
    (h : shownPieces cc.toCharClasses content = before ++ (u.map .kept ++ after))
    (hne : u ≠ []) (hname : '我' ∉ u) : ∃ front behind,
      divide (materialSensitive cc.toCharClasses) none 0 content
        = front ++ (u.map .kept ++ (after ++ behind)) ∧
      (sourceOf behind).head?.any cc.digit = false ∧
      ((lastOf none (sourceOf front)).any cc.digit = false ∨
        ∃ pre pre' piece, before = pre ++ [piece] ∧ front = pre' ++ [piece]) := by
  obtain ⟨named, front, middle, behind, hdivide, hshown, hnamed, hfront, hbehind⟩ :=
    shownPieces_split cc content
  rw [hshown] at h
  -- the pieces before, without the one for a nickname
  have hrest : ∃ lead before', before = lead ++ before' ∧
      middle = before' ++ (u.map .kept ++ after) := by
    rcases hnamed with rfl | rfl
    · exact ⟨[], before, rfl, h⟩
    · cases before with
      | nil =>
        obtain ⟨c, v, rfl⟩ := List.exists_cons_of_ne_nil hne
        have hfirst : Piece.kept '我' = .kept c := (List.cons.inj h).1
        cases hfirst
        exact absurd List.mem_cons_self hname
      | cons piece before => exact ⟨[piece], before, rfl, (List.cons.inj h).2⟩
  obtain ⟨lead, before', rfl, hmiddle⟩ := hrest
  refine ⟨front ++ before', behind, ?_, hbehind, ?_⟩
  · rw [hdivide, hmiddle]
    simp only [List.append_assoc]
  · rcases List.eq_nil_or_concat before' with rfl | ⟨pre, piece, rfl⟩
    · rw [List.append_nil]
      exact Or.inl hfront
    · rw [List.concat_eq_append]
      exact Or.inr ⟨lead ++ pre, front ++ pre, piece, (List.append_assoc ..).symm,
        (List.append_assoc ..).symm⟩

/-- Where something was kept the expression finds nothing. -/
theorem not_matches_kept {content : List Char} {front after : List (Piece Char)}
    {u w b : List Char}
    (h : divide (materialSensitive cc.toCharClasses) none 0 content
      = front ++ (u.map .kept ++ after)) (hne : u ≠ []) (hw : u ++ sourceOf after = w ++ b)
    (hwne : w ≠ []) :
    ¬ Matches (materialSensitive cc.toCharClasses) (lastOf none (sourceOf front)) w b := by
  have hdivided := (divide_divided (materialSensitive cc.toCharClasses) content none 0).2
  rw [h] at hdivided
  have hsource : ∀ v : List Char, sourceOf (v.map Piece.kept) = v := by
    intro v
    induction v with
    | nil => rfl
    | cons c v ih => exact congrArg (c :: ·) ih
  cases u with
  | nil => exact absurd rfl hne
  | cons c u =>
    refine @Divided.not_matches _ _ front (u.map .kept ++ after) c none hdivided w b ?_ hwne
    rw [sourceOf_append, hsource]
    exact hw

theorem free_not_mem {u : List Char} (h : ∀ c ∈ u, Free c) : '[' ∉ u ∧ ']' ∉ u ∧ '我' ∉ u :=
  ⟨fun hmem => (h _ hmem).1 rfl, fun hmem => (h _ hmem).2.1 rfl, fun hmem => (h _ hmem).2.2 rfl⟩

/-- No address is left. -/
theorem not_shown_email {content a u b rest : List Char} {prev : Option Char}
    (h : shown (shownPieces cc.toCharClasses content) = a ++ (u ++ b)) :
    ¬ Matches emailAddress prev u rest := by
  intro hm
  obtain ⟨hopen, hclose, hname⟩ := free_not_mem (hm.within emailAddress_within)
  obtain ⟨⟨c, v, hu, -⟩, hsign, -⟩ := email_shape hm
  obtain ⟨before, after, hpieces, -, -⟩ :=
    kept_of_shown hopen hclose ⟨'@', hsign, by decide⟩ h
  have hne : u ≠ [] := by
    rw [hu]
    exact List.cons_ne_nil _ _
  obtain ⟨front, behind, hdivide, -⟩ := kept_in_content hpieces hne hname
  exact not_matches_kept hdivide hne rfl hne (Or.inr (Or.inl (hm.congr emailAddress_plain)))

/-- No link and no token is left. -/
theorem not_shown_openEnded {content a u b rest : List Char} {prev : Option Char}
    (h : shown (shownPieces cc.toCharClasses content) = a ++ (u ++ b)) :
    ¬ Matches openEnded prev u rest := by
  intro hm
  obtain ⟨re, hre, v, w, rfl, hv, hw⟩ := matches_openEnded.mp hm
  obtain ⟨hplain, hwithin, hshape⟩ := openHead_shape hre
  obtain ⟨hown, c, x, hvx, -⟩ := hshape hv
  obtain ⟨hopen, hclose, hname⟩ := free_not_mem (hv.within hwithin)
  obtain ⟨hlength, hall⟩ := matches_atLeast.mp hw
  cases w with
  | nil => cases hlength
  | cons d w =>
  rw [List.append_assoc] at h
  obtain ⟨before, after, hpieces, -, hafter⟩ := kept_of_shown hopen hclose hown h
  have hne : v ≠ [] := by
    rw [hvx]
    exact List.cons_ne_nil _ _
  obtain ⟨front, behind, hdivide, -⟩ := kept_in_content hpieces hne hname
  have hdivided := (divide_divided (materialSensitive cc.toCharClasses) content none 0).2
  rw [hdivide] at hdivided
  -- what follows in the content may be behind a key as well
  have hnext : ∃ e y, sourceOf (after ++ behind) = e :: y ∧ openChar e = true := by
    cases after with
    | nil => cases hafter
    | cons piece after =>
      cases piece with
      | kept e =>
        have he : e = d := (List.cons.inj hafter).1
        exact ⟨e, _, rfl, he ▸ hall d List.mem_cons_self⟩
      | hit text =>
        have hhit := hdivided.append.append
        obtain ⟨e, y, rfl, he⟩ := hit_head hhit.2.1
        exact ⟨e, _, rfl, he⟩
  obtain ⟨e, y, hsource, he⟩ := hnext
  refine @not_matches_kept cc content front (after ++ behind) v (v ++ [e]) y hdivide hne ?_
    (by simp) ?_
  · rw [hsource, List.append_assoc]
    rfl
  · refine Or.inr (Or.inr (matches_openEnded.mpr ⟨re, hre, v, [e], rfl, hv.congr hplain, ?_⟩))
    refine matches_atLeast.mpr ⟨Nat.le_refl 1, fun f hf => ?_⟩
    rw [List.mem_singleton.mp hf]
    exact he

theorem identifier_chars {u : List Char}
    (h : IsPhone cc.toCharClasses u ∨ IsIdentity cc.toCharClasses u) :
    ∀ c ∈ u, cc.digit c = true ∨ c = 'X' ∨ c = 'x' := by
  intro c hc
  rcases h with hphone | ⟨digits, last, rfl, -, hdigits, hlast⟩
  · exact Or.inl (hphone.digits.2 c hc)
  · rcases List.mem_append.mp hc with hd | hend
    · exact Or.inl (hdigits c hd)
    · rw [List.mem_singleton.mp hend]
      unfold checkDigit at hlast
      rw [Bool.or_eq_true, Bool.or_eq_true, or_assoc] at hlast
      exact hlast.imp_right (Or.imp of_decide_eq_true of_decide_eq_true)

theorem identifier_free {u : List Char}
    (h : IsPhone cc.toCharClasses u ∨ IsIdentity cc.toCharClasses u) : ∀ c ∈ u, Free c := by
  have hascii : ∀ d : Char, d.toNat < 128 → d.isDigit = false → cc.digit d = false := by
    intro d hd hno
    rw [cc.digit_ascii d hd, hno]
  have hfree : ∀ d : Char, cc.digit d = false → d ≠ 'X' → d ≠ 'x' → ∀ c ∈ u, c ≠ d := by
    rintro d hd hbig hsmall c hc rfl
    rcases identifier_chars h c hc with hdigit | hx | hx
    · exact Bool.false_ne_true (hd.symm.trans hdigit)
    · exact hbig hx
    · exact hsmall hx
  exact fun c hc => ⟨hfree '[' (hascii _ (by decide) (by decide)) (by decide) (by decide) c hc,
    hfree ']' (hascii _ (by decide) (by decide)) (by decide) (by decide) c hc,
    hfree '我' (cc.cjk _ (by decide) (by decide)).1 (by decide) (by decide) c hc⟩

theorem digit_not_mem_redacted {c : Char} (h : cc.digit c = true) : c ∉ redactedText := by
  have hall : ∀ d ∈ redactedText, d.toNat < 128 ∧ d.isDigit = false :=
    forall_mem_of_all (by decide)
  intro hmem
  rw [cc.digit_ascii c (hall c hmem).1, (hall c hmem).2] at h
  cases h

/-- An identifier that is shown, and not behind a digit, has a digit behind it
in the content. -/
theorem shown_identifier {content a u b : List Char}
    (h : shown (shownPieces cc.toCharClasses content) = a ++ (u ++ b))
    (hid : IsPhone cc.toCharClasses u ∨ IsIdentity cc.toCharClasses u)
    (hlast : (lastOf none a).any cc.digit = false) : ∃ before after,
      shownPieces cc.toCharClasses content = before ++ (u.map .kept ++ after) ∧
      shown before = a ∧ shown after = b ∧ (∀ text more, after = .hit text :: more → text ≠ []) ∧
      (sourceOf after).head?.any cc.digit = true := by
  obtain ⟨hopen, hclose, hname⟩ := free_not_mem (identifier_free hid)
  obtain ⟨c, v, hu, hc⟩ := identifier_head hid
  have hne : u ≠ [] := by
    rw [hu]
    exact List.cons_ne_nil _ _
  obtain ⟨before, after, hpieces, rfl, hafter⟩ := kept_of_shown hopen hclose
    ⟨c, hu ▸ List.mem_cons_self, digit_not_mem_redacted hc⟩ h
  obtain ⟨front, behind, hdivide, hbehind, hedge⟩ := kept_in_content hpieces hne hname
  have hdivided := (divide_divided (materialSensitive cc.toCharClasses) content none 0).2
  have hpreferred := divide_preferred (materialSensitive cc.toCharClasses) content none 0
  rw [hdivide] at hdivided hpreferred
  -- the character before it in the content is no digit either
  have hprev : (lastOf none (sourceOf front)).any cc.digit = false := by
    rcases hedge with hprev | ⟨pre, pre', piece, rfl, rfl⟩
    · exact hprev
    · cases piece with
      | kept d =>
        have hshown : shown (pre ++ [.kept d]) = shown pre ++ [d] := List.flatMap_append
        rw [hshown, lastOf_concat] at hlast
        rw [sourceOf_append]
        show (lastOf none (sourceOf pre' ++ [d])).any cc.digit = false
        rw [lastOf_concat]
        exact hlast
      | hit text =>
        rw [List.append_assoc] at hpreferred
        have hhit := hpreferred.append.1
        rcases hit_last hhit with hnext | hend
        · rw [hu] at hnext
          exact absurd (hnext.symm.trans hc) Bool.false_ne_true
        · rw [sourceOf_append, lastOf_append]
          show (lastOf (lastOf none (sourceOf pre')) (text ++ [])).any cc.digit = false
          rw [List.append_nil]
          exact hend
  have hdigit : (sourceOf (after ++ behind)).head?.any cc.digit = true := by
    cases hnext : (sourceOf (after ++ behind)).head?.any cc.digit with
    | true => rfl
    | false =>
      have hm : Matches (materialSensitive cc.toCharClasses) (lastOf none (sourceOf front)) u
          (sourceOf (after ++ behind)) :=
        Or.inl (matches_sensitiveIdentifier.mpr ⟨hprev, hid, hnext⟩)
      exact absurd hm (not_matches_kept hdivide hne rfl hne)
  have hfull : ∀ text more, after = .hit text :: more → text ≠ [] := by
    rintro text more rfl
    exact hdivided.append.append.1
  refine ⟨before, after, hpieces, rfl, hafter, hfull, ?_⟩
  cases after with
  | nil =>
    rw [List.nil_append] at hdigit
    exact absurd (hbehind.symm.trans hdigit) Bool.false_ne_true
  | cons piece after =>
    cases piece with
    | kept d => exact hdigit
    | hit text =>
      cases text with
      | nil => exact absurd rfl (hfull [] after rfl)
      | cons d text => exact hdigit

end

/-- Among the pieces of a text that is cut behind `n` characters there is a
phone or identity number, not behind a digit, and the digit behind it goes: it
is cut off, or it begins what is replaced. -/
def NumberFreed (cc : CharClasses) (n : Nat) (pieces : List (Piece Char)) : Prop :=
  ∃ before u after, pieces = before ++ (u.map .kept ++ after) ∧
    (IsPhone cc u ∨ IsIdentity cc u) ∧ (lastOf none (shown before)).any cc.digit = false ∧
    ((∃ d more, after = .kept d :: more ∧ cc.digit d = true ∧
        (shown before).length + u.length = n) ∨
      ∃ d text more, after = .hit (d :: text) :: more ∧ cc.digit d = true ∧
        (shown before).length + u.length ≤ n)

/-- A key in front of the placeholder. -/
def KeyOfRedacted (u : List Char) : Prop :=
  ∃ key, u = key ++ redactedText ∧ Matches tokenKey none key []

section

variable {cc : TextClasses}

/-- What the expression finds in a cut text is a number of this kind. -/
theorem freed_of_match {content a u b : List Char} {n : Nat}
    (h : (shown (shownPieces cc.toCharClasses content)).take n = a ++ (u ++ b))
    (hm : Matches (materialSensitive cc.toCharClasses) (lastOf none a) u b) :
    NumberFreed cc.toCharClasses n (shownPieces cc.toCharClasses content) := by
  have hall : shown (shownPieces cc.toCharClasses content)
      = a ++ (u ++ (b ++ (shown (shownPieces cc.toCharClasses content)).drop n)) := by
    have hsplit := List.take_append_drop n (shown (shownPieces cc.toCharClasses content))
    rw [h, List.append_assoc, List.append_assoc] at hsplit
    exact hsplit.symm
  rcases hm with hid | hemail | hopen
  · obtain ⟨hlast, hid, hnext⟩ := matches_sensitiveIdentifier.mp hid
    obtain ⟨before, after, hpieces, hbefore, hafter, hfull, hdigit⟩ :=
      shown_identifier hall hid hlast
    have hlength := congrArg List.length h
    rw [List.length_take, List.length_append, List.length_append] at hlength
    have htotal := congrArg List.length hall
    rw [List.length_append, List.length_append, List.length_append, List.length_drop] at htotal
    rw [← hbefore] at hlast hlength htotal
    refine ⟨before, u, after, hpieces, hid, hlast, ?_⟩
    cases after with
    | nil => cases hdigit
    | cons piece after =>
      cases piece with
      | kept d =>
        -- it is not shown, so the cut is in front of it
        have hcut : b = [] := by
          cases b with
          | nil => rfl
          | cons e b =>
            have he : d = e := (List.cons.inj hafter).1
            rw [← he] at hnext
            exact absurd (hnext.symm.trans hdigit) Bool.false_ne_true
        rw [hcut] at hlength htotal hafter
        have hleft := congrArg List.length hafter
        rw [shown, render_kept, List.length_cons, List.nil_append, List.length_drop] at hleft
        rw [List.length_nil] at hlength
        refine Or.inl ⟨d, after, rfl, hdigit, ?_⟩
        omega
      | hit text =>
        cases text with
        | nil => exact absurd rfl (hfull [] after rfl)
        | cons d text =>
          refine Or.inr ⟨d, text, after, rfl, hdigit, ?_⟩
          omega
  · exact absurd hemail (not_shown_email hall)
  · exact absurd hopen (not_shown_openEnded hall)

/-- A number of this kind is found in the cut text. -/
theorem match_of_freed {content : List Char} {n : Nat}
    (h : NumberFreed cc.toCharClasses n (shownPieces cc.toCharClasses content)) : ∃ a u b,
      (shown (shownPieces cc.toCharClasses content)).take n = a ++ (u ++ b) ∧
      Matches (materialSensitive cc.toCharClasses) (lastOf none a) u b ∧ '[' ∉ u := by
  obtain ⟨before, u, after, hpieces, hid, hlast, hafter⟩ := h
  have hkept : ∀ v : List Char, shown (v.map Piece.kept) = v := by
    intro v
    induction v with
    | nil => rfl
    | cons c v ih => exact congrArg (c :: ·) ih
  have hall : shown (shownPieces cc.toCharClasses content) = shown before ++ (u ++ shown after) := by
    have hsplit : shown (before ++ (u.map .kept ++ after))
        = shown before ++ (shown (u.map .kept) ++ shown after) := by
      unfold shown
      rw [List.flatMap_append, List.flatMap_append]
    rw [hpieces, hsplit, hkept]
  have hfits : (shown before).length + u.length ≤ n := by
    rcases hafter with ⟨-, -, -, -, hn⟩ | ⟨-, -, -, -, -, hn⟩
    · exact Nat.le_of_eq hn
    · exact hn
  have hend : ((shown after).take (n - ((shown before).length + u.length))).head?.any cc.digit
      = false := by
    rcases hafter with ⟨d, more, rfl, -, hn⟩ | ⟨d, text, more, rfl, -, -⟩
    · rw [hn, Nat.sub_self]
      rfl
    · cases n - ((shown before).length + u.length) with
      | zero => rfl
      | succ k => exact cc.digit_ascii '[' (by decide)
  refine ⟨shown before, u, (shown after).take (n - ((shown before).length + u.length)), ?_,
    Or.inl (matches_sensitiveIdentifier.mpr ⟨hlast, hid, hend⟩),
    (free_not_mem (identifier_free hid)).1⟩
  rw [hall, ← List.append_assoc, List.take_append, List.take_of_length_le (by
    rw [List.length_append]
    exact hfits), List.length_append, List.append_assoc]

end

/-- **What the text of a material still has.** Whatever the content and the
limit, the expression finds nothing in it but a key in front of the
placeholder, exactly if no number is freed of the digit behind it. -/
theorem material_summary_clean_iff (cc : TextClasses) (content : String) (limit : Int) :
    (∀ a u b, (materialSummary cc.toCharClasses content limit).toList = a ++ (u ++ b) →
        Matches (materialSensitive cc.toCharClasses) (lastOf none a) u b → KeyOfRedacted u) ↔
      ¬ NumberFreed cc.toCharClasses
        (sliceEnd limit (shown (shownPieces cc.toCharClasses content.toList)).length)
        (shownPieces cc.toCharClasses content.toList) := by
  have hsummary : (materialSummary cc.toCharClasses content limit).toList
      = (shown (shownPieces cc.toCharClasses content.toList)).take
        (sliceEnd limit (shown (shownPieces cc.toCharClasses content.toList)).length) := by
    unfold materialSummary firstChars
    dsimp only
    rw [String.toList_ofList, ← String.length_toList, toList_stripped]
  rw [hsummary]
  constructor
  · intro hclean hfreed
    obtain ⟨a, u, b, hsplit, hm, hopen⟩ := match_of_freed hfreed
    obtain ⟨key, rfl, -⟩ := hclean a u b hsplit hm
    exact hopen (List.mem_append_right _ (by decide))
  · intro hfree a u b hsplit hm
    exact absurd (freed_of_match hsplit hm) hfree

/-- Twelve digits, cut behind the eleventh. -/
theorem number_cut_free : ¬ ∀ a u b,
    (materialSummary plainClasses.toCharClasses "139123456789" 11).toList = a ++ (u ++ b) →
      Matches (materialSensitive plainClasses.toCharClasses) (lastOf none a) u b →
      KeyOfRedacted u := by
  intro hclean
  have hsummary : (materialSummary plainClasses.toCharClasses "139123456789" 11).toList
      = [] ++ ("13912345678".toList ++ []) := by decide +kernel
  have hphone : IsPhone plainClasses.toCharClasses "13912345678".toList :=
    ⟨'3', "912345678".toList, rfl, by decide, by decide, forall_mem_of_all (by decide)⟩
  obtain ⟨key, hkey, -⟩ := hclean [] _ [] hsummary
    (Or.inl (matches_sensitiveIdentifier.mpr ⟨rfl, Or.inl hphone, rfl⟩))
  have hopen : '[' ∈ "13912345678".toList := by
    rw [hkey]
    exact List.mem_append_right _ (by decide)
  revert hopen
  decide

end AgentRuntime
