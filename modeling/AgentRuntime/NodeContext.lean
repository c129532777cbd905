import AgentRuntime.TextPatterns
import AgentRuntime.MemoirRequest
import Mathlib.Data.List.Sort
import Mathlib.Data.List.TakeWhile

/-!
# The context of a node

`ContextManager.build_node_context` replaces the numbers in the texts of the
materials, and cuts what is left to the characters of the budget. A number is
replaced where it is a word by itself, so the words decide what is shown
(`redactFrom_append`): six digits in a word that has another character as
well stay, as far as the budget lets them through
(`nodeContext_clean_iff`).

Mirroring notes:
- An item that is not an object, or lacks a text, is skipped before anything
  is counted, so the loops run over the items that are left.
-/

namespace AgentRuntime

open Regex

namespace ContextManager

section

variable (cc : CharClasses)

/-- `_SENSITIVE.sub`, from a place in a text. -/
def redactFrom (prev : Option Char) (s : List Char) : List Char :=
  (divide (contextSensitive cc) prev 0 s).flatMap (Piece.render redactedText)

/-- `_SENSITIVE.subn`. -/
def redactNumbers (text : String) : String × Nat :=
  (String.ofList (redactFrom cc none text.toList),
    ((divide (contextSensitive cc) none 0 text.toList).filter fun
      | .hit _ => true
      | .kept _ => false).length)

end

/-- An item of `materials` that is not skipped. -/
def contextMaterial : Json → Option Material
  | .obj item => do
    let ref ← (Json.get? "source_ref" item).bind Json.str?
    let text ← (Json.get? "text" item).bind Json.str?
    if ref = "" then none else some (ref, text)
  | _ => none

/-- An item of `tool_results` that is not skipped. -/
def contextToolResult : Json → Option (String × List (String × Json))
  | .obj item => do
    let ref ← (Json.get? "source_ref" item).bind Json.str?
    if ref = "" then none else some (ref, item)
  | _ => none

/-- The order of `sorted`, by code points. -/
def codePointsLe : List Char → List Char → Bool
  | [], _ => true
  | _ :: _, [] => false
  | c :: s, d :: t => decide (c.toNat < d.toNat) || (decide (c = d) && codePointsLe s t)

/-- The names of the keys and the size, and nothing else of a tool result. -/
def toolSummary (item : List (String × Json)) : String :=
  let keys := ((item.map Prod.fst).insertionSort
    (fun a b => codePointsLe a.toList b.toList = true)).take 8
  "keys:" ++ ",".intercalate keys ++ ";items:" ++ toString item.length

/-- A text that may come into the context, and how many numbers were found. -/
structure ContextEntry where
  sourceRef : String
  text : String
  redacted : Nat

/-- The entry of a material. -/
def materialEntryOf (cc : CharClasses) (material : Material) : ContextEntry :=
  let (clean, count) := redactNumbers cc material.2
  ⟨material.1, clean, count⟩

/-- The entry of a tool result. -/
def toolEntryOf (cc : CharClasses) (result : String × List (String × Json)) : ContextEntry :=
  let count := match Json.get? "text" result.2 with
    | some (.str text) => (redactNumbers cc text).2
    | _ => 0
  ⟨result.1, toolSummary result.2, count⟩

/-- What one of the loops has put into the context. -/
structure Filled where
  items : List Material := []
  redacted : Nat := 0
  remaining : Nat

/-- The loop over the materials, and the one over the tool results. -/
def fillEntries : (remaining : Nat) → List ContextEntry → Filled
  | remaining, [] => { remaining := remaining }
  | remaining, entry :: entries =>
    if remaining = 0 then { redacted := entry.redacted, remaining := remaining }
    else
      let content := firstChars remaining entry.text
      let rest := fillEntries (remaining - content.length) entries
      { rest with
        items := (entry.sourceRef, content) :: rest.items
        redacted := entry.redacted + rest.redacted }

/-- `NodeContext`. -/
structure NodeContext where
  trustedInstructions : String
  untrustedItems : List Material
  tokenBudget : Nat
  sourceRefs : List String
  redactedFields : Nat
  itemCount : Nat

/-- `build_node_context`. -/
def nodeContext (cc : CharClasses) (trustedInstructions : String)
    (materials toolResults : List Json) (tokenBudget : Int) : Except String NodeContext :=
  if trustedInstructions = "" then .error "trusted_instructions 不能为空"
  else if tokenBudget ≤ 0 then .error "token_budget 必须为正整数"
  else
    let first := fillEntries (tokenBudget.toNat * 4)
      ((materials.filterMap contextMaterial).map (materialEntryOf cc))
    let second := fillEntries first.remaining
      ((toolResults.filterMap contextToolResult).map (toolEntryOf cc))
    let items := first.items ++ second.items
    .ok {
      trustedInstructions := trustedInstructions
      untrustedItems := items
      tokenBudget := tokenBudget.toNat
      sourceRefs := (items.map Prod.fst).eraseDups
      redactedFields := first.redacted + second.redacted
      itemCount := items.length }

/-! ## Words -/

section

variable {cc : CharClasses}

theorem not_digit_of_not_word {c : Char} (h : cc.word c = false) : cc.digit c = false := by
  refine Bool.eq_false_iff.mpr fun hd => ?_
  rw [cc.digit_word c hd] at h
  cases h

/-- At a character outside the words no number begins. -/
theorem noMatch_of_not_word {prev : Option Char} {c : Char} {s : List Char}
    (h : cc.word c = false) : NoMatch (contextSensitive cc) prev (c :: s) := by
  intro u b hs hm
  obtain ⟨⟨-, hdigits⟩, -, -⟩ := matches_contextSensitive.mp hm
  cases u with
  | nil => rfl
  | cons d u =>
    cases hs
    have hd := hdigits c List.mem_cons_self
    rw [not_digit_of_not_word h] at hd
    cases hd

/-- Within a word none begins. -/
theorem noMatch_after_word {prev : Option Char} {s : List Char}
    (h : prev.any cc.word = true) : NoMatch (contextSensitive cc) prev s := by
  intro u b hs hm
  have hprev := (matches_contextSensitive.mp hm).2.1
  rw [h] at hprev
  cases hprev

/-- A text of word characters that ends where `u` does is `u`. -/
theorem word_unique {u v b s : List Char} (hu : ∀ c ∈ u, cc.word c = true)
    (hv : ∀ c ∈ v, cc.word c = true) (hs : s.head?.any cc.word = false)
    (hb : b.head?.any cc.word = false) (h : u ++ s = v ++ b) : v = u := by
  have htake : ∀ {x t : List Char}, (∀ c ∈ x, cc.word c = true) → t.head?.any cc.word = false →
      (x ++ t).takeWhile cc.word = x := by
    intro x t hx ht
    rw [List.takeWhile_append_of_pos hx]
    cases t with
    | nil => simp
    | cons c t => rw [List.takeWhile_cons_of_neg (by simpa using ht), List.append_nil]
  rw [← htake hv hb, ← h, htake hu hs]

/-- A word that is a number. -/
def IsNumber (cc : CharClasses) (word : List Char) : Prop :=
  6 ≤ word.length ∧ ∀ c ∈ word, cc.digit c = true

instance (cc : CharClasses) (word : List Char) : Decidable (IsNumber cc word) :=
  decidable_of_iff (6 ≤ word.length ∧ word.all cc.digit = true)
    (and_congr_right fun _ => List.all_eq_true)

/-- What is shown of a word. -/
def shownWord (cc : CharClasses) (word : List Char) : List Char :=
  if IsNumber cc word then redactedText else word

theorem redactFrom_cons {prev : Option Char} {c : Char} {s : List Char}
    (h : NoMatch (contextSensitive cc) prev (c :: s)) :
    redactFrom cc prev (c :: s) = c :: redactFrom cc (some c) s := by
  unfold redactFrom
  rw [divide_kept h]
  rfl

/-- What follows a character of a word stays up to the end of the word. -/
theorem redactFrom_in_word : ∀ {word : List Char} {prev : Option Char} (s : List Char),
    prev.any cc.word = true → (∀ c ∈ word, cc.word c = true) →
    redactFrom cc prev (word ++ s) = word ++ redactFrom cc (lastOf prev word) s
  | [], _, _, _, _ => rfl
  | c :: word, prev, s, hprev, hword => by
    obtain ⟨hc, hword⟩ := List.forall_mem_cons.mp hword
    rw [List.cons_append, redactFrom_cons (noMatch_after_word hprev), lastOf_cons]
    exact congrArg (c :: ·) (redactFrom_in_word s hc hword)

/-- A word is replaced as a whole or not at all. -/
theorem redactFrom_word {word : List Char} {prev : Option Char} {s : List Char}
    (hne : word ≠ []) (hword : ∀ c ∈ word, cc.word c = true)
    (hprev : prev.any cc.word = false) (hs : s.head?.any cc.word = false) :
    redactFrom cc prev (word ++ s)
      = shownWord cc word ++ redactFrom cc (lastOf prev word) s := by
  have hunique : ∀ v b, word ++ s = v ++ b → Matches (contextSensitive cc) prev v b →
      v = word ∧ IsNumber cc word := by
    intro v b h hm
    obtain ⟨hnumber, -, hb⟩ := matches_contextSensitive.mp hm
    have hsame := word_unique hword (fun c hc => cc.digit_word c (hnumber.2 c hc)) hs hb h
    exact ⟨hsame, hsame ▸ hnumber⟩
  unfold shownWord
  by_cases hnumber : IsNumber cc word
  · rw [if_pos hnumber]
    unfold redactFrom
    rw [divide_hit hne (matches_contextSensitive.mpr ⟨hnumber, hprev, hs⟩)
      fun v b h hm => Or.inr (hunique v b h hm).1]
    rfl
  · rw [if_neg hnumber]
    obtain ⟨c, word, rfl⟩ := List.exists_cons_of_ne_nil hne
    obtain ⟨hc, hrest⟩ := List.forall_mem_cons.mp hword
    have hno : NoMatch (contextSensitive cc) prev (c :: (word ++ s)) := by
      intro v b h hm
      exact absurd (hunique v b h hm).2 hnumber
    rw [List.cons_append, redactFrom_cons hno, lastOf_cons]
    exact congrArg (c :: ·) (redactFrom_in_word s hc hrest)

/-- The first word of a text, and the rest. -/
theorem word_split (cc : CharClasses) (s : List Char) : ∃ word rest, s = word ++ rest ∧
    (∀ c ∈ word, cc.word c = true) ∧ rest.head?.any cc.word = false := by
  refine ⟨s.takeWhile cc.word, s.dropWhile cc.word, (List.takeWhile_append_dropWhile).symm,
    fun c hc => List.mem_takeWhile_imp hc, ?_⟩
  cases h : s.dropWhile cc.word with
  | nil => rfl
  | cons c rest =>
    have hc := List.head?_dropWhile_not cc.word s
    rw [h] at hc
    simpa using hc

/-- At the edge of a word a text can be taken apart. -/
theorem redactFrom_append : ∀ (n : Nat) {s : List Char}, s.length ≤ n → ∀ {prev : Option Char}
    {t : List Char}, prev.any cc.word = false ∨ s.head?.any cc.word = false →
    (lastOf prev s).any cc.word = false ∨ t.head?.any cc.word = false →
    redactFrom cc prev (s ++ t) = redactFrom cc prev s ++ redactFrom cc (lastOf prev s) t := by
  intro n
  induction n with
  | zero =>
    intro s hs prev t _ _
    rw [List.length_eq_zero_iff.mp (Nat.le_zero.mp hs)]
    rfl
  | succ n ih =>
    intro s hs prev t hstart hend
    cases s with
    | nil => rfl
    | cons c s =>
      by_cases hc : cc.word c = true
      · -- a word, and what is behind it
        have hprev : prev.any cc.word = false := by
          rcases hstart with hprev | hhead
          · exact hprev
          · rw [show (c :: s).head?.any cc.word = cc.word c from rfl, hc] at hhead
            cases hhead
        obtain ⟨word, rest, hsplit, hword, hrest⟩ := word_split cc (c :: s)
        have hne : word ≠ [] := by
          rintro rfl
          rw [List.nil_append] at hsplit
          rw [← hsplit, show (c :: s).head?.any cc.word = cc.word c from rfl, hc] at hrest
          cases hrest
        have hlong : rest.length ≤ n := by
          have hlength := congrArg List.length hsplit
          have hpos := List.length_pos_of_ne_nil hne
          rw [List.length_append] at hlength
          omega
        rw [hsplit] at hend ⊢
        rw [lastOf_append] at hend ⊢
        have hafter : (rest ++ t).head?.any cc.word = false := by
          cases rest with
          | cons d rest => exact hrest
          | nil =>
            rcases hend with hlast | ht
            · -- the word ends in a word character
              obtain ⟨last, front, hfront⟩ := List.exists_cons_of_ne_nil
                (List.reverse_ne_nil_iff.mpr hne)
              have hword' : word = front.reverse ++ [last] := by
                rw [← List.reverse_cons, ← hfront, List.reverse_reverse]
              rw [lastOf_nil, hword', lastOf_concat] at hlast
              have hlast' := hword last (hword' ▸ List.mem_append_right _ List.mem_cons_self)
              rw [show (some last).any cc.word = cc.word last from rfl, hlast'] at hlast
              cases hlast
            · exact ht
        rw [List.append_assoc, redactFrom_word hne hword hprev hafter,
          redactFrom_word hne hword hprev hrest, ih hlong (Or.inr hrest) hend, List.append_assoc]
      · have hc : cc.word c = false := Bool.eq_false_iff.mpr hc
        have hprev : (some c).any cc.word = false := hc
        rw [List.cons_append, redactFrom_cons (noMatch_of_not_word hc),
          redactFrom_cons (noMatch_of_not_word hc), lastOf_cons,
          ih (Nat.le_of_succ_le_succ hs) (Or.inl hprev) (by rw [← lastOf_cons]; exact hend)]
        rfl

/-! ## What is left of a number -/

/-- Six digits in a row. -/
def digitRun : Re Char := .atLeast Char.isDigit 6

/-- A word of `s` that is no number has six digits in a row among those of its
characters that come within the first `n` that are shown. -/
def ExposedFrom (cc : CharClasses) (prev : Option Char) (n : Nat) (s : List Char) : Prop :=
  ∃ before word after, s = before ++ (word ++ after) ∧
    (lastOf prev before).any cc.word = false ∧ after.head?.any cc.word = false ∧
    (∀ c ∈ word, cc.word c = true) ∧ (∃ c ∈ word, cc.digit c = false) ∧
    Occurs digitRun none (word.take (n - (redactFrom cc prev before).length))

theorem digit_of_isDigit {c : Char} (h : c.isDigit = true) : cc.digit c = true := by
  have hrange := (isDigit_iff c).mp h
  rw [cc.digit_ascii c (by omega)]
  exact h

theorem isDigit_of_not_word {c : Char} (h : cc.word c = false) : c.isDigit = false := by
  refine Bool.eq_false_iff.mpr fun hd => ?_
  have hdigit := not_digit_of_not_word h
  rw [digit_of_isDigit hd] at hdigit
  cases hdigit

theorem not_occurs_of_length {s : List Char} (h : s.length < 6) {prev : Option Char} :
    ¬ Occurs digitRun prev s := by
  intro hrun
  obtain ⟨a, u, b, rfl, hlength, -⟩ := occurs_atLeast.mp hrun
  rw [List.length_append, List.length_append] at h
  omega

/-- The placeholder has no digits. -/
theorem not_occurs_redacted (n : Nat) : ¬ Occurs digitRun none (redactedText.take n) := by
  intro hrun
  obtain ⟨a, u, b, hs, hlength, hu⟩ := occurs_atLeast.mp hrun
  have hmem : ∀ c ∈ redactedText, c.isDigit = false := forall_mem_of_all (by decide)
  cases u with
  | nil => cases hlength
  | cons c u =>
    have hc : c ∈ redactedText.take n := by
      rw [hs]
      simp
    have hno := hmem c (List.mem_of_mem_take hc)
    rw [hu c List.mem_cons_self] at hno
    cases hno

/-- What is shown behind the edge of a word starts with what stands there. -/
theorem head_redactFrom {prev : Option Char} {s : List Char}
    (h : s.head?.any cc.word = false) :
    (redactFrom cc prev s).head?.any Char.isDigit = false := by
  cases s with
  | nil => rfl
  | cons c s =>
    have hc : cc.word c = false := h
    rw [redactFrom_cons (noMatch_of_not_word hc)]
    exact isDigit_of_not_word hc

theorem head_take {s : List Char} {p : Char → Bool} (h : s.head?.any p = false) (n : Nat) :
    (s.take n).head?.any p = false := by
  cases n with
  | zero => rfl
  | succ n =>
    cases s with
    | nil => rfl
    | cons c s => exact h

theorem exposed_of_occurs : ∀ (n : Nat) {s : List Char}, s.length ≤ n → ∀ {prev : Option Char}
    {k : Nat}, prev.any cc.word = false ∨ s.head?.any cc.word = false →
    Occurs digitRun none ((redactFrom cc prev s).take k) → ExposedFrom cc prev k s := by
  intro n
  induction n with
  | zero =>
    intro s hs prev k _ hrun
    rw [List.length_eq_zero_iff.mp (Nat.le_zero.mp hs)] at hrun
    exact absurd hrun (not_occurs_of_length (by simp [redactFrom, divide]))
  | succ n ih =>
    intro s hs prev k hstart hrun
    cases s with
    | nil => exact absurd hrun (not_occurs_of_length (by simp [redactFrom, divide]))
    | cons c s =>
      by_cases hc : cc.word c = true
      · have hprev : prev.any cc.word = false := by
          rcases hstart with hprev | hhead
          · exact hprev
          · rw [show (c :: s).head?.any cc.word = cc.word c from rfl, hc] at hhead
            cases hhead
        obtain ⟨word, rest, hsplit, hword, hrest⟩ := word_split cc (c :: s)
        have hne : word ≠ [] := by
          rintro rfl
          rw [List.nil_append] at hsplit
          rw [← hsplit, show (c :: s).head?.any cc.word = cc.word c from rfl, hc] at hrest
          cases hrest
        have hlong : rest.length ≤ n := by
          have hlength := congrArg List.length hsplit
          have hpos := List.length_pos_of_ne_nil hne
          rw [List.length_append] at hlength
          omega
        rw [hsplit, redactFrom_word hne hword hprev hrest, List.take_append] at hrun
        rcases occurs_append (Or.inr (head_take (head_redactFrom hrest) _)) hrun with hin | hbehind
        · -- the run is in the word, which is then no number
          unfold shownWord at hin
          split at hin
          · exact absurd hin (not_occurs_redacted k)
          next hnumber =>
            refine ⟨[], word, rest, hsplit, hprev, hrest, hword, ?_, hin⟩
            by_contra hall
            apply hnumber
            refine ⟨?_, fun d hd => ?_⟩
            · by_contra hshort
              refine not_occurs_of_length ?_ hin
              exact Nat.lt_of_le_of_lt (List.length_take_le' k word) (Nat.not_le.mp hshort)
            · by_contra hd'
              exact hall ⟨d, hd, Bool.eq_false_iff.mpr hd'⟩
        · obtain ⟨before, word', after, rfl, hlast, hafter, hword', hother, hrun'⟩ :=
            ih hlong (Or.inr hrest) hbehind
          have hbefore : before.head?.any cc.word = false := by
            cases before with
            | nil => rfl
            | cons d before => exact hrest
          refine ⟨word ++ before, word', after, ?_, ?_, hafter, hword', hother, ?_⟩
          · rw [hsplit, List.append_assoc]
          · rw [lastOf_append]
            exact hlast
          · rw [redactFrom_word hne hword hprev hbefore, List.length_append, Nat.sub_add_eq]
            exact hrun'
      · have hc : cc.word c = false := Bool.eq_false_iff.mpr hc
        have hprev : (some c).any cc.word = false := hc
        rw [redactFrom_cons (noMatch_of_not_word hc)] at hrun
        cases k with
        | zero => exact absurd hrun (not_occurs_of_length (by simp))
        | succ k =>
          have hlast : [c].getLast?.any Char.isDigit = false := isDigit_of_not_word hc
          rcases occurs_append (Or.inl hlast) hrun with hin | hbehind
          · exact absurd hin (not_occurs_of_length (by simp))
          · obtain ⟨before, word, after, rfl, hlast, hafter, hword, hother, hrun'⟩ :=
              ih (Nat.le_of_succ_le_succ hs) (Or.inl hprev) hbehind
            refine ⟨c :: before, word, after, rfl, ?_, hafter, hword, hother, ?_⟩
            · rw [lastOf_cons]
              exact hlast
            · rw [redactFrom_cons (noMatch_of_not_word hc), List.length_cons, Nat.add_sub_add_right]
              exact hrun'

theorem occurs_of_exposed {prev : Option Char} {s : List Char} {n : Nat}
    (hprev : prev.any cc.word = false) (h : ExposedFrom cc prev n s) :
    Occurs digitRun none ((redactFrom cc prev s).take n) := by
  obtain ⟨before, word, after, rfl, hlast, hafter, hword, ⟨c, hc, hother⟩, hrun⟩ := h
  have hne : word ≠ [] := List.ne_nil_of_mem hc
  have hshown : shownWord cc word = word := by
    refine if_neg fun hnumber => ?_
    rw [hnumber.2 c hc] at hother
    cases hother
  rw [redactFrom_append _ (Nat.le_refl _) (Or.inl hprev) (Or.inl hlast),
    redactFrom_word hne hword hlast hafter, hshown, List.take_append, List.take_append]
  have hinfix := occurs_of_infix hrun none
    ((redactFrom cc prev before).take n)
    ((redactFrom cc (lastOf (lastOf prev before) word) after).take
      (n - (redactFrom cc prev before).length - word.length))
  rw [List.append_assoc] at hinfix
  exact hinfix

/-- **What a text shows of its numbers.** -/
theorem occurs_redacted_iff {s : List Char} {n : Nat} :
    Occurs digitRun none ((redactFrom cc none s).take n) ↔ ExposedFrom cc none n s :=
  ⟨exposed_of_occurs s.length (Nat.le_refl _) (Or.inl rfl), occurs_of_exposed rfl⟩

end

/-! ## The budget -/

/-- The characters of the items. -/
def contentLength : List Material → Nat
  | [] => 0
  | item :: items => item.2.length + contentLength items

/-- The characters of the entries. -/
def textLength : List ContextEntry → Nat
  | [] => 0
  | entry :: entries => entry.text.length + textLength entries

theorem length_firstChars (n : Nat) (s : String) :
    (firstChars n s).length = min n s.length := by
  unfold firstChars
  rw [String.length_ofList, List.length_take, String.length_toList]

theorem contentLength_append (xs ys : List Material) :
    contentLength (xs ++ ys) = contentLength xs + contentLength ys := by
  induction xs with
  | nil => exact (Nat.zero_add _).symm
  | cons item xs ih =>
    rw [List.cons_append, contentLength, contentLength, ih, Nat.add_assoc]

theorem fillEntries_zero : ∀ entries : List ContextEntry,
    (fillEntries 0 entries).items = [] ∧ (fillEntries 0 entries).remaining = 0
  | [] => ⟨rfl, rfl⟩
  | _ :: _ => ⟨rfl, rfl⟩

/-- What is put into the context is taken from what remains. -/
theorem fillEntries_length : ∀ (remaining : Nat) (entries : List ContextEntry),
    contentLength (fillEntries remaining entries).items + (fillEntries remaining entries).remaining
        = remaining ∧
      (fillEntries remaining entries).remaining = remaining - textLength entries
  | remaining, [] => ⟨Nat.zero_add _, rfl⟩
  | remaining, entry :: entries => by
    unfold fillEntries textLength
    by_cases hzero : remaining = 0
    · rw [if_pos hzero]
      dsimp only
      unfold contentLength
      omega
    · rw [if_neg hzero]
      dsimp only
      unfold contentLength
      have hcut := length_firstChars remaining entry.text
      obtain ⟨htotal, hrest⟩ :=
        fillEntries_length (remaining - (firstChars remaining entry.text).length) entries
      dsimp only
      omega

/-- The items are the entries in their order, up to some place. -/
theorem fillEntries_refs : ∀ (remaining : Nat) (entries : List ContextEntry),
    (fillEntries remaining entries).items.map Prod.fst <+: entries.map (·.sourceRef) ∧
      ((fillEntries remaining entries).remaining ≠ 0 →
        (fillEntries remaining entries).items.map Prod.fst = entries.map (·.sourceRef))
  | _, [] => ⟨⟨[], rfl⟩, fun _ => rfl⟩
  | remaining, entry :: entries => by
    unfold fillEntries
    by_cases hzero : remaining = 0
    · rw [if_pos hzero]
      exact ⟨⟨_, rfl⟩, fun h => absurd hzero h⟩
    · rw [if_neg hzero]
      obtain ⟨⟨more, hmore⟩, hall⟩ :=
        fillEntries_refs (remaining - (firstChars remaining entry.text).length) entries
      refine ⟨⟨more, ?_⟩, fun h => ?_⟩
      · exact congrArg (entry.sourceRef :: ·) hmore
      · exact congrArg (entry.sourceRef :: ·) (hall h)

/-- A run of digits is shown where an entry has one within what remains. -/
theorem fillEntries_shows : ∀ (remaining : Nat) (entries : List ContextEntry),
    (∃ item ∈ (fillEntries remaining entries).items, Occurs digitRun none item.2.toList) ↔
      ∃ front entry back, entries = front ++ entry :: back ∧
        Occurs digitRun none (entry.text.toList.take (remaining - textLength front))
  | _, [] => by
    refine iff_of_false (fun ⟨_, h, _⟩ => (nomatch h)) ?_
    rintro ⟨front, entry, back, h, -⟩
    cases front <;> cases h
  | remaining, entry :: entries => by
    by_cases hzero : remaining = 0
    · rw [hzero, (fillEntries_zero _).1]
      refine iff_of_false (fun ⟨_, h, _⟩ => (nomatch h)) ?_
      rintro ⟨front, entry, back, -, hrun⟩
      rw [Nat.zero_sub, List.take_zero] at hrun
      exact not_occurs_of_length (by decide) hrun
    · have hitems : (fillEntries remaining (entry :: entries)).items
          = (entry.sourceRef, firstChars remaining entry.text)
            :: (fillEntries (remaining - (firstChars remaining entry.text).length) entries).items := by
        rw [fillEntries, if_neg hzero]
      have hcut := length_firstChars remaining entry.text
      have hrest : ∀ n, remaining - (firstChars remaining entry.text).length - n
          = remaining - (entry.text.length + n) := fun n => by omega
      rw [hitems, List.exists_mem_cons_iff, fillEntries_shows]
      have hfirst : (firstChars remaining entry.text).toList = entry.text.toList.take remaining :=
        String.toList_ofList
      constructor
      · rintro (hrun | ⟨front, entry', back, rfl, hrun⟩)
        · rw [hfirst] at hrun
          exact ⟨[], entry, entries, rfl, hrun⟩
        · rw [hrest] at hrun
          exact ⟨entry :: front, entry', back, rfl, hrun⟩
      · rintro ⟨front, entry', back, hsplit, hrun⟩
        cases front with
        | nil =>
          cases hsplit
          exact Or.inl (by rw [hfirst]; exact hrun)
        | cons first front =>
          cases hsplit
          refine Or.inr ⟨front, entry', back, rfl, ?_⟩
          rw [hrest]
          exact hrun

/-! ## The context -/

/-- Within `n` characters no material shows six digits of a word that is no
number, and no tool result six digits in the names of its keys. -/
structure NumbersApart (cc : CharClasses) (n : Nat) (materials : List Material)
    (results : List (String × List (String × Json))) : Prop where
  texts : ∀ front ref text back, materials = front ++ (ref, text) :: back →
    ¬ ExposedFrom cc none (n - textLength (front.map (materialEntryOf cc))) text.toList
  keys : ∀ front ref item back, results = front ++ (ref, item) :: back →
    ¬ Occurs digitRun none ((toolSummary item).toList.take
      (n - textLength (materials.map (materialEntryOf cc))
        - textLength (front.map (toolEntryOf cc))))

theorem exists_map_split {α β : Type} {f : α → β} {l : List α} {P : List β → β → Prop} :
    (∃ front b back, l.map f = front ++ b :: back ∧ P front b) ↔
      ∃ front a back, l = front ++ a :: back ∧ P (front.map f) (f a) := by
  constructor
  · rintro ⟨front, b, back, h, hP⟩
    obtain ⟨front', rest, rfl, rfl, hrest⟩ := List.map_eq_append_iff.mp h
    obtain ⟨a, back', rfl, rfl, rfl⟩ := List.map_eq_cons_iff.mp hrest
    exact ⟨front', a, back', rfl, hP⟩
  · rintro ⟨front, a, back, rfl, hP⟩
    exact ⟨front.map f, f a, back.map f, by rw [List.map_append, List.map_cons], hP⟩

theorem toList_redactNumbers {cc : CharClasses} {text : String} :
    (redactNumbers cc text).1.toList = redactFrom cc none text.toList :=
  String.toList_ofList

/-- **What a context shows.** Its items are the materials and the tool
results in their order, up to some place, and have at most four characters
for a token; six digits in a row are in one of them exactly if a word that is
no number has them within the budget. -/
theorem nodeContext_clean_iff (cc : CharClasses) (trustedInstructions : String)
    (materials toolResults : List Json) (tokenBudget : Int) (context : NodeContext)
    (h : nodeContext cc trustedInstructions materials toolResults tokenBudget = .ok context) :
    contentLength context.untrustedItems ≤ 4 * tokenBudget.toNat ∧
      context.untrustedItems.map Prod.fst <+:
        (materials.filterMap contextMaterial).map Prod.fst
          ++ (toolResults.filterMap contextToolResult).map Prod.fst ∧
      ((∀ item ∈ context.untrustedItems, ¬ Occurs digitRun none item.2.toList) ↔
        NumbersApart cc (4 * tokenBudget.toNat) (materials.filterMap contextMaterial)
          (toolResults.filterMap contextToolResult)) := by
  unfold nodeContext at h
  split at h
  · cases h
  split at h
  · cases h
  cases h
  dsimp only
  rw [Nat.mul_comm tokenBudget.toNat 4]
  generalize materials.filterMap contextMaterial = ms
  generalize toolResults.filterMap contextToolResult = rs
  generalize 4 * tokenBudget.toNat = n
  obtain ⟨htotal, hremaining⟩ := fillEntries_length n (ms.map (materialEntryOf cc))
  obtain ⟨htotal', -⟩ := fillEntries_length
    (fillEntries n (ms.map (materialEntryOf cc))).remaining (rs.map (toolEntryOf cc))
  refine ⟨?_, ?_, ?_⟩
  · rw [contentLength_append]
    omega
  · obtain ⟨hfirst, hall⟩ := fillEntries_refs n (ms.map (materialEntryOf cc))
    have hrefs : (ms.map (materialEntryOf cc)).map (·.sourceRef) = ms.map Prod.fst := by
      rw [List.map_map]
      rfl
    have hrefs' : (rs.map (toolEntryOf cc)).map (·.sourceRef) = rs.map Prod.fst := by
      rw [List.map_map]
      rfl
    rw [hrefs] at hfirst hall
    rw [List.map_append]
    by_cases hzero : (fillEntries n (ms.map (materialEntryOf cc))).remaining = 0
    · -- the materials have used up the budget
      rw [hzero, (fillEntries_zero _).1, List.map_nil, List.append_nil]
      exact hfirst.trans (List.prefix_append _ _)
    · obtain ⟨hsecond, -⟩ := fillEntries_refs
        (fillEntries n (ms.map (materialEntryOf cc))).remaining (rs.map (toolEntryOf cc))
      rw [hrefs'] at hsecond
      rw [hall hzero]
      exact (List.prefix_append_right_inj _).mpr hsecond
  · have hmaterials : (∃ item ∈ (fillEntries n (ms.map (materialEntryOf cc))).items,
        Occurs digitRun none item.2.toList) ↔ ∃ front material back,
          ms = front ++ material :: back ∧ ExposedFrom cc none
            (n - textLength (front.map (materialEntryOf cc))) material.2.toList := by
      rw [fillEntries_shows, exists_map_split]
      refine exists₃_congr fun front material back => and_congr_right fun _ => ?_
      show Occurs digitRun none (((redactNumbers cc material.2).1).toList.take _) ↔ _
      rw [toList_redactNumbers, occurs_redacted_iff]
    have hresults : (∃ item ∈ (fillEntries
        (fillEntries n (ms.map (materialEntryOf cc))).remaining (rs.map (toolEntryOf cc))).items,
        Occurs digitRun none item.2.toList) ↔ ∃ front result back,
          rs = front ++ result :: back ∧ Occurs digitRun none ((toolSummary result.2).toList.take
            (n - textLength (ms.map (materialEntryOf cc))
              - textLength (front.map (toolEntryOf cc)))) := by
      rw [fillEntries_shows, exists_map_split, hremaining]
      rfl
    have hnone : (∀ item ∈ (fillEntries n (ms.map (materialEntryOf cc))).items
          ++ (fillEntries (fillEntries n (ms.map (materialEntryOf cc))).remaining
            (rs.map (toolEntryOf cc))).items, ¬ Occurs digitRun none item.2.toList) ↔
        ¬ (∃ item ∈ (fillEntries n (ms.map (materialEntryOf cc))).items,
            Occurs digitRun none item.2.toList) ∧
        ¬ (∃ item ∈ (fillEntries (fillEntries n (ms.map (materialEntryOf cc))).remaining
            (rs.map (toolEntryOf cc))).items, Occurs digitRun none item.2.toList) := by
      rw [List.forall_mem_append]
      refine and_congr ?_ ?_
      · exact ⟨fun h ⟨item, hitem, hrun⟩ => h item hitem hrun,
          fun h item hitem hrun => h ⟨item, hitem, hrun⟩⟩
      · exact ⟨fun h ⟨item, hitem, hrun⟩ => h item hitem hrun,
          fun h item hitem hrun => h ⟨item, hitem, hrun⟩⟩
    rw [hnone, hmaterials, hresults]
    constructor
    · rintro ⟨hms, hrs⟩
      exact ⟨fun front ref text back hs hexposed => hms ⟨front, (ref, text), back, hs, hexposed⟩,
        fun front ref item back hs hrun => hrs ⟨front, (ref, item), back, hs, hrun⟩⟩
    · rintro ⟨hms, hrs⟩
      exact ⟨fun ⟨front, material, back, hs, hexposed⟩ =>
          hms front material.1 material.2 back hs hexposed,
        fun ⟨front, result, back, hs, hrun⟩ => hrs front result.1 result.2 back hs hrun⟩

/-- A material. -/
def noteOf (text : String) : Json :=
  .obj [("source_ref", .str "diary:1"), ("text", .str text)]

/-- A phone number behind a Chinese character is shown. -/
theorem number_behind_character_shown : ∃ context,
    nodeContext asciiClasses "x" [noteOf "电13912345678"] [] 100 = .ok context ∧
      ∃ item ∈ context.untrustedItems, Occurs digitRun none item.2.toList :=
  ⟨_, rfl, ("diary:1", "电13912345678"), by decide +kernel, search_iff.mp (by decide +kernel)⟩

/-- A phone number between blanks is not. -/
theorem number_between_blanks_hidden : ∃ context,
    nodeContext asciiClasses "x" [noteOf "a 13912345678 b"] [] 100 = .ok context ∧
      ∀ item ∈ context.untrustedItems, ¬ Occurs digitRun none item.2.toList := by
  refine ⟨_, rfl, (nodeContext_clean_iff asciiClasses "x" [noteOf "a 13912345678 b"] [] 100 _
    rfl).2.2.mpr ⟨?_, fun front _ _ _ hs => by cases front <;> cases hs⟩⟩
  intro front ref text back hs
  have hone : front = [] ∧ text = "a 13912345678 b" := by
    cases front with
    | nil =>
      cases hs
      exact ⟨rfl, rfl⟩
    | cons first front =>
      have hmaterials : [noteOf "a 13912345678 b"].filterMap contextMaterial
          = [("diary:1", "a 13912345678 b")] := rfl
      have hlength := congrArg List.length (hmaterials.symm.trans hs)
      simp at hlength
  obtain ⟨rfl, rfl⟩ := hone
  rw [← occurs_redacted_iff, ← search_iff]
  decide +kernel

end ContextManager

end AgentRuntime
