import AgentRuntime.Lib.Regex
import AgentRuntime.MaterialView

/-!
# What the text checks look for

The regular expressions of `native_tools.py`, `tool_gateway.py`,
`context_manager.py` and `runner.py`, and what each of them matches: a phone
or identity number with no digit next to it (`matches_sensitiveIdentifier`),
a number that is a word by itself (`matches_contextSensitive`).

Mirroring notes:
- `\d` and `\w` are those of Unicode, whose tables change: they are a
  parameter, with what every version of the tables says.
- `str.isspace` is `\s`.
-/

namespace AgentRuntime

open Regex

/-- `\d` and `\w`. -/
structure CharClasses where
  digit : Char → Bool
  word : Char → Bool
  digit_word : ∀ c, digit c = true → word c = true
  digit_ascii : ∀ c, c.toNat < 128 → digit c = c.isDigit
  word_ascii : ∀ c, c.toNat < 128 → word c = (c.isAlphanum || decide (c = '_'))
  cjk : ∀ c, 0x4e00 ≤ c.toNat → c.toNat ≤ 0x9fff → digit c = false ∧ word c = true
  space : ∀ c, isSpace c = true → digit c = false ∧ word c = false

/-- The characters of a range of code points. -/
def codeRange (first last : Nat) (c : Char) : Bool :=
  decide (first ≤ c.toNat ∧ c.toNat ≤ last)

/-- A fact about each character of a text. -/
theorem forall_mem_of_all {p : Char → Prop} [DecidablePred p] {text : List Char}
    (h : (text.all fun c => decide (p c)) = true) : ∀ c ∈ text, p c :=
  fun c hc => of_decide_eq_true (List.all_eq_true.mp h c hc)

theorem isDigit_iff (c : Char) : c.isDigit = true ↔ 48 ≤ c.toNat ∧ c.toNat ≤ 57 := by
  unfold Char.isDigit
  simp [UInt32.le_iff_toNat_le]

theorem isAlphanum_iff (c : Char) : c.isAlphanum = true ↔
    (65 ≤ c.toNat ∧ c.toNat ≤ 90) ∨ (97 ≤ c.toNat ∧ c.toNat ≤ 122) ∨
      (48 ≤ c.toNat ∧ c.toNat ≤ 57) := by
  unfold Char.isAlphanum Char.isAlpha Char.isUpper Char.isLower Char.isDigit
  simp [UInt32.le_iff_toNat_le, or_assoc]

/-- The classes of ASCII texts with Chinese characters. -/
def asciiClasses : CharClasses where
  digit := Char.isDigit
  word c := c.isAlphanum || decide (c = '_') || codeRange 0x4e00 0x9fff c
  digit_word c h := by
    have hrange := (isDigit_iff c).mp h
    have hword : c.isAlphanum = true := (isAlphanum_iff c).mpr (Or.inr (Or.inr hrange))
    rw [hword]
    rfl
  digit_ascii _ _ := rfl
  word_ascii c h := by
    have hrange : codeRange 0x4e00 0x9fff c = false := decide_eq_false (by omega)
    rw [hrange, Bool.or_false]
  cjk c h h' := by
    have hrange : codeRange 0x4e00 0x9fff c = true := decide_eq_true ⟨h, h'⟩
    refine ⟨Bool.eq_false_iff.mpr fun hd => ?_, ?_⟩
    · have hdigit := (isDigit_iff c).mp hd
      omega
    · rw [hrange, Bool.or_true]
  space c h := by
    have hspace := of_decide_eq_true h
    have hdigit : c.isDigit = false := by
      refine Bool.eq_false_iff.mpr fun hd => ?_
      have := (isDigit_iff c).mp hd
      omega
    have hword : c.isAlphanum = false := by
      refine Bool.eq_false_iff.mpr fun hw => ?_
      have := (isAlphanum_iff c).mp hw
      omega
    have hline : decide (c = '_') = false := by
      refine decide_eq_false fun he => ?_
      subst he
      revert hspace
      decide
    have hrange : codeRange 0x4e00 0x9fff c = false := by
      refine decide_eq_false fun hr => ?_
      omega
    refine ⟨hdigit, ?_⟩
    rw [hword, hline, hrange]
    rfl

/-! ## Identifiers -/

/-- `[3-9]`. -/
def phoneDigit (c : Char) : Bool := codeRange 51 57 c

section

variable (cc : CharClasses)

/-- `1[3-9]\d{9}`. -/
def phoneNumber : Re Char :=
  .seq (.literal ['1']) (.seq (.one phoneDigit) (.times cc.digit 9))

/-- `[\dXx]`. -/
def checkDigit (c : Char) : Bool := cc.digit c || decide (c = 'X') || decide (c = 'x')

/-- `\d{17}[\dXx]`. -/
def identityNumber : Re Char := .seq (.times cc.digit 17) (.one (checkDigit cc))

/-- `_SENSITIVE_IDENTIFIER` and `_TOOL_OUTPUT_SENSITIVE`. -/
def sensitiveIdentifier : Re Char :=
  .seq (.notAfter cc.digit)
    (.seq (.alt (phoneNumber cc) (identityNumber cc)) (.notBefore cc.digit))

/-- `_SENSITIVE`. -/
def contextSensitive : Re Char :=
  .seq (.boundary cc.word)
    (.seq (.alt (phoneNumber cc) (.atLeast cc.digit 6)) (.boundary cc.word))

/-- Eleven digits of a phone number. -/
def IsPhone (u : List Char) : Prop :=
  ∃ c rest, u = '1' :: c :: rest ∧ phoneDigit c = true ∧ rest.length = 9 ∧
    ∀ d ∈ rest, cc.digit d = true

/-- Seventeen digits and the last place of an identity number. -/
def IsIdentity (u : List Char) : Prop :=
  ∃ digits c, u = digits ++ [c] ∧ digits.length = 17 ∧ (∀ d ∈ digits, cc.digit d = true) ∧
    checkDigit cc c = true

end

/-- The placeholder. -/
def redactedText : List Char := "[REDACTED]".toList

section

variable {cc : CharClasses}

theorem digit_of_phoneDigit {c : Char} (h : phoneDigit c = true) : cc.digit c = true := by
  have hrange := of_decide_eq_true h
  rw [cc.digit_ascii c (by omega), isDigit_iff]
  omega

theorem digit_one : cc.digit '1' = true := cc.digit_ascii '1' (by decide)

theorem matches_phoneNumber {prev : Option Char} {u rest : List Char} :
    Matches (phoneNumber cc) prev u rest ↔ IsPhone cc u := by
  constructor
  · rintro ⟨v, w, rfl, hone, x, y, rfl, ⟨c, rfl, hc⟩, hy⟩
    obtain ⟨hlength, hdigits⟩ := matches_times.mp hy
    rw [matches_literal.mp hone]
    exact ⟨c, y, rfl, hc, hlength, hdigits⟩
  · rintro ⟨c, y, rfl, hc, hlength, hdigits⟩
    exact ⟨['1'], c :: y, rfl, matches_literal.mpr rfl, [c], y, rfl, ⟨c, rfl, hc⟩,
      matches_times.mpr ⟨hlength, hdigits⟩⟩

theorem matches_identityNumber {prev : Option Char} {u rest : List Char} :
    Matches (identityNumber cc) prev u rest ↔ IsIdentity cc u := by
  constructor
  · rintro ⟨v, w, rfl, hv, c, rfl, hc⟩
    obtain ⟨hlength, hdigits⟩ := matches_times.mp hv
    exact ⟨v, c, rfl, hlength, hdigits, hc⟩
  · rintro ⟨digits, c, rfl, hlength, hdigits, hc⟩
    exact ⟨digits, [c], rfl, matches_times.mpr ⟨hlength, hdigits⟩, c, rfl, hc⟩

theorem IsPhone.digits {u : List Char} (h : IsPhone cc u) :
    u.length = 11 ∧ ∀ d ∈ u, cc.digit d = true := by
  obtain ⟨c, rest, rfl, hc, hlength, hdigits⟩ := h
  refine ⟨by rw [List.length_cons, List.length_cons, hlength], fun d hd => ?_⟩
  rcases List.mem_cons.mp hd with rfl | hd
  · exact digit_one
  rcases List.mem_cons.mp hd with rfl | hd
  · exact digit_of_phoneDigit hc
  · exact hdigits d hd

/-- An identifier is found where it stands without a digit next to it. -/
theorem matches_sensitiveIdentifier {prev : Option Char} {u rest : List Char} :
    Matches (sensitiveIdentifier cc) prev u rest ↔
      prev.any cc.digit = false ∧ (IsPhone cc u ∨ IsIdentity cc u) ∧
        rest.head?.any cc.digit = false := by
  unfold sensitiveIdentifier
  rw [matches_notAfter_seq, matches_seq_notBefore]
  show _ ∧ (Matches (phoneNumber cc) prev u rest ∨ Matches (identityNumber cc) prev u rest) ∧ _ ↔ _
  rw [matches_phoneNumber, matches_identityNumber]

/-- A number is found where it is a word by itself. -/
theorem matches_contextSensitive {prev : Option Char} {u rest : List Char} :
    Matches (contextSensitive cc) prev u rest ↔
      (6 ≤ u.length ∧ ∀ c ∈ u, cc.digit c = true) ∧ prev.any cc.word = false ∧
        rest.head?.any cc.word = false := by
  have hdigits : Matches (.alt (phoneNumber cc) (.atLeast cc.digit 6)) prev u rest ↔
      6 ≤ u.length ∧ ∀ c ∈ u, cc.digit c = true := by
    show Matches (phoneNumber cc) prev u rest ∨ Matches (.atLeast cc.digit 6) prev u rest ↔ _
    rw [matches_phoneNumber, matches_atLeast]
    refine or_iff_right_of_imp fun h => ?_
    rw [h.digits.1]
    exact ⟨by decide, h.digits.2⟩
  unfold contextSensitive
  rw [matches_boundary_seq, matches_seq_boundary, hdigits]
  -- both ends of the number are word characters
  have hends : (6 ≤ u.length ∧ ∀ c ∈ u, cc.digit c = true) →
      (u ++ rest).head?.any cc.word = true ∧ (lastOf prev u).any cc.word = true := by
    rintro ⟨hlength, hall⟩
    cases u with
    | nil => cases hlength
    | cons c u =>
      refine ⟨cc.digit_word c (hall c List.mem_cons_self), ?_⟩
      obtain ⟨front, last, hlast⟩ := List.exists_cons_of_ne_nil
        (List.reverse_ne_nil_iff.mpr (List.cons_ne_nil c u))
      have hu : c :: u = last.reverse ++ [front] := by
        rw [← List.reverse_cons, ← hlast, List.reverse_reverse]
      rw [hu, lastOf_concat]
      refine cc.digit_word front (hall front ?_)
      rw [hu]
      exact List.mem_append_right _ List.mem_cons_self
  constructor
  · rintro ⟨hprev, hu, hrest⟩
    rw [(hends hu).1] at hprev
    rw [(hends hu).2] at hrest
    exact ⟨hu, Bool.eq_false_iff.mpr hprev, Bool.eq_false_iff.mpr (Ne.symm hrest)⟩
  · rintro ⟨hu, hprev, hrest⟩
    rw [(hends hu).1, (hends hu).2, hprev, hrest]
    exact ⟨Bool.false_ne_true, hu, Bool.false_ne_true.symm⟩

end

end AgentRuntime
