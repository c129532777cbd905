import AgentRuntime.Lib.Cutting
import AgentRuntime.MemoirLoop

/-!
# The segments of a narration

`split_narration_segments` cuts the body of a scene into segments that the
speech service takes one by one. The body is cut after every sentence end, short
sentences are merged, and a sentence that is too long alone is cut hard. Both
loops count the characters and the bytes of the segment they are filling beside
it; as long as the counts agree with the segment the loops are the cutting and
filling of `Cutting`, where only the number of characters counts, since a
character has four bytes at most (`hardSplitFrom_eq`, `segmentsFrom_eq`).

`splitNarrationSegments_bounded`: nothing is lost, and every segment is within
both bounds.
-/

namespace AgentRuntime

open Cutting

namespace Narration

/-- `SEGMENT_MAX_CHARS`. -/
def segmentMaxChars : Nat := 200

/-- `SEGMENT_MAX_BYTES`. -/
def segmentMaxBytes : Nat := 900

/-- `_SENTENCE_TERMINALS`. -/
def sentenceTerminals : List Char := ['。', '！', '？', '；', '…', '!', '?', ';']

def endsSentence (c : Char) : Bool := decide (c ∈ sentenceTerminals)

/-- `len(text.encode("utf-8"))`. -/
def utf8Length : List Char → Nat
  | [] => 0
  | c :: cs => c.utf8Size + utf8Length cs

/-- The loop of `_split_sentences`, with its `buffer`. -/
def sentencesFrom (buffer : List Char) : List Char → List (List Char)
  | [] => if buffer.isEmpty then [] else [buffer]
  | c :: cs =>
    if endsSentence c then (buffer ++ [c]) :: sentencesFrom [] cs
    else sentencesFrom (buffer ++ [c]) cs

/-- `_split_sentences`. -/
def splitSentences (text : List Char) : List (List Char) :=
  (sentencesFrom [] text).filter fun sentence => !sentence.isEmpty

/-- The loop of `_hard_split_by_chars`, with what it counts of `current`. -/
def hardSplitFrom (current : List Char) (currentChars currentBytes : Nat) :
    List Char → List (List Char)
  | [] => if current.isEmpty then [] else [current]
  | c :: cs =>
    if current ≠ [] ∧ (segmentMaxChars < currentChars + 1 ∨
        segmentMaxBytes < currentBytes + c.utf8Size) then
      current :: hardSplitFrom [c] 1 c.utf8Size cs
    else hardSplitFrom (current ++ [c]) (currentChars + 1) (currentBytes + c.utf8Size) cs

/-- `_hard_split_by_chars`. -/
def hardSplitByChars (sentence : List Char) : List (List Char) := hardSplitFrom [] 0 0 sentence

/-- The loop of `split_narration_segments`, with the bytes it counts of
`pending`. -/
def segmentsFrom (pending : List Char) (pendingBytes : Nat) :
    List (List Char) → List (List Char)
  | [] => if pending.isEmpty then [] else [pending]
  | sentence :: sentences =>
    if segmentMaxChars < sentence.length ∨ segmentMaxBytes < utf8Length sentence then
      (if pending.isEmpty then [] else [pending]) ++ hardSplitByChars sentence ++
        segmentsFrom [] (if pending.isEmpty then pendingBytes else 0) sentences
    else if pending ≠ [] ∧ (segmentMaxChars < pending.length + sentence.length ∨
        segmentMaxBytes < pendingBytes + utf8Length sentence) then
      pending :: segmentsFrom sentence (utf8Length sentence) sentences
    else segmentsFrom (pending ++ sentence) (pendingBytes + utf8Length sentence) sentences

/-- `split_narration_segments`. -/
def splitNarrationSegments (text : String) : List String :=
  if isBlank text then []
  else (segmentsFrom [] 0 (splitSentences text.toList)).map String.ofList

/-! ## The loops do what they count -/

theorem utf8Length_append (xs ys : List Char) :
    utf8Length (xs ++ ys) = utf8Length xs + utf8Length ys := by
  induction xs with
  | nil => rw [List.nil_append, utf8Length, Nat.zero_add]
  | cons c xs ih => rw [List.cons_append, utf8Length, utf8Length, ih, Nat.add_assoc]

theorem utf8Length_le (text : List Char) : utf8Length text ≤ 4 * text.length := by
  induction text with
  | nil => exact Nat.le_refl _
  | cons c text ih =>
    have hsize : c.utf8Size ≤ 4 := c.utf8Size_le_four
    rw [utf8Length, List.length_cons]
    omega

theorem closed_eq (text : List Char) :
    (if text.isEmpty then [] else [text]) = closed text := by
  cases text <;> rfl

theorem sentencesFrom_eq (text : List Char) : ∀ buffer,
    sentencesFrom buffer text =
      match cutAfter endsSentence text with
      | [] => closed buffer
      | sentence :: sentences => (buffer ++ sentence) :: sentences := by
  induction text with
  | nil => intro buffer; rw [sentencesFrom, closed_eq]; rfl
  | cons c text ih =>
    intro buffer
    rw [sentencesFrom]
    by_cases hend : endsSentence c = true
    · rw [if_pos hend, cutAfter_cons_end hend, ih]
      cases cutAfter endsSentence text <;> rfl
    · rw [if_neg hend, cutAfter, if_neg hend, ih]
      cases cutAfter endsSentence text with
      | nil =>
        show closed (buffer ++ [c]) = [buffer ++ [c]]
        exact closed_of_ne_nil (List.append_ne_nil_of_right_ne_nil _ (List.cons_ne_nil _ _))
      | cons sentence sentences =>
        show (buffer ++ [c] ++ sentence) :: sentences = (buffer ++ c :: sentence) :: sentences
        rw [List.append_assoc, List.singleton_append]

/-- The sentences are the text, cut after every sentence end. -/
theorem splitSentences_eq (text : List Char) :
    splitSentences text = cutAfter endsSentence text := by
  have hcut : sentencesFrom [] text = cutAfter endsSentence text := by
    rw [sentencesFrom_eq]
    cases cutAfter endsSentence text <;> rfl
  unfold splitSentences
  rw [hcut, List.filter_eq_self]
  intro sentence hmem
  cases sentence with
  | nil => exact absurd rfl (ne_nil_of_mem_cutAfter [] hmem)
  | cons c cs => rfl

theorem segmentMaxChars_pos : 0 < segmentMaxChars := Nat.succ_pos _

/-- The number of bytes never decides. -/
theorem exceeds_iff {chars bytes : Nat} (h : bytes ≤ 4 * chars) :
    segmentMaxChars < chars ∨ segmentMaxBytes < bytes ↔ segmentMaxChars < chars := by
  unfold segmentMaxChars segmentMaxBytes
  omega

/-- The invariant is that the counts are those of `current`, which is not full
yet. -/
theorem hardSplitFrom_eq (rest : List Char) : ∀ current : List Char,
    current ≠ [] → current.length ≤ segmentMaxChars →
    hardSplitFrom current current.length (utf8Length current) rest
      = blocks segmentMaxChars (current ++ rest) := by
  induction rest with
  | nil =>
    intro current hne hlen
    rw [hardSplitFrom, closed_eq, closed_of_ne_nil hne, List.append_nil,
      blocks_of_pos segmentMaxChars_pos hne, List.take_of_length_le hlen,
      List.drop_of_length_le hlen, blocks_nil]
  | cons c rest ih =>
    intro current hne hlen
    have hbytes : utf8Length current + c.utf8Size ≤ 4 * (current.length + 1) := by
      have hcurrent := utf8Length_le current
      have hsize : c.utf8Size ≤ 4 := c.utf8Size_le_four
      omega
    rw [hardSplitFrom]
    simp only [exceeds_iff hbytes]
    by_cases hfull : segmentMaxChars < current.length + 1
    · have hlength : current.length = segmentMaxChars := by omega
      have hne' : current ++ c :: rest ≠ [] := List.append_ne_nil_of_left_ne_nil hne _
      rw [if_pos ⟨hne, hfull⟩, blocks_of_pos segmentMaxChars_pos hne',
        List.take_left' hlength, List.drop_left' hlength]
      exact congrArg (current :: ·) (ih [c] (List.cons_ne_nil _ _) segmentMaxChars_pos)
    · have hstep := ih (current ++ [c])
        (List.append_ne_nil_of_right_ne_nil _ (List.cons_ne_nil _ _))
        (by rw [List.length_append, List.length_singleton]; omega)
      rw [List.length_append, List.length_singleton, utf8Length_append, List.append_assoc] at hstep
      rw [if_neg (fun h => hfull h.2)]
      exact hstep

/-- A long sentence is cut into blocks. -/
theorem hardSplitByChars_eq (sentence : List Char) :
    hardSplitByChars sentence = blocks segmentMaxChars sentence := by
  cases sentence with
  | nil => rw [blocks_nil]; rfl
  | cons c rest =>
    have hstart := hardSplitFrom_eq rest [c] (List.cons_ne_nil _ _) segmentMaxChars_pos
    unfold hardSplitByChars
    rw [hardSplitFrom, if_neg (fun h => h.1 rfl), Nat.zero_add, Nat.zero_add]
    exact hstart

/-- The invariant is that the bytes counted are those of `pending`. -/
theorem segmentsFrom_eq (sentences : List (List Char)) : ∀ pending : List Char,
    segmentsFrom pending (utf8Length pending) sentences
      = fill segmentMaxChars pending sentences := by
  induction sentences with
  | nil => intro pending; rw [segmentsFrom, closed_eq, fill]
  | cons sentence sentences ih =>
    intro pending
    have hsum : utf8Length pending + utf8Length sentence
        ≤ 4 * (pending.length + sentence.length) := by
      have hpending := utf8Length_le pending
      have hsentence := utf8Length_le sentence
      omega
    have hcount : (if pending.isEmpty then utf8Length pending else 0) = utf8Length [] := by
      cases pending <;> rfl
    rw [segmentsFrom, fill]
    simp only [exceeds_iff (utf8Length_le sentence), exceeds_iff hsum]
    rw [closed_eq, hardSplitByChars_eq, hcount, ih [], ih sentence, ← utf8Length_append,
      ih (pending ++ sentence)]

/-- The segments of a text that is not blank. -/
theorem splitNarrationSegments_eq {text : String} (h : isBlank text = false) :
    splitNarrationSegments text
      = (fill segmentMaxChars [] (cutAfter endsSentence text.toList)).map String.ofList := by
  unfold splitNarrationSegments
  rw [h, if_neg Bool.false_ne_true, splitSentences_eq]
  exact congrArg _ (segmentsFrom_eq _ [])

/-! ## Nothing is lost -/

theorem utf8ByteSize_ofList (text : List Char) :
    (String.ofList text).utf8ByteSize = utf8Length text := by
  induction text with
  | nil => rfl
  | cons c text ih =>
    rw [String.ofList_cons, String.utf8ByteSize_append, String.utf8ByteSize_singleton, ih,
      utf8Length]

theorem toList_join_map (pieces : List (List Char)) :
    (String.join (pieces.map String.ofList)).toList = pieces.flatten := by
  induction pieces with
  | nil => rfl
  | cons piece pieces ih =>
    rw [List.map_cons, String.join_cons, String.toList_append, String.toList_ofList, ih,
      List.flatten_cons]

theorem join_splitNarrationSegments {text : String} (h : isBlank text = false) :
    String.join (splitNarrationSegments text) = text := by
  rw [splitNarrationSegments_eq h]
  apply String.toList_inj.mp
  rw [toList_join_map, flatten_fill segmentMaxChars_pos, List.nil_append, flatten_cutAfter]

/-- Joined together the segments of a text are the text, and none of them is
empty, or longer than allowed in characters or in bytes. -/
theorem splitNarrationSegments_bounded (text : String) (h : isBlank text = false) :
    String.join (splitNarrationSegments text) = text
      ∧ ∀ segment ∈ splitNarrationSegments text,
        segment ≠ "" ∧ segment.length ≤ 200 ∧ segment.utf8ByteSize ≤ 900 := by
  refine ⟨join_splitNarrationSegments h, fun segment hmem => ?_⟩
  rw [splitNarrationSegments_eq h] at hmem
  obtain ⟨piece, hpiece, rfl⟩ := List.mem_map.mp hmem
  obtain ⟨hne, hlen⟩ := of_mem_fill _ [] (Nat.zero_le _) piece hpiece
  have hchars : piece.length ≤ 200 := hlen
  have hbytes := utf8Length_le piece
  refine ⟨fun hempty => hne ?_, ?_, ?_⟩
  · exact String.toList_ofList.symm.trans (congrArg String.toList hempty)
  · rw [String.length_ofList]
    exact hchars
  · rw [utf8ByteSize_ofList]
    omega

theorem splitNarrationSegments_spring :
    isBlank "春天 a。好😀" = false
      ∧ (String.join (splitNarrationSegments "春天 a。好😀") = "春天 a。好😀"
        ∧ ∀ segment ∈ splitNarrationSegments "春天 a。好😀",
          segment ≠ "" ∧ segment.length ≤ 200 ∧ segment.utf8ByteSize ≤ 900) :=
  ⟨by decide +kernel, splitNarrationSegments_bounded _ (by decide +kernel)⟩

end Narration

end AgentRuntime
