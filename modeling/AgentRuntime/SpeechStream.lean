import AgentRuntime.Lib.Cutting
import AgentRuntime.StructuredOutput

/-!
# The stream of the speech service

`_consume_stream` reads the lines of an SSE stream: a blank line sends off the
event and the data that were read last, an audio frame adds to the audio, and
the success frame ends the segment. `runFrames` is the same over the frames, the
lines cut after every blank one (`consumeStream_eq`), and `fate` is what a frame
does to the session.

A frame holds one event and one data, and the lines before them are lost: where
a blank line is missing, audio that has been received is not in the result. And
two kinds of a frame are not taken for broken, but raise what nobody catches: an
audio frame that is JSON and not an object, and a success frame whose JSON cannot
be read for another reason than that it is none. `consumeStream_iff` is the exact
condition.
-/

namespace AgentRuntime

/-- `MemoirAudioProviderError`. -/
structure ProviderError where
  code : String
  message : String
  deriving DecidableEq, Repr

/-- What is raised while the stream is read. -/
inductive StreamException
  | provider (error : ProviderError)
  | attributeError
  | python (e : PyException)

/-- `TTSSegmentResult`. -/
structure TTSSegmentResult where
  audio : List UInt8
  textWords : Int

/-- What is taken from Python: `int` of a string, and `json.loads`. -/
structure StreamLibrary where
  parseInt : String → Option Int
  loads : String → Except PyException Json

namespace SpeechStream

open Cutting MemoirPlaybackEvaluator

/-! ## `base64.b64decode`, with `validate` -/

/-- The value of a character of the alphabet. -/
def sextet (c : Char) : Option Nat :=
  let n := c.toNat
  if 65 ≤ n ∧ n ≤ 90 then some (n - 65)
  else if 97 ≤ n ∧ n ≤ 122 then some (n - 71)
  else if 48 ≤ n ∧ n ≤ 57 then some (n + 4)
  else if n = 43 then some 62
  else if n = 47 then some 63
  else none

/-- The loop of `a2b_base64` in strict mode, at the place `quad` of a group of
four, with the bits that are left over and the padding seen in the group. -/
def a2bFrom (quad left pads : Nat) (padding : Bool) : List Char → Option (List UInt8)
  | [] => if quad = 0 then some [] else none
  | c :: cs =>
    if c = '=' then
      if 2 ≤ quad ∧ 4 ≤ quad + (pads + 1) then if cs.isEmpty then some [] else none
      else a2bFrom quad left (if 2 ≤ quad then pads + 1 else pads) true cs
    else
      match sextet c with
      | none => none
      | some value =>
        if padding then none
        else
          match quad with
          | 0 => a2bFrom 1 value 0 false cs
          | 1 => (a2bFrom 2 (value % 16) 0 false cs).map
            fun bytes => UInt8.ofNat (left * 4 + value / 16) :: bytes
          | 2 => (a2bFrom 3 (value % 4) 0 false cs).map
            fun bytes => UInt8.ofNat (left * 16 + value / 4) :: bytes
          | _ => (a2bFrom 0 0 0 false cs).map
            fun bytes => UInt8.ofNat (left * 64 + value) :: bytes

/-- `base64.b64decode(text, validate=True)`; none where it raises a `ValueError`. -/
def b64decode (text : String) : Option (List UInt8) :=
  if text.toList.head? = some '=' then none else a2bFrom 0 0 0 false text.toList

/-! ## Frames -/

def audioFrameInvalid : ProviderError := ⟨"TTS_AUDIO_FRAME_INVALID", "TTS 音频帧损坏"⟩

/-- `_consume_audio_frame`: what it adds to the audio. -/
def consumeAudioFrame (lib : StreamLibrary) (data : String) :
    Except StreamException (List UInt8) :=
  match lib.loads data with
  | .error e => if e.isValueError then .error (.provider audioFrameInvalid) else .error (.python e)
  | .ok (.obj payload) =>
    match equalsInt 0 (Json.getOr "code" payload), Json.getOr "data" payload with
    | true, .str audio =>
      if audio = "" then .error (.provider audioFrameInvalid)
      else
        match b64decode audio with
        | some bytes => .ok bytes
        | none => .error (.provider audioFrameInvalid)
    | _, _ => .error (.provider audioFrameInvalid)
  -- `payload.get` comes before the check that the payload is an object
  | .ok _ => .error .attributeError

/-- `usage.get("text_words")`, where it counts words. -/
def textWords (payload : JsonFields) : Option Int :=
  match Json.getOr "usage" payload with
  | .obj usage =>
    match Json.getOr "text_words" usage with
    | .int words => if words < 0 then none else some words
    | _ => none
  | _ => none

/-- The checks of `_finish_session` on its frame: the words of the session. -/
def finishedWords (lib : StreamLibrary) (data : String) : Except StreamException Int :=
  match lib.loads data with
  | .error .jsonDecodeError =>
    .error (.provider ⟨"TTS_FINISH_CODE_INVALID", "TTS 终态帧非法"⟩)
  | .error e => .error (.python e)
  | .ok (.obj payload) =>
    if equalsInt 20000000 (Json.getOr "code" payload) then
      match textWords payload with
      | some words => .ok words
      | none => .error (.provider ⟨"TTS_USAGE_MISSING", "TTS 用量缺失"⟩)
    else .error (.provider ⟨"TTS_FINISH_CODE_INVALID", "TTS 终态码非成功"⟩)
  | .ok _ => .error (.provider ⟨"TTS_FINISH_CODE_INVALID", "TTS 终态码非成功"⟩)

/-- `_finish_session`. -/
def finishSession (lib : StreamLibrary) (data : String) (chunks : List (List UInt8)) :
    Except StreamException TTSSegmentResult := do
  let words ← finishedWords lib data
  if chunks.isEmpty then throw (.provider ⟨"TTS_EMPTY_AUDIO", "TTS 会话未返回音频"⟩)
  else pure ⟨chunks.flatten, words⟩

/-- `dispatch`: the result where the session ends, and the audio so far. -/
def dispatch (lib : StreamLibrary) (event data : Option String) (chunks : List (List UInt8)) :
    Except StreamException (Option TTSSegmentResult × List (List UInt8)) :=
  match data with
  | none => .ok (none, chunks)
  | some data =>
    match event.bind lib.parseInt with
    | some 352 => do
      let bytes ← consumeAudioFrame lib data
      pure (none, chunks ++ [bytes])
    | some 152 => do
      let result ← finishSession lib data chunks
      pure (some result, chunks)
    | some 151 => .error (.provider ⟨"TTS_SESSION_CANCELLED", "TTS 会话被取消"⟩)
    | some 153 => .error (.provider ⟨"TTS_SESSION_FAILED", "TTS 会话失败"⟩)
    | _ => .ok (none, chunks)

/-! ## Lines -/

/-- What a line is to the reader. -/
inductive StreamLine
  | blank
  | event (value : String)
  | data (value : String)
  | other

def StreamLine.isBlank : StreamLine → Bool
  | .blank => true
  | _ => false

/-- A line without the returns at its end, read. -/
def readLine (rawLine : String) : StreamLine :=
  let line := (rawLine.toList.reverse.dropWhile fun c => decide (c = '\r')).reverse
  if line.isEmpty then .blank
  else if ['e', 'v', 'e', 'n', 't', ':'].isPrefixOf line then
    .event (stripText (String.ofList (line.drop 6)))
  else if ['d', 'a', 't', 'a', ':'].isPrefixOf line then
    .data (stripText (String.ofList (line.drop 5)))
  else .other

def streamTerminated : StreamException := .provider ⟨"TTS_STREAM_TERMINATED", "TTS 流在终态前断开"⟩

/-- The loop of `_consume_stream`, with the event and the data it has pending. -/
def consumeFrom (lib : StreamLibrary) (event data : Option String) (chunks : List (List UInt8)) :
    List StreamLine → Except StreamException TTSSegmentResult
  | [] =>
    match data with
    | none => .error streamTerminated
    | some data =>
      match dispatch lib event (some data) chunks with
      | .error e => .error e
      | .ok (some result, _) => .ok result
      | .ok (none, _) => .error streamTerminated
  | .blank :: lines =>
    match dispatch lib event data chunks with
    | .error e => .error e
    | .ok (some result, _) => .ok result
    | .ok (none, chunks) => consumeFrom lib none none chunks lines
  | .event value :: lines => consumeFrom lib (some value) data chunks lines
  | .data value :: lines => consumeFrom lib event (some value) chunks lines
  | .other :: lines => consumeFrom lib event data chunks lines

/-- `_consume_stream`. -/
def consumeStream (lib : StreamLibrary) (lines : List String) :
    Except StreamException TTSSegmentResult :=
  consumeFrom lib none none [] (lines.map readLine)

/-! ## The same over frames -/

/-- The event that is pending after the lines. -/
def eventOf (event : Option String) : List StreamLine → Option String
  | [] => event
  | .event value :: lines => eventOf (some value) lines
  | _ :: lines => eventOf event lines

/-- The data that is pending after the lines. -/
def dataOf (data : Option String) : List StreamLine → Option String
  | [] => data
  | .data value :: lines => dataOf (some value) lines
  | _ :: lines => dataOf data lines

/-- The stream, cut after every blank line. -/
def frames (lines : List String) : List (List StreamLine) :=
  cutAfter StreamLine.isBlank (lines.map readLine)

/-- What a dispatched frame leads to. -/
def afterDispatch (next : List (List UInt8) → Except StreamException TTSSegmentResult) :
    Except StreamException (Option TTSSegmentResult × List (List UInt8)) →
    Except StreamException TTSSegmentResult
  | .error e => .error e
  | .ok (some result, _) => .ok result
  | .ok (none, chunks) => next chunks

/-- The frames one after the other, the first with what is pending. -/
def runFrames (lib : StreamLibrary) (event data : Option String) (chunks : List (List UInt8)) :
    List (List StreamLine) → Except StreamException TTSSegmentResult
  | [] => afterDispatch (fun _ => .error streamTerminated) (dispatch lib event data chunks)
  | frame :: frames =>
    afterDispatch (fun chunks => runFrames lib none none chunks frames)
      (dispatch lib (eventOf event frame) (dataOf data frame) chunks)

/-- A stream that ends within a frame dispatches it like a whole one. -/
theorem consumeFrom_eq (lib : StreamLibrary) (lines : List StreamLine) :
    ∀ event data chunks, consumeFrom lib event data chunks lines
      = runFrames lib event data chunks (cutAfter StreamLine.isBlank lines) := by
  induction lines with
  | nil =>
    intro event data chunks
    cases data with
    | none => rfl
    | some data =>
      show _ = afterDispatch _ (dispatch lib event (some data) chunks)
      rw [consumeFrom]
      cases dispatch lib event (some data) chunks with
      | error e => rfl
      | ok next =>
        obtain ⟨result, chunks'⟩ := next
        cases result <;> rfl
  | cons line lines ih =>
    intro event data chunks
    have hgrow : ∀ event data, line.isBlank = false →
        consumeFrom lib (eventOf event [line]) (dataOf data [line]) chunks lines
          = runFrames lib event data chunks (cutAfter StreamLine.isBlank (line :: lines)) := by
      intro event data hline
      rw [ih, cutAfter, if_neg (by rw [hline]; exact Bool.false_ne_true)]
      cases cutAfter StreamLine.isBlank lines with
      | nil =>
        show afterDispatch _ _ = afterDispatch _ _
        cases dispatch lib (eventOf event [line]) (dataOf data [line]) chunks with
        | error e => rfl
        | ok next =>
          obtain ⟨result, chunks'⟩ := next
          cases result <;> rfl
      | cons frame frames => cases line <;> rfl
    cases line with
    | blank =>
      rw [consumeFrom, cutAfter_cons_end rfl]
      show _ = afterDispatch _ (dispatch lib event data chunks)
      cases dispatch lib event data chunks with
      | error e => rfl
      | ok next =>
        obtain ⟨result, chunks'⟩ := next
        cases result with
        | none => exact ih none none chunks'
        | some result => rfl
    | event value => exact hgrow event data rfl
    | data value => exact hgrow event data rfl
    | other => exact hgrow event data rfl

theorem consumeStream_eq (lib : StreamLibrary) (lines : List String) :
    consumeStream lib lines = runFrames lib none none [] (frames lines) :=
  consumeFrom_eq lib _ none none []

/-! ## What a frame does -/

/-- What a frame does to the session: nothing, add audio, end it with the words
that were spoken, break it with an error of the provider, or raise something
else. -/
inductive FrameFate
  | ignored
  | audio (bytes : List UInt8)
  | finished (words : Int)
  | failed (error : ProviderError)
  | raised (e : StreamException)

/-- What a frame does, given what was made of its data. -/
def FrameFate.ofResult {α : Type} (fate : α → FrameFate) : Except StreamException α → FrameFate
  | .ok a => fate a
  | .error (.provider error) => .failed error
  | .error e => .raised e

def frameFate (lib : StreamLibrary) (frame : List StreamLine) : FrameFate :=
  match dataOf none frame with
  | none => .ignored
  | some data =>
    match (eventOf none frame).bind lib.parseInt with
    | some 352 => .ofResult .audio (consumeAudioFrame lib data)
    | some 152 => .ofResult .finished (finishedWords lib data)
    | some 151 => .failed ⟨"TTS_SESSION_CANCELLED", "TTS 会话被取消"⟩
    | some 153 => .failed ⟨"TTS_SESSION_FAILED", "TTS 会话失败"⟩
    | _ => .ignored

/-- The session after a frame. -/
def afterFrame (next : List (List UInt8) → Except StreamException TTSSegmentResult)
    (chunks : List (List UInt8)) : FrameFate → Except StreamException TTSSegmentResult
  | .ignored => next chunks
  | .audio bytes => next (chunks ++ [bytes])
  | .finished words =>
    if chunks.isEmpty then .error (.provider ⟨"TTS_EMPTY_AUDIO", "TTS 会话未返回音频"⟩)
    else .ok ⟨chunks.flatten, words⟩
  | .failed error => .error (.provider error)
  | .raised e => .error e

theorem afterFrame_error {α : Type} (fate : α → FrameFate) (e : StreamException)
    (next : List (List UInt8) → Except StreamException TTSSegmentResult)
    (chunks : List (List UInt8)) :
    afterFrame next chunks (.ofResult fate (.error e)) = .error e := by
  cases e <;> rfl

theorem runFrames_cons (lib : StreamLibrary) (chunks : List (List UInt8))
    (frame : List StreamLine) (rest : List (List StreamLine)) :
    runFrames lib none none chunks (frame :: rest)
      = afterFrame (fun chunks => runFrames lib none none chunks rest) chunks
          (frameFate lib frame) := by
  rw [runFrames]
  unfold dispatch frameFate
  cases dataOf none frame with
  | none => rfl
  | some data =>
    dsimp only
    split
    · cases hframe : consumeAudioFrame lib data with
      | ok bytes => rfl
      | error e => rw [afterFrame_error]; rfl
    · unfold finishSession
      cases hwords : finishedWords lib data with
      | ok words => cases chunks <;> rfl
      | error e => rw [afterFrame_error]; rfl
    · rfl
    · rfl
    · rfl

/-! ## Audio lines -/

/-- The event announces audio. -/
def isAudio (lib : StreamLibrary) (event : Option String) : Bool :=
  decide (event.bind lib.parseInt = some 352)

/-- The data lines of a frame that are audio: those read while audio is the
event, and the last one, where audio is the event of the frame. -/
def audioLinesFrom (lib : StreamLibrary) (event : Option String) : List StreamLine → List String
  | [] => []
  | .data value :: lines =>
    if isAudio lib event ||
        ((dataOf none lines).isNone && isAudio lib (eventOf event lines)) then
      value :: audioLinesFrom lib event lines
    else audioLinesFrom lib event lines
  | .event value :: lines => audioLinesFrom lib (some value) lines
  | _ :: lines => audioLinesFrom lib event lines

def audioLines (lib : StreamLibrary) (frame : List StreamLine) : List String :=
  audioLinesFrom lib none frame

/-- The data line that a frame is dispatched with as audio. -/
def dispatchedLine (lib : StreamLibrary) (frame : List StreamLine) : List String :=
  if isAudio lib (eventOf none frame) then (dataOf none frame).toList else []

/-- What an audio line adds to the audio. -/
def bytesOf (lib : StreamLibrary) (line : String) : List UInt8 :=
  match consumeAudioFrame lib line with
  | .ok bytes => bytes
  | .error _ => []

theorem dataOf_some (lines : List StreamLine) : ∀ data : String,
    dataOf (some data) lines = some ((dataOf none lines).getD data) := by
  induction lines with
  | nil => intro data; rfl
  | cons line lines ih =>
    intro data
    cases line with
    | data value =>
      show dataOf (some value) lines = some ((dataOf (some value) lines).getD data)
      rw [ih value]
      rfl
    | blank => exact ih data
    | event value => exact ih data
    | other => exact ih data

/-- What is dispatched is the last of the audio lines, if it is one. -/
theorem dispatchedLine_sublist_from (lib : StreamLibrary) (lines : List StreamLine) :
    ∀ event, ((if isAudio lib (eventOf event lines) then (dataOf none lines).toList else [])
      ).Sublist (audioLinesFrom lib event lines) := by
  induction lines with
  | nil =>
    intro event
    show (if isAudio lib event then [] else []).Sublist []
    split <;> exact List.Sublist.refl []
  | cons line lines ih =>
    intro event
    cases line with
    | event value => exact ih (some value)
    | blank => exact ih event
    | other => exact ih event
    | data value =>
      have hgrow : (audioLinesFrom lib event lines).Sublist
          (audioLinesFrom lib event (.data value :: lines)) := by
        rw [audioLinesFrom]
        split
        · exact List.sublist_cons_self _ _
        · exact List.Sublist.refl _
      show (if isAudio lib (eventOf event lines) then (dataOf (some value) lines).toList else []
        ).Sublist (audioLinesFrom lib event (.data value :: lines))
      by_cases haudio : isAudio lib (eventOf event lines) = true
      · rw [if_pos haudio, dataOf_some]
        cases hlater : dataOf none lines with
        | some later =>
          have hrest := ih event
          rw [if_pos haudio, hlater] at hrest
          exact hrest.trans hgrow
        | none =>
          have hlast : (isAudio lib event || ((none : Option String).isNone && true)) = true :=
            Bool.or_true _
          rw [audioLinesFrom, hlater, haudio, if_pos hlast]
          exact (List.nil_sublist _).cons_cons value
      · rw [if_neg haudio]
        exact List.nil_sublist _

theorem dispatchedLine_sublist (lib : StreamLibrary) (frame : List StreamLine) :
    (dispatchedLine lib frame).Sublist (audioLines lib frame) :=
  dispatchedLine_sublist_from lib frame none

/-! ## Decoded audio is not empty -/

/-- After the first character a byte is owed. -/
theorem a2bFrom_one_ne_nil (cs : List Char) : ∀ left pads padding,
    a2bFrom 1 left pads padding cs ≠ some [] := by
  induction cs with
  | nil => intro left pads padding h; cases h
  | cons c cs ih =>
    intro left pads padding h
    rw [a2bFrom] at h
    by_cases hpad : c = '='
    · rw [if_pos hpad, if_neg (by omega)] at h
      exact ih _ _ _ h
    · rw [if_neg hpad] at h
      cases hvalue : sextet c with
      | none => rw [hvalue] at h; cases h
      | some value =>
        rw [hvalue] at h
        cases padding with
        | true => cases h
        | false =>
          obtain ⟨bytes, _, hbytes⟩ := Option.map_eq_some_iff.mp h
          exact List.cons_ne_nil _ _ hbytes

theorem b64decode_ne_nil {text : String} (h : text ≠ "") : b64decode text ≠ some [] := by
  intro hdecode
  unfold b64decode at hdecode
  cases htext : text.toList with
  | nil => exact h (String.toList_eq_nil_iff.mp htext)
  | cons c cs =>
    rw [htext, List.head?_cons] at hdecode
    by_cases hpad : c = '='
    · rw [if_pos (congrArg some hpad)] at hdecode
      cases hdecode
    · rw [if_neg (fun heq => hpad (Option.some.inj heq)), a2bFrom, if_neg hpad] at hdecode
      cases hvalue : sextet c with
      | none => rw [hvalue] at hdecode; cases hdecode
      | some value =>
        rw [hvalue] at hdecode
        exact a2bFrom_one_ne_nil cs _ _ _ hdecode

theorem consumeAudioFrame_ne_nil {lib : StreamLibrary} {line : String} {bytes : List UInt8}
    (h : consumeAudioFrame lib line = .ok bytes) : bytes ≠ [] := by
  rintro rfl
  unfold consumeAudioFrame at h
  split at h
  · split at h <;> cases h
  · split at h
    · split at h
      · cases h
      next hne =>
        split at h
        next hdecode =>
          cases h
          exact b64decode_ne_nil hne hdecode
        · cases h
    · cases h
  · cases h

/-! ## All or nothing -/

/-- The frame neither ends the session nor breaks it. -/
def Passes (lib : StreamLibrary) (frame : List StreamLine) : Prop :=
  frameFate lib frame = .ignored ∨ ∃ bytes, frameFate lib frame = .audio bytes

/-- The frame is a success frame. -/
def Finishes (lib : StreamLibrary) (frame : List StreamLine) : Prop :=
  ∃ words, frameFate lib frame = .finished words

/-- The audio of the frames. -/
def chunksOf (lib : StreamLibrary) (frames : List (List StreamLine)) : List (List UInt8) :=
  frames.filterMap fun frame =>
    match frameFate lib frame with
    | .audio bytes => some bytes
    | _ => none

/-- The stream ends in an error of the provider, or with the words of the first
success frame and exactly the audio of all audio lines up to it. -/
def AllOrNothing (lib : StreamLibrary) (lines : List String) : Prop :=
  match consumeStream lib lines with
  | .error (.provider _) => True
  | .error _ => False
  | .ok result =>
    ∃ earlier final later, frames lines = earlier ++ final :: later
      ∧ (∀ frame ∈ earlier, ∀ words, frameFate lib frame ≠ .finished words)
      ∧ frameFate lib final = .finished result.textWords
      ∧ (∀ line ∈ (earlier ++ [final]).flatMap (audioLines lib),
          ∃ bytes, consumeAudioFrame lib line = .ok bytes)
      ∧ result.audio = ((earlier ++ [final]).flatMap (audioLines lib)).flatMap (bytesOf lib)

/-- The frame raises what nobody catches: it is audio, and JSON but no object,
or JSON that cannot be read for a reason that is no `ValueError`; or it is the
end of the session, and JSON that cannot be read although it is JSON. -/
def Escapes (lib : StreamLibrary) (frame : List StreamLine) : Prop :=
  ∃ data, dataOf none frame = some data
    ∧ (((eventOf none frame).bind lib.parseInt = some 352
        ∧ ((∃ value, lib.loads data = .ok value ∧ ∀ fields, value ≠ .obj fields)
          ∨ ∃ e, lib.loads data = .error e ∧ e.isValueError = false))
      ∨ ((eventOf none frame).bind lib.parseInt = some 152
        ∧ ∃ e, lib.loads data = .error e ∧ e ≠ .jsonDecodeError))

/-- Of the frames up to the one that decides, none escapes; and where it is a
success frame behind audio, every audio line is the one its frame is dispatched
with. -/
def Unambiguous (lib : StreamLibrary) (lines : List String) : Prop :=
  ∀ earlier frame later, frames lines = earlier ++ frame :: later →
    (∀ passed ∈ earlier, Passes lib passed) →
    ¬ Escapes lib frame
      ∧ ∀ words, frameFate lib frame = .finished words → chunksOf lib earlier ≠ [] →
        ∀ read ∈ earlier ++ [frame], audioLines lib read = dispatchedLine lib read

theorem python_ne_provider (e : PyException) (error : ProviderError) :
    StreamException.python e ≠ .provider error := by
  intro h
  cases h

/-- A provider error is not one that nobody catches. -/
theorem not_escapes {α : Type} (error : ProviderError) :
    ¬ ∃ e, (Except.error (.provider error) : Except StreamException α) = .error e
      ∧ ∀ error, e ≠ .provider error := by
  intro ⟨e, heq, hne⟩
  exact hne error (Except.error.inj heq).symm

theorem consumeAudioFrame_escapes (lib : StreamLibrary) (data : String) :
    (∃ e, consumeAudioFrame lib data = .error e ∧ ∀ error, e ≠ .provider error)
      ↔ (∃ value, lib.loads data = .ok value ∧ ∀ fields, value ≠ .obj fields)
        ∨ ∃ e, lib.loads data = .error e ∧ e.isValueError = false := by
  unfold consumeAudioFrame
  cases hloads : lib.loads data with
  | error e =>
    by_cases hvalue : e.isValueError = true
    · dsimp only
      rw [if_pos hvalue]
      refine ⟨fun h => absurd h (not_escapes _), ?_⟩
      rintro (⟨value, heq, _⟩ | ⟨e', heq, hfalse⟩)
      · cases heq
      · cases heq
        rw [hvalue] at hfalse
        cases hfalse
    · dsimp only
      rw [if_neg hvalue]
      have hfalse : e.isValueError = false := Bool.eq_false_iff.mpr hvalue
      exact ⟨fun _ => .inr ⟨e, rfl, hfalse⟩, fun _ => ⟨.python e, rfl, python_ne_provider e⟩⟩
  | ok value =>
    have hnoError : ¬ ∃ e, (Except.ok value : Except PyException Json) = .error e
        ∧ e.isValueError = false := by
      rintro ⟨e, heq, _⟩
      cases heq
    cases value with
    | obj payload =>
      constructor
      · rintro ⟨e, heq, hne⟩
        dsimp only at heq
        exfalso
        split at heq
        · split at heq
          · exact not_escapes _ ⟨e, heq, hne⟩
          · split at heq
            · cases heq
            · exact not_escapes _ ⟨e, heq, hne⟩
        · exact not_escapes _ ⟨e, heq, hne⟩
      · rintro (⟨value, heq, hne⟩ | h)
        · cases heq
          exact absurd rfl (hne payload)
        · exact absurd h hnoError
    | null | bool | int | real | str | arr =>
      refine ⟨fun _ => .inl ⟨_, rfl, ?_⟩, fun _ => ⟨.attributeError, rfl, ?_⟩⟩
      · intro fields h
        cases h
      · intro error h
        cases h

theorem finishedWords_escapes (lib : StreamLibrary) (data : String) :
    (∃ e, finishedWords lib data = .error e ∧ ∀ error, e ≠ .provider error)
      ↔ ∃ e, lib.loads data = .error e ∧ e ≠ .jsonDecodeError := by
  unfold finishedWords
  cases hloads : lib.loads data with
  | error e =>
    by_cases hjson : e = .jsonDecodeError
    · subst hjson
      refine ⟨fun h => absurd h (not_escapes _), ?_⟩
      rintro ⟨e, heq, hne⟩
      exact absurd (Except.error.inj heq).symm hne
    · constructor
      · exact fun _ => ⟨e, rfl, hjson⟩
      · rintro _
        cases e with
        | jsonDecodeError => exact absurd rfl hjson
        | valueError | syntaxError | typeError | recursionError | memoryError =>
          exact ⟨.python _, rfl, python_ne_provider _⟩
  | ok value =>
    have hnoError : ¬ ∃ e, (Except.ok value : Except PyException Json) = .error e
        ∧ e ≠ .jsonDecodeError := by
      rintro ⟨e, heq, _⟩
      cases heq
    refine ⟨?_, fun h => absurd h hnoError⟩
    rintro ⟨e, heq, hne⟩
    exfalso
    cases value with
    | obj payload =>
      dsimp only at heq
      split at heq
      · split at heq
        · cases heq
        · exact not_escapes _ ⟨e, heq, hne⟩
      · exact not_escapes _ ⟨e, heq, hne⟩
    | null | bool | int | real | str | arr => exact not_escapes _ ⟨e, heq, hne⟩

theorem ofResult_raised_iff {α : Type} {fate : α → FrameFate} (hfate : ∀ a e, fate a ≠ .raised e)
    (result : Except StreamException α) :
    (∃ e, FrameFate.ofResult fate result = .raised e)
      ↔ ∃ e, result = .error e ∧ ∀ error, e ≠ .provider error := by
  cases result with
  | ok a =>
    constructor
    · rintro ⟨e, h⟩
      exact absurd h (hfate a e)
    · rintro ⟨e, h, _⟩
      cases h
  | error e =>
    cases e with
    | provider error =>
      constructor
      · rintro ⟨e, h⟩
        cases h
      · rintro ⟨e, h, hne⟩
        cases h
        exact absurd rfl (hne error)
    | attributeError | python _ =>
      refine ⟨fun _ => ⟨_, rfl, fun error h => ?_⟩, fun _ => ⟨_, rfl⟩⟩
      cases h

/-- The frames that raise what nobody catches. -/
theorem frameFate_raised_iff (lib : StreamLibrary) (frame : List StreamLine) :
    (∃ e, frameFate lib frame = .raised e) ↔ Escapes lib frame := by
  unfold frameFate Escapes
  cases dataOf none frame with
  | none =>
    constructor
    · rintro ⟨e, h⟩
      cases h
    · rintro ⟨data, h, _⟩
      cases h
  | some data =>
    dsimp only
    have hsingle : ∀ p : String → Prop, (∃ data', some data = some data' ∧ p data') ↔ p data := by
      intro p
      constructor
      · rintro ⟨data', heq, h⟩
        cases heq
        exact h
      · exact fun h => ⟨data, rfl, h⟩
    rw [hsingle]
    by_cases haudio : (eventOf none frame).bind lib.parseInt = some 352
    · rw [haudio, ← consumeAudioFrame_escapes]
      have hother : ¬ ((some 352 : Option Int) = some 152
          ∧ ∃ e, lib.loads data = .error e ∧ e ≠ .jsonDecodeError) := by
        rintro ⟨h, _⟩
        cases h
      rw [or_iff_left hother, and_iff_right rfl]
      refine ofResult_raised_iff (fun bytes e h => ?_) (consumeAudioFrame lib data)
      cases h
    · by_cases hfinish : (eventOf none frame).bind lib.parseInt = some 152
      · rw [hfinish, ← finishedWords_escapes]
        have hother : ¬ ((some 152 : Option Int) = some 352
            ∧ ((∃ value, lib.loads data = .ok value ∧ ∀ fields, value ≠ .obj fields)
              ∨ ∃ e, lib.loads data = .error e ∧ e.isValueError = false)) := by
          rintro ⟨h, _⟩
          cases h
        rw [or_iff_right hother, and_iff_right rfl]
        refine ofResult_raised_iff (fun words e h => ?_) (finishedWords lib data)
        cases h
      · constructor
        · rintro ⟨e, h⟩
          exfalso
          split at h
          next heq => exact haudio heq
          next heq => exact hfinish heq
          · cases h
          · cases h
          · cases h
        · rintro (⟨h, _⟩ | ⟨h, _⟩)
          · exact absurd h haudio
          · exact absurd h hfinish

/-! ## Runs -/

/-- Frames that pass leave their audio behind. -/
theorem runFrames_append {lib : StreamLibrary} {earlier : List (List StreamLine)}
    (h : ∀ frame ∈ earlier, Passes lib frame) (rest : List (List StreamLine)) :
    ∀ chunks, runFrames lib none none chunks (earlier ++ rest)
      = runFrames lib none none (chunks ++ chunksOf lib earlier) rest := by
  induction earlier with
  | nil => intro chunks; rw [chunksOf, List.filterMap_nil, List.append_nil, List.nil_append]
  | cons frame earlier ih =>
    intro chunks
    have hrest := ih fun frame' hmem => h frame' (List.mem_cons_of_mem _ hmem)
    rw [List.cons_append, runFrames_cons]
    unfold chunksOf
    rw [List.filterMap_cons]
    rcases h frame List.mem_cons_self with hfate | ⟨bytes, hfate⟩
    · rw [hfate]
      exact hrest chunks
    · rw [hfate]
      show runFrames lib none none (chunks ++ [bytes]) (earlier ++ rest) = _
      rw [hrest, List.append_assoc]
      rfl

/-- The stream, up to the first frame that does not pass. -/
theorem consumeStream_cut {lib : StreamLibrary} {lines : List String}
    {earlier later : List (List StreamLine)} {frame : List StreamLine}
    (hframes : frames lines = earlier ++ frame :: later)
    (h : ∀ frame ∈ earlier, Passes lib frame) :
    ∃ next, consumeStream lib lines
      = afterFrame next (chunksOf lib earlier) (frameFate lib frame) := by
  refine ⟨fun chunks => runFrames lib none none chunks later, ?_⟩
  rw [consumeStream_eq, hframes, runFrames_append h, List.nil_append, runFrames_cons]

/-- What a frame is dispatched with, by what it does. -/
theorem dispatchedLine_audio {lib : StreamLibrary} {frame : List StreamLine} {bytes : List UInt8}
    (h : frameFate lib frame = .audio bytes) :
    ∃ line, dispatchedLine lib frame = [line] ∧ consumeAudioFrame lib line = .ok bytes := by
  unfold frameFate at h
  unfold dispatchedLine isAudio
  cases hdata : dataOf none frame with
  | none => rw [hdata] at h; cases h
  | some line =>
    rw [hdata] at h
    dsimp only at h
    refine ⟨line, ?_⟩
    split at h
    next haudio =>
      rw [if_pos (decide_eq_true haudio)]
      refine ⟨rfl, ?_⟩
      cases hframe : consumeAudioFrame lib line with
      | ok bytes' => rw [hframe] at h; cases h; rfl
      | error e => rw [hframe] at h; cases e <;> cases h
    · cases hframe : finishedWords lib line with
      | ok words => rw [hframe] at h; cases h
      | error e => rw [hframe] at h; cases e <;> cases h
    · cases h
    · cases h
    · cases h

theorem dispatchedLine_nil {lib : StreamLibrary} {frame : List StreamLine}
    (h : frameFate lib frame = .ignored ∨ ∃ words, frameFate lib frame = .finished words) :
    dispatchedLine lib frame = [] := by
  unfold dispatchedLine isAudio
  by_cases haudio : (eventOf none frame).bind lib.parseInt = some 352
  · rw [if_pos (decide_eq_true haudio)]
    cases hdata : dataOf none frame with
    | none => rfl
    | some line =>
      exfalso
      have hfate : frameFate lib frame = .ofResult .audio (consumeAudioFrame lib line) := by
        unfold frameFate
        rw [hdata, haudio]
        rfl
      rw [hfate] at h
      cases hframe : consumeAudioFrame lib line with
      | ok bytes =>
        rw [hframe] at h
        rcases h with h | ⟨words, h⟩ <;> cases h
      | error e =>
        rw [hframe] at h
        cases e <;> rcases h with h | ⟨words, h⟩ <;> cases h
  · rw [if_neg (fun h => haudio (of_decide_eq_true h))]

/-- The audio of frames that pass is that of the lines they are dispatched with. -/
theorem chunksOf_eq {lib : StreamLibrary} (earlier : List (List StreamLine))
    (h : ∀ frame ∈ earlier, Passes lib frame) :
    (chunksOf lib earlier).flatten
        = (earlier.flatMap (dispatchedLine lib)).flatMap (bytesOf lib)
      ∧ ∀ line ∈ earlier.flatMap (dispatchedLine lib),
          ∃ bytes, consumeAudioFrame lib line = .ok bytes := by
  induction earlier with
  | nil => exact ⟨rfl, fun line hmem => absurd hmem List.not_mem_nil⟩
  | cons frame earlier ih =>
    obtain ⟨hbytes, hlines⟩ := ih fun frame' hmem => h frame' (List.mem_cons_of_mem _ hmem)
    unfold chunksOf at hbytes ⊢
    rw [List.filterMap_cons, List.flatMap_cons, List.flatMap_append]
    rcases h frame List.mem_cons_self with hfate | ⟨bytes, hfate⟩
    · rw [hfate, dispatchedLine_nil (.inl hfate)]
      exact ⟨hbytes, hlines⟩
    · obtain ⟨line, hline, hframe⟩ := dispatchedLine_audio hfate
      have hown : [line].flatMap (bytesOf lib) = bytes := by
        rw [List.flatMap_singleton, bytesOf, hframe]
      rw [hfate, hline, hown]
      refine ⟨?_, fun line' hmem => ?_⟩
      · show bytes ++ _ = _
        rw [hbytes]
      · rcases List.mem_append.mp hmem with hmem | hmem
        · rw [List.mem_singleton.mp hmem]
          exact ⟨bytes, hframe⟩
        · exact hlines line' hmem

theorem Passes.not_finished {lib : StreamLibrary} {frame : List StreamLine}
    (h : Passes lib frame) (words : Int) : frameFate lib frame ≠ .finished words := by
  intro hfate
  rcases h with h | ⟨bytes, h⟩ <;> rw [hfate] at h <;> cases h

theorem raised_ne_provider {lib : StreamLibrary} {frame : List StreamLine} {e : StreamException}
    (h : frameFate lib frame = .raised e) (error : ProviderError) : e ≠ .provider error := by
  have hresult : ∀ {α : Type} {fate : α → FrameFate} (result : Except StreamException α),
      (∀ a, fate a ≠ .raised e) → FrameFate.ofResult fate result = .raised e →
      e ≠ .provider error := by
    intro α fate result hfate heq
    cases result with
    | ok a => exact absurd heq (hfate a)
    | error e' =>
      cases e' with
      | provider error' => cases heq
      | attributeError | python _ =>
        cases heq
        intro h
        cases h
  unfold frameFate at h
  split at h
  · cases h
  · split at h
    · refine hresult _ (fun bytes heq => ?_) h
      cases heq
    · refine hresult _ (fun words heq => ?_) h
      cases heq
    · cases h
    · cases h
    · cases h

/-- A run that is all or nothing has lost no audio. -/
theorem AllOrNothing.unambiguous {lib : StreamLibrary} {lines : List String}
    (hstream : AllOrNothing lib lines) : Unambiguous lib lines := by
  intro earlier frame later hframes hearlier
  obtain ⟨next, hrun⟩ := consumeStream_cut hframes hearlier
  refine ⟨fun hescapes => ?_, fun words hfate hchunks => ?_⟩
  · obtain ⟨e, hfate⟩ := (frameFate_raised_iff lib frame).mpr hescapes
    have hne := raised_ne_provider hfate
    have herror : consumeStream lib lines = .error e := by rw [hrun, hfate]; rfl
    unfold AllOrNothing at hstream
    rw [herror] at hstream
    cases e with
    | provider error => exact hne error rfl
    | attributeError | python _ => exact hstream
  · have hresult : consumeStream lib lines = .ok ⟨(chunksOf lib earlier).flatten, words⟩ := by
      rw [hrun, hfate, afterFrame, if_neg (fun h => hchunks (List.isEmpty_iff.mp h))]
    unfold AllOrNothing at hstream
    rw [hresult] at hstream
    obtain ⟨earlier', final, later', hframes', hfirst, hfinal, hlines, haudio⟩ := hstream
    have hnone : ∀ frame ∈ earlier, ¬ Finishes lib frame := by
      rintro frame hmem ⟨words, h⟩
      exact (hearlier frame hmem).not_finished words h
    have hnone' : ∀ frame ∈ earlier', ¬ Finishes lib frame := by
      rintro frame hmem ⟨words, h⟩
      exact hfirst frame hmem words h
    -- there is one first success frame
    obtain ⟨rfl, rfl, _⟩ := cut_unique earlier earlier' (hframes.symm.trans hframes')
      hnone ⟨words, hfate⟩ hnone' ⟨_, hfinal⟩
    have hfinished : dispatchedLine lib frame = [] := dispatchedLine_nil (.inr ⟨words, hfate⟩)
    have hdispatched : (earlier ++ [frame]).flatMap (dispatchedLine lib)
        = earlier.flatMap (dispatchedLine lib) := by
      rw [List.flatMap_append, List.flatMap_singleton, hfinished, List.append_nil]
    have hbytes : ((earlier ++ [frame]).flatMap (dispatchedLine lib)).flatMap (bytesOf lib)
        = ((earlier ++ [frame]).flatMap (audioLines lib)).flatMap (bytesOf lib) := by
      rw [hdispatched, ← (chunksOf_eq earlier hearlier).1]
      exact haudio
    have hall := eq_of_sublist_of_flatMap_eq
      (List.Sublist.flatMap_right (earlier ++ [frame])
        fun frame _ => dispatchedLine_sublist lib frame)
      (fun line hmem => by
        obtain ⟨bytes, hframe⟩ := hlines line hmem
        rw [bytesOf, hframe]
        exact consumeAudioFrame_ne_nil hframe) hbytes
    intro frame' hmem
    exact (eq_of_flatMap_eq (dispatchedLine_sublist lib) _ hall frame' hmem).symm

/-- Where no audio is lost and nothing escapes, the run is all or nothing. -/
theorem Unambiguous.allOrNothing {lib : StreamLibrary} {lines : List String}
    (hlines : Unambiguous lib lines) : AllOrNothing lib lines := by
  unfold AllOrNothing
  rcases exists_cut (fun frame => ¬ Passes lib frame) (frames lines) with
    hpass | ⟨earlier, frame, later, hframes, hearlier, hframe⟩
  · have hend : consumeStream lib lines = .error streamTerminated := by
      have hrun := runFrames_append (fun frame hmem => not_not.mp (hpass frame hmem)) [] []
      rw [consumeStream_eq]
      rw [List.append_nil] at hrun
      exact hrun
    rw [hend]
    trivial
  · have hearlier' : ∀ frame ∈ earlier, Passes lib frame :=
      fun frame hmem => not_not.mp (hearlier frame hmem)
    obtain ⟨next, hrun⟩ := consumeStream_cut hframes hearlier'
    obtain ⟨hescapes, hlost⟩ := hlines earlier frame later hframes hearlier'
    rw [hrun]
    cases hfate : frameFate lib frame with
    | ignored => exact absurd (.inl hfate) hframe
    | audio bytes => exact absurd (.inr ⟨bytes, hfate⟩) hframe
    | failed error => trivial
    | raised e => exact absurd ((frameFate_raised_iff lib frame).mp ⟨e, hfate⟩) hescapes
    | finished words =>
      by_cases hchunks : (chunksOf lib earlier).isEmpty = true
      · rw [afterFrame, if_pos hchunks]
        trivial
      · rw [afterFrame, if_neg hchunks]
        have hkept := hlost words hfate fun h => hchunks (List.isEmpty_iff.mpr h)
        have hlines : (earlier ++ [frame]).flatMap (audioLines lib)
            = earlier.flatMap (dispatchedLine lib) := by
          rw [List.flatMap_append, List.flatMap_singleton,
            hkept frame (List.mem_append_right _ List.mem_cons_self),
            dispatchedLine_nil (.inr ⟨words, hfate⟩), List.append_nil]
          refine List.flatMap_congr fun frame' hmem => ?_
          exact hkept frame' (List.mem_append_left _ hmem)
        obtain ⟨hbytes, hdecoded⟩ := chunksOf_eq earlier hearlier'
        refine ⟨earlier, frame, later, hframes,
          fun frame' hmem => (hearlier' frame' hmem).not_finished, hfate, ?_, ?_⟩
        · rw [hlines]
          exact hdecoded
        · rw [hlines]
          exact hbytes

/-- **When the stream is all or nothing.** -/
theorem consumeStream_iff (lib : StreamLibrary) (lines : List String) :
    AllOrNothing lib lines ↔ Unambiguous lib lines :=
  ⟨AllOrNothing.unambiguous, Unambiguous.allOrNothing⟩

/-- The data of an audio frame. -/
def audioText (encoded : String) : String := "\x7b\"code\":0,\"data\":\"" ++ encoded ++ "\"\x7d"

/-- The data of a success frame. -/
def successText : String := "\x7b\"code\":20000000,\"usage\":\x7b\"text_words\":6\x7d\x7d"

/-- Python, on these. -/
def samplePython : StreamLibrary where
  parseInt text :=
    if text = "352" then some 352 else if text = "152" then some 152 else none
  loads text :=
    if text = audioText "QUFB" then .ok (.obj [("code", .int 0), ("data", .str "QUFB")])
    else if text = audioText "QkJC" then .ok (.obj [("code", .int 0), ("data", .str "QkJC")])
    else if text = successText then
      .ok (.obj [("code", .int 20000000), ("usage", .obj [("text_words", .int 6)])])
    else if text = "[]" then .ok (.arr [])
    else .error .jsonDecodeError

/-- An audio frame that is a list. -/
def listStream : List String := ["event: 352", "data: []", ""]

/-- Two audio frames without the blank line between them. -/
def joinedStream : List String :=
  ["event: 352", "data: " ++ audioText "QUFB", "event: 352", "data: " ++ audioText "QkJC", "",
   "event: 152", "data: " ++ successText, ""]

def joinedFrame : List StreamLine :=
  [.event "352", .data (audioText "QUFB"), .event "352", .data (audioText "QkJC"), .blank]

def successFrame : List StreamLine := [.event "152", .data successText, .blank]

/-- The list raises what nobody catches, and of the joined frames the first is
dropped without an error. -/
theorem listStream_escapes :
    ¬ AllOrNothing samplePython listStream
      ∧ ¬ AllOrNothing samplePython joinedStream
      ∧ consumeStream samplePython listStream = .error .attributeError
      ∧ consumeStream samplePython joinedStream = .ok ⟨[66, 66, 66], 6⟩ := by
  have hlist : consumeStream samplePython listStream = .error .attributeError := by
    with_unfolding_all rfl
  have hjoined : consumeStream samplePython joinedStream = .ok ⟨[66, 66, 66], 6⟩ := by
    with_unfolding_all rfl
  refine ⟨fun h => ?_, fun h => ?_, hlist, hjoined⟩
  · unfold AllOrNothing at h
    rw [hlist] at h
    exact h
  · have hframes : frames joinedStream = [joinedFrame] ++ successFrame :: [] := by
      with_unfolding_all rfl
    have haudio : frameFate samplePython joinedFrame = .audio [66, 66, 66] := by
      with_unfolding_all rfl
    have hsuccess : frameFate samplePython successFrame = .finished 6 := by
      with_unfolding_all rfl
    have hpasses : ∀ passed ∈ [joinedFrame], Passes samplePython passed := by
      intro passed hmem
      rw [List.mem_singleton.mp hmem]
      exact .inr ⟨_, haudio⟩
    have hchunks : chunksOf samplePython [joinedFrame] ≠ [] := by
      unfold chunksOf
      rw [List.filterMap_cons, haudio]
      exact List.cons_ne_nil _ _
    have hkept := (h.unambiguous _ _ _ hframes hpasses).2 6 hsuccess hchunks joinedFrame
      List.mem_cons_self
    have hlost : (audioLines samplePython joinedFrame).length = 2
        ∧ (dispatchedLine samplePython joinedFrame).length = 1 := by
      with_unfolding_all exact ⟨rfl, rfl⟩
    rw [hkept, hlost.2] at hlost
    cases hlost.1

end SpeechStream

end AgentRuntime
