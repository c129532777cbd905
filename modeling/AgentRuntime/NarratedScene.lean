import AgentRuntime.AudioJobs
import AgentRuntime.NarrationSegments

/-!
# The narration of a scene

`_narrate_scene` has the segments of a body spoken one after the other and gives
up the scene with the first that is not. A segment is refused before it is paid
for when it is blank, and `split_narration_segments` promises only that none is
empty: the white space behind the last sentence end can be left over as a
segment of its own, and a long sentence can be cut into a block of white space.
The segments before it have been paid for then.

`narrateScene_iff` says for which bodies this does not happen, in a world where
every operation of the ledger, the provider and the store succeeds (`Succeeds`).
-/

namespace AgentRuntime

open Cutting

/-- What the narration of a scene works with. An operation without a result has
failed or was refused; a call of the provider fails with a code. -/
structure NarrationWorld (σ Audio Entry : Type) where
  /-- `ctx.should_stop`. -/
  shouldStop : σ → Option String
  /-- `find_reusable_uploaded_asset`, for the whole body. -/
  findReusable : σ → Option Entry
  /-- `find_job`, for the segment with the index. -/
  findJob : Nat → String → σ → Option MemoirAudioJob
  reserveJob : Nat → String → σ → Option MemoirAudioJob × σ
  markSubmitting : MemoirAudioJob → σ → Option Unit × σ
  commitLedger : σ → Option Unit × σ
  /-- The process semaphore of `_call_with_slot`. -/
  acquireSlot : σ → Except String Unit × σ
  /-- `_read_sse`: the audio and its `text_words`. -/
  readSse : String → σ → Except String (Audio × Int) × σ
  markProviderFailure : MemoirAudioJob → String → σ → σ
  /-- `mark_submitted` and `settle_tts_usage`. -/
  settle : MemoirAudioJob → Int → σ → Option Unit × σ
  heartbeat : σ → σ
  /-- `concat_mp3_segments`. -/
  concat : List Audio → σ → Option Audio × σ
  /-- The zero-cost slot of the narration, with the entry if it is reused. -/
  reserveNarration : σ → Option (MemoirAudioJob × Option Entry) × σ
  recordObjectKey : MemoirAudioJob → σ → Option Unit × σ
  uploadBytes : MemoirAudioJob → Audio → σ → Option Unit × σ
  recordUpload : MemoirAudioJob → Audio → σ → Option Unit × σ
  narrationEntry : MemoirAudioJob → Audio → Entry

/-- The narration on its way: what has been paid for, and what was joined into
the narration. -/
structure NarrationState (σ Audio : Type) where
  world : σ
  paid : List Audio := []
  joined : List Audio := []

/-- A part of the narration, without a result where the scene is given up. -/
def NarrationM (σ Audio α : Type) := NarrationState σ Audio → Option α × NarrationState σ Audio

namespace NarrationM

variable {σ Audio α β : Type}

instance : Monad (NarrationM σ Audio) where
  pure a := fun s => (some a, s)
  bind m f := fun s =>
    match m s with
    | (some a, s') => f a s'
    | (none, s') => (none, s')

theorem bind_of_some {m : NarrationM σ Audio α} {f : α → NarrationM σ Audio β}
    {s s' : NarrationState σ Audio} {a : α} (h : m s = (some a, s')) :
    (m >>= f) s = f a s' := by
  show (match m s with
    | (some a, s') => f a s'
    | (none, s') => (none, s')) = _
  rw [h]

theorem bind_of_none {m : NarrationM σ Audio α} {f : α → NarrationM σ Audio β}
    {s s' : NarrationState σ Audio} (h : m s = (none, s')) : (m >>= f) s = (none, s') := by
  show (match m s with
    | (some a, s') => f a s'
    | (none, s') => (none, s')) = _
  rw [h]

def giveUp : NarrationM σ Audio α := fun s => (none, s)

def ensure (holds : σ → Bool) : NarrationM σ Audio Unit := fun s =>
  if holds s.world then (some (), s) else (none, s)

def operate (operation : σ → Option α × σ) : NarrationM σ Audio α := fun s =>
  ((operation s.world).1, { s with world := (operation s.world).2 })

def change (f : σ → σ) : NarrationM σ Audio Unit := fun s =>
  (some (), { s with world := f s.world })

variable {s : NarrationState σ Audio}

theorem ensure_bind {holds : σ → Bool} (h : holds s.world = true)
    (f : Unit → NarrationM σ Audio β) :
    (ensure holds >>= f) s = f () s :=
  bind_of_some (if_pos h)

theorem operate_bind {operation : σ → Option α × σ} {a : α} {world : σ}
    (h : operation s.world = (some a, world)) (f : α → NarrationM σ Audio β) :
    (operate operation >>= f) s = f a { s with world := world } := by
  refine bind_of_some ?_
  unfold operate
  rw [h]

theorem change_bind (g : σ → σ) (f : Unit → NarrationM σ Audio β) :
    (change g >>= f) s = f () { s with world := g s.world } :=
  bind_of_some rfl

end NarrationM

namespace Narration

open NarrationM

variable {σ Audio Entry : Type}

/-- `MAX_SUBMIT_ATTEMPTS`. -/
def maxSubmitAttempts : Nat := 2

/-- `_RATE_LIMIT_CODES`. -/
def rateLimitCodes : List String := ["TTS_HTTP_429", "MUSIC_HTTP_429"]

/-- `_precheck`, with what `should_stop` says. -/
def precheck (stop : Option String) (text : String) : Bool := stop.isNone && !isBlank text

/-- The input check of `VolcanoTTSClient.synthesize_segment`. -/
def checkInput (text : String) : Except String Unit :=
  if isBlank text then .error "TTS_TEXT_INVALID" else .ok ()

/-- `_segment_slot_retryable`. -/
def segmentSlotRetryable (existing : MemoirAudioJob) : Bool :=
  decide (existing.state = .failed) && existing.settledCost.isNone &&
    decide (existing.attempt < maxSubmitAttempts)

/-- The reader of the stream; what it returns has been paid for. -/
def readPaid (w : NarrationWorld σ Audio Entry) (text : String) :
    NarrationM σ Audio (Except String (Audio × Int)) := fun s =>
  match w.readSse text s.world with
  | (.error code, world) => (some (.error code), { s with world := world })
  | (.ok result, world) =>
    (some (.ok result), { s with world := world, paid := s.paid ++ [result.1] })

/-- `VolcanoTTSClient.synthesize_segment`, called under a slot. -/
def callTts (w : NarrationWorld σ Audio Entry) (text : String) :
    NarrationM σ Audio (Except String (Audio × Int)) := fun s =>
  match w.acquireSlot s.world with
  | (.error code, world) => (some (.error code), { s with world := world })
  | (.ok _, world) =>
    match checkInput text with
    | .error code => (some (.error code), { s with world := world })
    | .ok _ => readPaid w text { s with world := world }

/-- `_synthesize_segment`, with the attempts that are left. -/
def synthesizeSegment (w : NarrationWorld σ Audio Entry) (index : Nat) (text : String) :
    Nat → NarrationM σ Audio Audio
  | 0 => giveUp
  | attempts + 1 => do
    ensure fun world => precheck (w.shouldStop world) text
    ensure fun world => (w.findJob index text world).all segmentSlotRetryable
    let job ← operate (w.reserveJob index text)
    operate (w.markSubmitting job)
    operate w.commitLedger
    match ← callTts w text with
    | .error code => do
      change (w.markProviderFailure job code)
      if code ∈ rateLimitCodes then synthesizeSegment w index text attempts else giveUp
    | .ok (audio, textWords) => do
      operate (w.settle job textWords)
      operate w.commitLedger
      change w.heartbeat
      pure audio

/-- The segments, one after the other. -/
def synthesizeSegments (w : NarrationWorld σ Audio Entry) :
    Nat → List String → NarrationM σ Audio (List Audio)
  | _, [] => pure []
  | index, text :: texts => do
    let audio ← synthesizeSegment w index text maxSubmitAttempts
    let parts ← synthesizeSegments w (index + 1) texts
    pure (audio :: parts)

/-- `concat_mp3_segments`, on what becomes the narration. -/
def join (w : NarrationWorld σ Audio Entry) (parts : List Audio) : NarrationM σ Audio Audio :=
  fun s =>
    ((w.concat parts s.world).1, { s with world := (w.concat parts s.world).2, joined := parts })

/-- `_upload_narration`. -/
def uploadNarration (w : NarrationWorld σ Audio Entry) (parts : List Audio) :
    NarrationM σ Audio Entry := do
  let audio ← join w parts
  match ← operate w.reserveNarration with
  | (_, some entry) => pure entry
  | (job, none) => do
    operate (w.recordObjectKey job)
    operate w.commitLedger
    operate (w.uploadBytes job audio)
    operate (w.recordUpload job audio)
    -- whether the last commit went through is not looked at
    change fun world => (w.commitLedger world).2
    change w.heartbeat
    pure (w.narrationEntry job audio)

/-- `_narrate_scene`. -/
def narrateScene (w : NarrationWorld σ Audio Entry) (body : String) : NarrationM σ Audio Entry :=
  fun s =>
    match w.findReusable s.world with
    | some entry => (some entry, s)
    | none =>
      if (splitNarrationSegments body).isEmpty then (none, s)
      else (do
        let parts ← synthesizeSegments w 0 (splitNarrationSegments body)
        uploadNarration w parts) s

end Narration

/-- Every operation succeeds, and nothing stops the narration. -/
structure NarrationWorld.Succeeds {σ Audio Entry : Type} (w : NarrationWorld σ Audio Entry) :
    Prop where
  shouldStop : ∀ s, w.shouldStop s = none
  findJob : ∀ index text s, (w.findJob index text s).all Narration.segmentSlotRetryable = true
  reserveJob : ∀ index text s, ∃ job s', w.reserveJob index text s = (some job, s')
  markSubmitting : ∀ job s, ∃ s', w.markSubmitting job s = (some (), s')
  commitLedger : ∀ s, ∃ s', w.commitLedger s = (some (), s')
  acquireSlot : ∀ s, ∃ s', w.acquireSlot s = (.ok (), s')
  readSse : ∀ text s, ∃ result s', w.readSse text s = (.ok result, s')
  settle : ∀ job words s, ∃ s', w.settle job words s = (some (), s')
  concat : ∀ parts s, ∃ audio s', w.concat parts s = (some audio, s')
  reserveNarration : ∀ s, ∃ reserved s', w.reserveNarration s = (some reserved, s')
  recordObjectKey : ∀ job s, ∃ s', w.recordObjectKey job s = (some (), s')
  uploadBytes : ∀ job audio s, ∃ s', w.uploadBytes job audio s = (some (), s')
  recordUpload : ∀ job audio s, ∃ s', w.recordUpload job audio s = (some (), s')

namespace Narration

open NarrationM

variable {σ Audio Entry : Type} {w : NarrationWorld σ Audio Entry}

/-! ## A narration all of whose segments can be spoken -/

theorem callTts_spoken (hw : w.Succeeds) {text : String} (htext : isBlank text = false)
    (s : NarrationState σ Audio) :
    ∃ audio words world, callTts w text s
      = (some (.ok (audio, words)), ⟨world, s.paid ++ [audio], s.joined⟩) := by
  obtain ⟨slot, hslot⟩ := hw.acquireSlot s.world
  obtain ⟨⟨audio, words⟩, world, hread⟩ := hw.readSse text slot
  refine ⟨audio, words, world, ?_⟩
  have hinput : checkInput text = .ok () := if_neg (by rw [htext]; exact Bool.false_ne_true)
  simp only [callTts, hslot, hinput, readPaid, hread]

/-- A segment that is not blank is spoken, at the first attempt. -/
theorem synthesizeSegment_spoken (hw : w.Succeeds) {text : String} (htext : isBlank text = false)
    (index : Nat) (s : NarrationState σ Audio) :
    ∃ audio world, synthesizeSegment w index text maxSubmitAttempts s
      = (some audio, ⟨world, s.paid ++ [audio], s.joined⟩) := by
  have hcheck : precheck (w.shouldStop s.world) text = true := by
    rw [hw.shouldStop, precheck, htext]
    rfl
  obtain ⟨job, reserved, hreserve⟩ := hw.reserveJob index text s.world
  obtain ⟨submitting, hsubmitting⟩ := hw.markSubmitting job reserved
  obtain ⟨committed, hcommit⟩ := hw.commitLedger submitting
  obtain ⟨audio, words, spoken, hcall⟩ :=
    callTts_spoken hw htext { s with world := committed }
  obtain ⟨settled, hsettle⟩ := hw.settle job words spoken
  obtain ⟨final, hfinal⟩ := hw.commitLedger settled
  refine ⟨audio, w.heartbeat final, ?_⟩
  show synthesizeSegment w index text (1 + 1) s = _
  rw [synthesizeSegment, ensure_bind hcheck, ensure_bind (hw.findJob index text s.world),
    operate_bind hreserve, operate_bind hsubmitting, operate_bind hcommit, bind_of_some hcall]
  show (operate (w.settle job words) >>= _) _ = _
  rw [operate_bind hsettle, operate_bind hfinal, change_bind]
  rfl

theorem synthesizeSegments_spoken (hw : w.Succeeds) (texts : List String) :
    ∀ (index : Nat) (s : NarrationState σ Audio), (∀ text ∈ texts, isBlank text = false) →
    ∃ parts world, synthesizeSegments w index texts s
      = (some parts, ⟨world, s.paid ++ parts, s.joined⟩) := by
  induction texts with
  | nil =>
    intro index s _
    exact ⟨[], s.world, by rw [List.append_nil]; rfl⟩
  | cons text texts ih =>
    intro index s htexts
    obtain ⟨audio, world, hfirst⟩ := synthesizeSegment_spoken hw
      (htexts text List.mem_cons_self) index s
    obtain ⟨parts, world', hrest⟩ := ih (index + 1) ⟨world, s.paid ++ [audio], s.joined⟩
      fun text' hmem => htexts text' (List.mem_cons_of_mem _ hmem)
    refine ⟨audio :: parts, world', ?_⟩
    rw [synthesizeSegments, bind_of_some hfirst, bind_of_some hrest, List.append_assoc]
    rfl

/-- A blank segment is refused before anything is done for it. -/
theorem synthesizeSegment_blank {text : String} (htext : isBlank text = true) (index : Nat)
    (s : NarrationState σ Audio) :
    synthesizeSegment w index text maxSubmitAttempts s = (none, s) := by
  have hcheck : ¬ precheck (w.shouldStop s.world) text = true := by
    rw [precheck, htext, Bool.not_true, Bool.and_false]
    exact Bool.false_ne_true
  exact bind_of_none (if_neg hcheck)

/-- The segments before a blank one have been paid for. -/
theorem synthesizeSegments_given_up (hw : w.Succeeds) {blank : String}
    (hblank : isBlank blank = true) (later : List String) (earlier : List String) :
    ∀ (index : Nat) (s : NarrationState σ Audio), (∀ text ∈ earlier, isBlank text = false) →
    ∃ parts world, synthesizeSegments w index (earlier ++ blank :: later) s
        = (none, ⟨world, s.paid ++ parts, s.joined⟩) ∧ parts.length = earlier.length := by
  induction earlier with
  | nil =>
    intro index s _
    refine ⟨[], s.world, ?_, rfl⟩
    rw [List.append_nil]
    exact bind_of_none (synthesizeSegment_blank hblank index s)
  | cons text earlier ih =>
    intro index s hearlier
    obtain ⟨audio, world, hfirst⟩ := synthesizeSegment_spoken hw
      (hearlier text List.mem_cons_self) index s
    obtain ⟨parts, world', hrest, hlength⟩ := ih (index + 1) ⟨world, s.paid ++ [audio], s.joined⟩
      fun text' hmem => hearlier text' (List.mem_cons_of_mem _ hmem)
    refine ⟨audio :: parts, world', ?_, congrArg (· + 1) hlength⟩
    rw [List.cons_append, synthesizeSegments, bind_of_some hfirst, bind_of_none hrest,
      List.append_assoc]
    rfl

theorem uploadNarration_done (hw : w.Succeeds) (parts : List Audio) (s : NarrationState σ Audio) :
    ∃ entry world, uploadNarration w parts s = (some entry, ⟨world, s.paid, parts⟩) := by
  obtain ⟨audio, joined, hconcat⟩ := hw.concat parts s.world
  have hjoin : join w parts s = (some audio, ⟨joined, s.paid, parts⟩) := by
    unfold join
    rw [hconcat]
  obtain ⟨⟨job, entry⟩, reserved, hreserve⟩ := hw.reserveNarration joined
  cases entry with
  | some entry =>
    refine ⟨entry, reserved, ?_⟩
    rw [uploadNarration, bind_of_some hjoin, operate_bind hreserve]
    rfl
  | none =>
    obtain ⟨keyed, hkey⟩ := hw.recordObjectKey job reserved
    obtain ⟨committed, hcommit⟩ := hw.commitLedger keyed
    obtain ⟨uploaded, hupload⟩ := hw.uploadBytes job audio committed
    obtain ⟨recorded, hrecord⟩ := hw.recordUpload job audio uploaded
    refine ⟨w.narrationEntry job audio, w.heartbeat (w.commitLedger recorded).2, ?_⟩
    rw [uploadNarration, bind_of_some hjoin, operate_bind hreserve]
    show (operate (w.recordObjectKey job) >>= _) _ = _
    rw [operate_bind hkey, operate_bind hcommit, operate_bind hupload, operate_bind hrecord,
      change_bind, change_bind]
    rfl

/-- The scene has its narration, of all that was paid for. -/
def Narrated (result : Option Entry × NarrationState σ Audio) : Prop :=
  result.1.isSome = true ∧ result.2.joined = result.2.paid

theorem narrateScene_done (hw : w.Succeeds) {body : String}
    (hsegments : splitNarrationSegments body ≠ [])
    (hspoken : ∀ segment ∈ splitNarrationSegments body, isBlank segment = false) (world : σ) :
    Narrated (narrateScene w body ⟨world, [], []⟩) := by
  unfold narrateScene
  cases w.findReusable world with
  | some entry => exact ⟨rfl, rfl⟩
  | none =>
    obtain ⟨parts, synthesized, hparts⟩ :=
      synthesizeSegments_spoken hw _ 0 ⟨world, [], []⟩ hspoken
    obtain ⟨entry, uploaded, hupload⟩ :=
      uploadNarration_done hw parts ⟨synthesized, [] ++ parts, []⟩
    have hne : ¬ (splitNarrationSegments body).isEmpty = true :=
      fun h => hsegments (List.isEmpty_iff.mp h)
    show Narrated (if (splitNarrationSegments body).isEmpty then (none, _) else _)
    rw [if_neg hne, bind_of_some hparts, hupload]
    exact ⟨rfl, rfl⟩

/-- With a blank segment a new narration is given up, and what came before the
segment is paid for. -/
theorem narrateScene_given_up (hw : w.Succeeds) {body blank : String}
    {earlier later : List String} {world : σ} (hnew : w.findReusable world = none)
    (hsegments : splitNarrationSegments body = earlier ++ blank :: later)
    (hearlier : ∀ text ∈ earlier, isBlank text = false) (hblank : isBlank blank = true) :
    ∃ parts world', narrateScene w body ⟨world, [], []⟩ = (none, ⟨world', parts, []⟩)
      ∧ parts.length = earlier.length := by
  obtain ⟨parts, world', hgiven, hlength⟩ :=
    synthesizeSegments_given_up hw hblank later earlier 0 ⟨world, [], []⟩ hearlier
  have hne : ¬ (earlier ++ blank :: later).isEmpty = true := by
    rw [List.isEmpty_iff]
    exact List.append_ne_nil_of_right_ne_nil _ (List.cons_ne_nil _ _)
  refine ⟨parts, world', ?_, hlength⟩
  unfold narrateScene
  rw [hnew, hsegments]
  show (if (earlier ++ blank :: later).isEmpty then (none, _) else _) = _
  rw [if_neg hne, bind_of_none hgiven, List.nil_append]

/-! ## Which bodies can be spoken -/

/-- No block of a long sentence is white space, and what there is of white space
behind the last sentence end finds room in the segment that is open there. The
length of that segment is counted sentence by sentence: a long one leaves none
open, and one that does not fit opens the next. -/
def Speakable (body : String) : Prop :=
  (∀ sentence ∈ cutAfter endsSentence body.toList, 200 < sentence.length →
    ∀ block ∈ blocks 200 sentence, block.all isSpace = false)
  ∧ ∀ earlier tail, cutAfter endsSentence body.toList = earlier ++ [tail] →
    tail.all isSpace = true → tail.length ≤ 200 →
    0 < heldLength 200 0 earlier ∧ heldLength 200 0 earlier + tail.length ≤ 200

/-- A character that can be spoken. -/
def spoken (c : Char) : Bool := !isSpace c

theorem any_spoken_iff (text : List Char) :
    text.any spoken = true ↔ text.all isSpace = false := by
  have hnot : text.any spoken = !text.all isSpace := List.not_all_eq_any_not.symm
  rw [hnot, Bool.not_eq_true']

theorem spoken_of_endsSentence {c : Char} (h : endsSentence c = true) : spoken c = true := by
  have hends : c ∈ sentenceTerminals := of_decide_eq_true h
  have hall : sentenceTerminals.all spoken = true := by decide
  exact List.all_eq_true.mp hall c hends

/-- A sentence that has its end is not blank. -/
theorem any_spoken_of_ends {sentence : List Char} (h : sentence.any endsSentence = true) :
    sentence.any spoken = true := by
  obtain ⟨c, hmem, hends⟩ := List.any_eq_true.mp h
  exact List.any_eq_true.mpr ⟨c, hmem, spoken_of_endsSentence hends⟩

theorem toList_ne_nil {body : String} (h : isBlank body = false) : body.toList ≠ [] := by
  intro hnil
  unfold isBlank at h
  rw [hnil] at h
  cases h

/-- The segments are spoken, all of them, where the body is speakable. -/
theorem segments_spoken_iff {body : String} (hbody : isBlank body = false) :
    (∀ segment ∈ splitNarrationSegments body, isBlank segment = false) ↔ Speakable body := by
  have hcut : cutAfter endsSentence body.toList ≠ [] := cutAfter_ne_nil (toList_ne_nil hbody)
  obtain ⟨earlier, tail, hsentences⟩ : ∃ earlier tail,
      cutAfter endsSentence body.toList = earlier ++ [tail] := by
    rcases List.eq_nil_or_concat (cutAfter endsSentence body.toList) with hnil | ⟨init, last, h⟩
    · exact absurd hnil hcut
    · exact ⟨init, last, by rw [h, List.concat_eq_append]⟩
  have hearlier : ∀ sentence ∈ earlier, sentence.any spoken = true :=
    fun sentence hmem => any_spoken_of_ends (end_of_cutAfter _ _ hsentences sentence hmem)
  have htail : tail ≠ [] := ne_nil_of_mem_cutAfter tail
    (by rw [hsentences]; exact List.mem_append_right _ List.mem_cons_self)
  have hsegments : (∀ segment ∈ splitNarrationSegments body, isBlank segment = false)
      ↔ ∀ piece ∈ fill segmentMaxChars [] (earlier ++ [tail]), piece.any spoken = true := by
    rw [splitNarrationSegments_eq hbody, hsentences, List.forall_mem_map]
    refine forall₂_congr fun piece _ => ?_
    rw [any_spoken_iff, isBlank, String.toList_ofList]
  rw [hsegments, fill_good_iff htail earlier [] (.inl rfl) hearlier, Speakable, hsentences]
  refine and_congr ?_ ?_
  · refine forall₃_congr fun sentence _ _ => forall₂_congr fun block _ => ?_
    exact any_spoken_iff block
  · constructor
    · intro hplaced earlier' tail' heq hblank hshort
      obtain ⟨rfl, hsingle⟩ := List.append_inj' heq rfl
      obtain rfl : tail = tail' := (List.cons.inj hsingle).1
      rcases hplaced with hspoken | hlong | hroom
      · rw [any_spoken_iff, hblank] at hspoken
        cases hspoken
      · exact absurd hshort (Nat.not_le_of_lt hlong)
      · exact hroom
    · intro hroom
      by_cases hspoken : tail.any spoken = true
      · exact .inl hspoken
      · by_cases hlong : segmentMaxChars < tail.length
        · exact .inr (.inl hlong)
        · refine .inr (.inr (hroom earlier tail rfl ?_ (Nat.le_of_not_lt hlong)))
          cases hall : tail.all isSpace with
          | true => rfl
          | false => exact absurd ((any_spoken_iff tail).mpr hall) hspoken

theorem precheck_and_checkInput (segment : String) :
    (precheck none segment = true ∧ checkInput segment = .ok ()) ↔ isBlank segment = false := by
  unfold precheck checkInput
  cases isBlank segment with
  | true =>
    constructor
    · intro h
      cases h.1
    · intro h
      cases h
  | false => exact ⟨fun _ => rfl, fun _ => ⟨rfl, rfl⟩⟩

/-- **When a scene is narrated.** Every segment passes both checks, and the
scene has its narration of all that was paid for, exactly where the body is
speakable. -/
theorem narrateScene_iff (w : NarrationWorld σ Audio Entry) (hw : w.Succeeds) (body : String)
    (hbody : isBlank body = false) (world : σ) :
    ((∀ segment ∈ splitNarrationSegments body,
        precheck none segment = true ∧ checkInput segment = .ok ())
      ∧ Narrated (narrateScene w body ⟨world, [], []⟩)) ↔ Speakable body := by
  have hchecks : (∀ segment ∈ splitNarrationSegments body,
        precheck none segment = true ∧ checkInput segment = .ok ())
      ↔ ∀ segment ∈ splitNarrationSegments body, isBlank segment = false :=
    forall₂_congr fun segment _ => precheck_and_checkInput segment
  rw [hchecks, ← segments_spoken_iff hbody]
  refine ⟨fun h => h.1, fun hspoken => ⟨hspoken, narrateScene_done hw ?_ hspoken world⟩⟩
  intro hnil
  have hjoin := join_splitNarrationSegments hbody
  rw [hnil] at hjoin
  rw [← hjoin] at hbody
  cases hbody

/-- A world in which every operation succeeds. -/
def plainNarration : NarrationWorld Unit String String where
  shouldStop _ := none
  findReusable _ := none
  findJob _ _ _ := none
  reserveJob _ text _ :=
    (some { jobId := text, businessId := "work-1", currency := "CNY",
            slot := ⟨"run-1", 1, "2.3.0", .segment, "scene-1", 0, text⟩,
            leaseOwner := .named "audio", updatedAt := 0 }, ())
  markSubmitting _ _ := (some (), ())
  commitLedger _ := (some (), ())
  acquireSlot _ := (.ok (), ())
  readSse text _ := (.ok (text, 1), ())
  markProviderFailure _ _ _ := ()
  settle _ _ _ := (some (), ())
  heartbeat _ := ()
  concat parts _ := (some (String.join parts), ())
  reserveNarration _ :=
    (some ({ jobId := "narration", businessId := "work-1", currency := "CNY",
             slot := ⟨"run-1", 1, "2.3.0", .narration, "scene-1", noSegmentIndex, "body"⟩,
             leaseOwner := .named "audio", updatedAt := 0 }, none), ())
  recordObjectKey _ _ := (some (), ())
  uploadBytes _ _ _ := (some (), ())
  recordUpload _ _ _ := (some (), ())
  narrationEntry _ audio := audio

theorem plainNarration_succeeds : plainNarration.Succeeds where
  shouldStop _ := rfl
  findJob _ _ _ := rfl
  reserveJob _ _ _ := ⟨_, _, rfl⟩
  markSubmitting _ _ := ⟨_, rfl⟩
  commitLedger _ := ⟨_, rfl⟩
  acquireSlot _ := ⟨_, rfl⟩
  readSse _ _ := ⟨_, _, rfl⟩
  settle _ _ _ := ⟨_, rfl⟩
  concat _ _ := ⟨_, _, rfl⟩
  reserveNarration _ := ⟨_, _, rfl⟩
  recordObjectKey _ _ := ⟨_, rfl⟩
  uploadBytes _ _ _ := ⟨_, rfl⟩
  recordUpload _ _ _ := ⟨_, rfl⟩

theorem narrateScene_spring :
    isBlank "春天。" = false
      ∧ (((∀ segment ∈ splitNarrationSegments "春天。",
          precheck none segment = true ∧ checkInput segment = .ok ())
        ∧ Narrated (narrateScene plainNarration "春天。" ⟨(), [], []⟩)) ↔ Speakable "春天。") :=
  ⟨by decide +kernel,
    narrateScene_iff plainNarration plainNarration_succeeds "春天。" (by decide +kernel) ()⟩

/-- Two hundred characters without an end, and a blank behind them. -/
def spacedBody : String := String.ofList (List.replicate 200 '春' ++ [' '])

theorem isBlank_ofList (text : List Char) : isBlank (String.ofList text) = text.all isSpace := by
  rw [isBlank, String.toList_ofList]

theorem replicate_not_blank : isBlank (String.ofList (List.replicate 200 '春')) = false := by
  rw [isBlank_ofList, List.all_replicate]
  decide

theorem spacedBody_not_blank : isBlank spacedBody = false := by
  show isBlank (String.ofList (List.replicate 200 '春' ++ [' '])) = false
  rw [isBlank_ofList, List.all_append, List.all_replicate]
  decide

theorem spacedBody_segments :
    splitNarrationSegments spacedBody = [String.ofList (List.replicate 200 '春')] ++ " " :: [] := by
  have hends : (List.replicate 200 '春' ++ [' ']).any endsSentence = false := by
    rw [List.any_append, List.any_replicate]
    decide
  have hcut : cutAfter endsSentence (List.replicate 200 '春' ++ [' '])
      = [List.replicate 200 '春' ++ [' ']] := cutAfter_of_no_end _ '春' hends
  have hblocks : blocks segmentMaxChars (List.replicate 200 '春' ++ [' '])
      = [List.replicate 200 '春', [' ']] := by
    have hlength : (List.replicate 200 '春').length = segmentMaxChars := List.length_replicate
    have hne : List.replicate 200 '春' ++ [' '] ≠ [] :=
      List.append_ne_nil_of_right_ne_nil _ (List.cons_ne_nil _ _)
    rw [blocks_of_pos segmentMaxChars_pos hne,
      List.take_left' hlength, List.drop_left' hlength,
      blocks_of_pos segmentMaxChars_pos (List.cons_ne_nil _ _)]
    show _ :: [' '] :: blocks segmentMaxChars [] = _
    rw [blocks_nil]
  have hlong : segmentMaxChars < (List.replicate 200 '春' ++ [' ']).length := by
    rw [List.length_append, List.length_replicate]
    exact Nat.lt_succ_self 200
  have htext : spacedBody.toList = List.replicate 200 '春' ++ [' '] := String.toList_ofList
  rw [splitNarrationSegments_eq spacedBody_not_blank, htext, hcut, fill, if_pos hlong, hblocks]
  rfl

/-- The first segment is paid for, the second is blank, and the scene is given up. -/
theorem spacedBody_wasted :
    plainNarration.Succeeds ∧ isBlank spacedBody = false
      ∧ ¬ ((∀ segment ∈ splitNarrationSegments spacedBody,
            precheck none segment = true ∧ checkInput segment = .ok ())
          ∧ Narrated (narrateScene plainNarration spacedBody ⟨(), [], []⟩))
      ∧ (narrateScene plainNarration spacedBody ⟨(), [], []⟩).1 = none
      ∧ (narrateScene plainNarration spacedBody ⟨(), [], []⟩).2.paid.length = 1 := by
  have hfirst : ∀ text ∈ [String.ofList (List.replicate 200 '春')], isBlank text = false := by
    intro text hmem
    rw [List.mem_singleton.mp hmem]
    exact replicate_not_blank
  obtain ⟨parts, world, hscene, hlength⟩ := narrateScene_given_up plainNarration_succeeds
    (show plainNarration.findReusable () = none from rfl) spacedBody_segments hfirst
    (show isBlank " " = true from rfl)
  rw [hscene]
  exact ⟨plainNarration_succeeds, spacedBody_not_blank, fun h => Bool.false_ne_true h.2.1, rfl,
    hlength⟩

end Narration

end AgentRuntime
