import AgentRuntime.SafetyReview

/-!
# Reading what a model answers

`parse_json_once` takes an answer for JSON, and what is no JSON for a Python
literal; `parse_and_validate` holds the value against a schema and the
semantic validator; `_valid_highlights`, `_valid_chapters` and
`_valid_scenes` look at what the schema has made of it.

The two parsers of the standard library, `json.dumps` and Pydantic are a
parameter, over any type of Python values. Each of the three functions may
raise; the code catches some of what they raise (`parseJsonOnce`,
`ModelAnswer.raw`) and lets the rest through.
-/

namespace AgentRuntime

open SemanticValidator MemoirNodeRunner

/-- What Python raises; a `JSONDecodeError` is a `ValueError`. -/
inductive PyException
  | jsonDecodeError | valueError | syntaxError | typeError | recursionError | memoryError
  deriving DecidableEq, Repr

/-- `except ValueError`. -/
def PyException.isValueError : PyException → Bool
  | jsonDecodeError | valueError => true
  | _ => false

/-! ## The schemas -/

/-- `_ChapterOutput`. -/
structure ChapterOutput where
  chapterId : String
  sourceRefs : List String
  deriving DecidableEq, Repr

/-- `_SceneOutput`, and a scene as the state keeps it. -/
structure SceneEntry where
  sceneId : String
  sceneType : String
  sourceRefs : List String
  body : Option String := none
  titleWord : Option String := none
  deriving DecidableEq, Repr

/-- What the code takes from the libraries; `V` is the type of Python values. -/
structure PyLibrary (V : Type) where
  /-- `json.loads`. -/
  loads : String → Except PyException V
  /-- `ast.literal_eval`. -/
  literalEval : String → Except PyException V
  /-- `json.dumps`, of a mapping. -/
  dumps : V → Except PyException String
  isNone : V → Bool
  /-- `_HighlightOutput.model_validate`; none where it raises a `ValidationError`. -/
  highlightOutput : V → Option (List String)
  /-- `_ChapterPlanOutput.model_validate`. -/
  chapterPlanOutput : V → Option (List ChapterOutput)
  /-- `_ScenePlanOutput.model_validate`. -/
  scenePlanOutput : V → Option (List SceneEntry)

/-- The `data` of a model call that succeeded. -/
inductive ModelAnswer (V : Type)
  | text (raw : String)
  | mapping (value : V)
  | other

/-- `str | None` as JSON. -/
def optionalText : Option String → Json
  | none => .null
  | some text => .str text

/-- `_HighlightOutput.model_dump`. -/
def highlightDump (refs : List String) : JsonFields := [("source_refs", .arr (refs.map .str))]

def ChapterOutput.dump (chapter : ChapterOutput) : Json :=
  .obj [("chapter_id", .str chapter.chapterId),
    ("source_refs", .arr (chapter.sourceRefs.map .str)), ("kind", .str "memory_overview")]

/-- `_ChapterPlanOutput.model_dump`, with the references of the chapters. -/
def chapterPlanDump (chapters : List ChapterOutput) : JsonFields :=
  [("chapters", .arr (chapters.map ChapterOutput.dump)),
   ("source_refs", .arr ((chapters.flatMap (·.sourceRefs)).map .str))]

/-- `_SceneOutput.model_dump`. -/
def SceneEntry.dump (scene : SceneEntry) : JsonFields :=
  [("scene_id", .str scene.sceneId), ("scene_type", .str scene.sceneType),
    ("source_refs", .arr (scene.sourceRefs.map .str)), ("body", optionalText scene.body),
    ("title_word", optionalText scene.titleWord)]

/-- `_ScenePlanOutput.model_dump`, with the references of the scenes. -/
def scenePlanDump (scenes : List SceneEntry) : JsonFields :=
  [("scenes", .arr (scenes.map fun scene => .obj scene.dump)),
   ("source_refs", .arr ((scenes.flatMap (·.sourceRefs)).map .str))]

/-! ## The parser -/

/-- The text without a code fence around it. -/
def unfenced (text : String) : String :=
  let fence := ['`', '`', '`']
  if fence.isPrefixOf text.toList && fence.isSuffixOf text.toList then
    match text.toList.dropWhile fun c => decide (c ≠ '\n') with
    | [] => ""
    | _ :: rest => String.ofList (beforeLast '\n' rest)
  else text

variable {V : Type}

/-- `parse_json_once`: the value and the status. -/
def parseJsonOnce (py : PyLibrary V) (raw : String) :
    Except PyException (Option V × String) :=
  let text := unfenced (stripText raw)
  match py.loads text with
  | .ok value => .ok (some value, "parsed")
  | .error .jsonDecodeError =>
    match py.literalEval text with
    | .ok value => .ok (some value, "repaired")
    | .error e =>
      if e = .syntaxError ∨ e.isValueError = true then .ok (none, "failed") else .error e
  | .error e => .error e

/-- `StructuredResult`. -/
structure StructuredResult (α : Type) where
  validatedValue : Option α
  parseStatus : String
  safetyStatus : String
  errorCodes : List String := []

/-- A schema: how a value is validated, and how the result is dumped. -/
structure Schema (V α : Type) where
  modelValidate : V → Option α
  dump : α → JsonFields

/-- The result where nothing was parsed. -/
def parseFailed {α : Type} : StructuredResult α :=
  ⟨none, "failed", "parse_failed", ["JSON_PARSE_FAILED"]⟩

/-- A value that has been parsed, against the schema and the semantic
validator; `None` is no value. -/
def validateParsed {α : Type} (schema : Schema V α) (trustedRefs : List String) (status : String) :
    Option V → Except PyException (StructuredResult α)
  | none => pure parseFailed
  | some value =>
    match schema.modelValidate value with
    | none =>
      pure ⟨none, status, "schema_validation_failed", ["SCHEMA_VALIDATION_FAILED"]⟩
    | some validated =>
      match validate trustedRefs (.obj (schema.dump validated)) with
      | .error _ => .error .typeError
      | .ok semantic =>
        if semantic.valid then pure ⟨some validated, status, "passed", []⟩
        else pure ⟨none, status, "semantic_validation_failed", semantic.errorCodes⟩

/-- `parse_and_validate`. -/
def parseAndValidate {α : Type} (py : PyLibrary V) (schema : Schema V α) (trustedRefs : List String)
    (raw : String) : Except PyException (StructuredResult α) := do
  let (value, status) ← parseJsonOnce py raw
  validateParsed schema trustedRefs status (value.filter fun v => !py.isNone v)

/-- The text of an answer; none where it is refused as it is. -/
def ModelAnswer.raw (py : PyLibrary V) : ModelAnswer V → Except PyException (Option String)
  | .text raw => .ok (some raw)
  | .mapping value =>
    match py.dumps value with
    | .ok raw => .ok (some raw)
    | .error e => if e = .typeError ∨ e.isValueError = true then .ok none else .error e
  | .other => .ok none

/-- `_parse_structured_output`. -/
def parseStructuredOutput {α : Type} (py : PyLibrary V) (schema : Schema V α)
    (trustedRefs : List String) : Option (ModelAnswer V) → Except PyException (Option α)
  | none => .ok none
  | some answer => do
    let raw ← answer.raw py
    match raw with
    | none => pure none
    | some raw => do
      let parsed ← parseAndValidate py schema trustedRefs raw
      pure parsed.validatedValue

/-! ## The three outputs -/

def highlightSchema (py : PyLibrary V) : Schema V (List String) := ⟨py.highlightOutput, highlightDump⟩

def chapterSchema (py : PyLibrary V) : Schema V (List ChapterOutput) :=
  ⟨py.chapterPlanOutput, chapterPlanDump⟩

def sceneSchema (py : PyLibrary V) : Schema V (List SceneEntry) :=
  ⟨py.scenePlanOutput, scenePlanDump⟩

/-- What is kept of the highlights. -/
def keepHighlights (refs : List String) : Option (List String) := some (refs.eraseDups.take 8)

/-- `_valid_highlights`. -/
def validHighlights (py : PyLibrary V) (allowedRefs : List String)
    (data : Option (ModelAnswer V)) : Except PyException (Option (List String)) := do
  let output ← parseStructuredOutput py (highlightSchema py) allowedRefs data
  pure (output.bind keepHighlights)

/-- A chapter with its first eight references. -/
def ChapterOutput.cut (chapter : ChapterOutput) : ChapterOutput :=
  { chapter with sourceRefs := chapter.sourceRefs.take 8 }

/-- What is kept of the chapters. -/
def keepChapters (allowedRefs : List String) (chapters : List ChapterOutput) :
    Option (List ChapterOutput) :=
  let safe := (chapters.take 3).map ChapterOutput.cut
  if ¬ (1 ≤ chapters.length ∧ chapters.length ≤ 3) then none
  else if ¬ (safe.map (·.chapterId)).Nodup then none
  else if (safe.flatMap (·.sourceRefs)).all (fun ref => decide (ref ∈ allowedRefs)) = false then none
  else some safe

/-- `_valid_chapters`. -/
def validChapters (py : PyLibrary V) (allowedRefs : List String)
    (data : Option (ModelAnswer V)) : Except PyException (Option (List ChapterOutput)) := do
  let output ← parseStructuredOutput py (chapterSchema py) allowedRefs data
  pure (output.bind (keepChapters allowedRefs))

/-- The title word of a scene, for the version. -/
def titleWordAllowed (agentVersion : String) (scene : SceneEntry) : Bool :=
  match scene.titleWord with
  | none => true
  | some word =>
    decide (word ≠ "" ∧ word.length ≤ 6) &&
      (decide (scene.sceneType = "image") || perSceneMediaEnabled agentVersion)

/-- What is kept of the scenes. -/
def keepScenes (agentVersion : String) (allowedRefs : List String) (scenes : List SceneEntry) :
    Option (List SceneEntry) :=
  let allowedTypes := if mediaVersionEnabled agentVersion then mediaSceneTypes else plainSceneTypes
  if scenes.length < 3 then none
  else if sceneContentContractValid agentVersion (scenes.map SceneEntry.dump) = false then none
  else if (scenes.all fun scene => decide (scene.sceneType ∈ allowedTypes) &&
      scene.sourceRefs.all fun ref => decide (ref ∈ allowedRefs)) = false then none
  else if ¬ (scenes.map (·.sceneId)).Nodup then none
  else if scenes.all (titleWordAllowed agentVersion) = false then none
  else some (scenes.map fun scene => { scene with sourceRefs := scene.sourceRefs.eraseDups })

/-- `_valid_scenes`. -/
def validScenes (py : PyLibrary V) (agentVersion : String) (allowedRefs : List String)
    (data : Option (ModelAnswer V)) : Except PyException (Option (List SceneEntry)) := do
  let output ← parseStructuredOutput py (sceneSchema py) allowedRefs data
  pure (output.bind (keepScenes agentVersion allowedRefs))

/-- A scene as the state keeps it. -/
def SceneEntry.fields (scene : SceneEntry) : JsonFields :=
  [("scene_id", .str scene.sceneId), ("scene_type", .str scene.sceneType),
    ("source_refs", .arr (scene.sourceRefs.map .str))] ++
  (match scene.body with
    | some body => [("body", .str body)]
    | none => []) ++
  match scene.titleWord with
  | some word => [("title_word", .str word)]
  | none => []

end AgentRuntime
