import AgentRuntime.SceneMedia
import AgentRuntime.StructuredOutput

/-!
# The nodes that ask a model

`extract_highlights`, `plan_chapters` and `generate_scenes` do the same with
their answers: the first is read, one that is refused is sent back for a
repair once, and where nothing is accepted a template is written. Each is a
`NodeSpec`, run by `NodeSpec.run`.

Such a node returns exactly if the standard library raises nothing but what
is caught: over the first answer, and over the repaired one where the first
is refused (`generation_returns_iff`).
-/

namespace AgentRuntime

open SemanticValidator MemoirNodeRunner

/-- What `run_node` raises. -/
inductive NodeException
  | python (e : PyException)
  | toolOutput (code : String)
  deriving DecidableEq, Repr

/-- The gateway: the data of a call that succeeded, and of a repair. -/
structure NodeModel (V : Type) where
  call : String → JsonFields → List Material → Option (ModelAnswer V)
  repair : String → JsonFields → List Material → ModelAnswer V → Option (ModelAnswer V)

/-- A node that asks a model: what it asks, how it reads the answer, and what
it writes. -/
structure NodeSpec (V α : Type) where
  nodeId : String
  request : JsonFields
  materials : List Material
  valid : Option (ModelAnswer V) → Except PyException (Option α)
  field : OutputField
  output : α → Json
  template : Json
  rejectedFlag : String
  templateFlag : String

/-- `fallback_flags.append`. -/
def AgentState.flagged (state : AgentState) (flags : List String) : AgentState :=
  { state with fallbackFlags := state.fallbackFlags ++ flags }

namespace NodeSpec

variable {V α : Type} (spec : NodeSpec V α) (model : Option (NodeModel V))

/-- `_model_data`. -/
def modelData : Option (ModelAnswer V) :=
  model.bind fun gateway => gateway.call spec.nodeId spec.request spec.materials

/-- `_repair_model_data`. -/
def repairModelData (invalidOutput : ModelAnswer V) : Option (ModelAnswer V) :=
  model.bind fun gateway => gateway.repair spec.nodeId spec.request spec.materials invalidOutput

/-- The value that is accepted, of the first answer or the repaired one. -/
def validated : Except PyException (Option α) := do
  let found ← spec.valid (spec.modelData model)
  match found, spec.modelData model with
  | none, some answer => spec.valid (spec.repairModelData model answer)
  | found, _ => pure found

/-- `apply_tool_output`. -/
def write (output : Json) (state : AgentState) : Except NodeException AgentState :=
  match state.applyToolOutput spec.field.name output with
  | (.ok _, state') => .ok state'
  | (.error code, _) => .error (.toolOutput code)

/-- The node: whether it fell back, and the state. -/
def run (state : AgentState) : Except NodeException (Bool × AgentState) :=
  match spec.validated model with
  | .error e => .error (.python e)
  | .ok (some value) => do
    let state' ← spec.write (spec.output value) state
    pure (false, state')
  | .ok none => do
    let state' ← spec.write spec.template
      (state.flagged (if model.isSome then [spec.rejectedFlag] else []))
    pure (true, state'.flagged [spec.templateFlag])

end NodeSpec

/-! ## The three nodes -/

namespace MemoirNodeRunner

/-- A material that may be shown. -/
def safeText (allowedRefs : List String) : Json → Option Material
  | .obj item =>
    match Json.get? "sensitive" item, textField "source_ref" item, textField "text" item with
    | some (.bool false), some ref, some text =>
      if ref ∈ allowedRefs ∧ isBlank text = false then some (ref, text) else none
    | _, _, _ => none
  | _ => none

/-- `_safe_material_texts`. -/
def safeMaterialTexts (sanitizedMaterial : Option JsonFields) (allowedRefs : List String)
    (agentVersion : String) : List Material :=
  match sanitizedMaterial.bind (Json.get? "materials") with
  | some (.arr materials) =>
    let texts := materials.filterMap (safeText allowedRefs)
    if versionAtLeast agentVersion [1, 0, 5] then texts else texts.take 8
  | _ => []

/-- A chapter of the plan, where it is one. -/
def safeChapter : Json → Option ChapterOutput
  | .obj chapter => do
    let chapterId ← textField "chapter_id" chapter
    let refs ← stringList (Json.get? "source_refs" chapter)
    pure ⟨chapterId, refs.take 8⟩
  | _ => none

/-- `_safe_chapters`. -/
def safeChapters : Option Json → List ChapterOutput
  | some (.arr chapters) => (chapters.take 3).filterMap safeChapter
  | _ => []

/-- The first eight references of the highlights. -/
def highlightRefs (highlights : Option JsonFields) : List String :=
  match Json.get? "source_refs" (highlights.getD []) with
  | some (.arr refs) => (stringsOf refs).take 8
  | _ => []

/-- A list of references as JSON. -/
def refList (refs : List String) : Json := .arr (refs.map .str)

/-- The template scenes: one for each of three chapters, then without
references. -/
def templateScenes (chapters : List ChapterOutput) : List JsonFields :=
  let refs : List (List String) :=
    (chapters.take 3).map ChapterOutput.sourceRefs ++ List.replicate (3 - chapters.length) []
  refs.mapIdx fun index sourceRefs => templateScene (index + 1) sourceRefs

variable {V : Type} (py : PyLibrary V) (agentVersion : String) (state : AgentState)

/-- `extract_highlights`. -/
def extractHighlights : NodeSpec V (List String) :=
  let refs := safeMaterialRefs state.sanitizedMaterial agentVersion
  { nodeId := "extract_highlights"
    request := [("source_refs", refList refs)]
    materials := safeMaterialTexts state.sanitizedMaterial refs agentVersion
    valid := validHighlights py refs
    field := .highlights
    output := fun found => .obj [("source_refs", refList found), ("mode", .str "model")]
    template := .obj [("source_refs", refList refs), ("mode", .str "template")]
    rejectedFlag := "model_unavailable_highlights"
    templateFlag := "template_highlights" }

/-- `plan_chapters`. -/
def planChapters : NodeSpec V (List ChapterOutput) :=
  let refs := highlightRefs state.highlights
  { nodeId := "plan_chapters"
    request := [("source_refs", refList refs)]
    materials := safeMaterialTexts state.sanitizedMaterial refs agentVersion
    valid := validChapters py refs
    field := .chapterPlan
    output := fun chapters => .obj [("chapters", .arr (chapters.map ChapterOutput.dump))]
    template := .obj [("chapters", .arr [ChapterOutput.dump ⟨"chapter-1", refs⟩])]
    rejectedFlag := "model_invalid_chapters"
    templateFlag := "template_chapters" }

/-- `generate_scenes`. -/
def generateScenes : NodeSpec V (List SceneEntry) :=
  let chapters := safeChapters (Json.get? "chapters" (state.chapterPlan.getD []))
  let refs := chapters.flatMap (·.sourceRefs)
  { nodeId := "generate_scenes"
    request := [("chapters", .arr (chapters.map ChapterOutput.dump))]
    materials := safeMaterialTexts state.sanitizedMaterial refs agentVersion
    valid := validScenes py agentVersion refs
    field := .scenes
    output := fun scenes => .arr (scenes.map fun scene => .obj scene.fields)
    template := .arr ((templateScenes chapters).map .obj)
    rejectedFlag := "model_invalid_scenes"
    templateFlag := "template_scenes" }

end MemoirNodeRunner

/-! ## What the libraries raise -/

variable {V : Type}

/-- The parsers raise nothing over the text but what is caught. -/
def ParsesQuietly (py : PyLibrary V) (text : String) : Prop :=
  ∀ e, py.loads text = .error e → e = .jsonDecodeError ∧
    ∀ e', py.literalEval text = .error e' → e' = .syntaxError ∨ e'.isValueError = true

/-- Nothing is raised over an answer but what is caught. -/
def Legible (py : PyLibrary V) : ModelAnswer V → Prop
  | .text raw => ParsesQuietly py (unfenced (stripText raw))
  | .mapping value =>
    (∀ e, py.dumps value = .error e → e = .typeError ∨ e.isValueError = true) ∧
      ∀ raw, py.dumps value = .ok raw → ParsesQuietly py (unfenced (stripText raw))
  | .other => True

theorem parseJsonOnce_returns_iff {py : PyLibrary V} {raw : String} :
    (∃ found, parseJsonOnce py raw = .ok found) ↔
      ParsesQuietly py (unfenced (stripText raw)) := by
  unfold parseJsonOnce ParsesQuietly
  dsimp only
  generalize unfenced (stripText raw) = text
  cases hloads : py.loads text with
  | ok value => exact iff_of_true ⟨_, rfl⟩ fun e he => (by cases he)
  | error e =>
    by_cases hdecode : e = .jsonDecodeError
    · subst hdecode
      dsimp only
      cases hliteral : py.literalEval text with
      | ok value =>
        refine iff_of_true ⟨_, rfl⟩ fun e he => ?_
        cases he
        exact ⟨rfl, fun e' he' => by cases he'⟩
      | error e' =>
        dsimp only
        by_cases hcaught : e' = .syntaxError ∨ e'.isValueError = true
        · rw [if_pos hcaught]
          refine iff_of_true ⟨_, rfl⟩ fun e he => ?_
          cases he
          refine ⟨rfl, fun other hother => ?_⟩
          cases hother
          exact hcaught
        · rw [if_neg hcaught]
          refine iff_of_false (fun ⟨_, h⟩ => by cases h) fun h => hcaught ?_
          exact (h .jsonDecodeError rfl).2 e' rfl
    · refine iff_of_false ?_ fun h => hdecode (h e rfl).1
      rintro ⟨found, h⟩
      cases e with
      | jsonDecodeError => exact hdecode rfl
      | _ => cases h

/-- A schema whose results the semantic validator can go through. -/
def Schema.Checked {α : Type} (schema : Schema V α) : Prop :=
  ∀ trustedRefs value, ∃ result, validate trustedRefs (.obj (schema.dump value)) = .ok result

theorem highlightSchema_checked (py : PyLibrary V) : (highlightSchema py).Checked := by
  intro trustedRefs refs
  have hplain : Uncontained (highlightDump refs) := ⟨rfl, rfl⟩
  obtain ⟨result, hresult, -⟩ := @validate_uncontained trustedRefs _ hplain
  exact ⟨result, hresult⟩

theorem chapterSchema_checked (py : PyLibrary V) : (chapterSchema py).Checked := by
  intro trustedRefs chapters
  have hplain : Uncontained (chapterPlanDump chapters) := ⟨rfl, rfl⟩
  obtain ⟨result, hresult, -⟩ := @validate_uncontained trustedRefs _ hplain
  exact ⟨result, hresult⟩

/-- The scenes come without actions, whose types might not be hashable. -/
theorem sceneSchema_checked (py : PyLibrary V) : (sceneSchema py).Checked := by
  intro trustedRefs scenes
  exact ⟨_, rfl⟩

theorem validateParsed_returns {α : Type} {schema : Schema V α} (hchecked : schema.Checked)
    (trustedRefs : List String) (status : String) (value : Option V) :
    ∃ parsed, validateParsed schema trustedRefs status value = .ok parsed := by
  cases value with
  | none => exact ⟨_, rfl⟩
  | some value =>
    unfold validateParsed
    dsimp only
    cases schema.modelValidate value with
    | none => exact ⟨_, rfl⟩
    | some validated =>
      obtain ⟨result, hresult⟩ := hchecked trustedRefs validated
      dsimp only
      rw [hresult]
      by_cases hvalid : result.valid = true
      · exact ⟨_, if_pos hvalid⟩
      · exact ⟨_, if_neg hvalid⟩

theorem parseAndValidate_returns_iff {α : Type} {py : PyLibrary V} {schema : Schema V α}
    (hchecked : schema.Checked) {trustedRefs : List String} {raw : String} :
    (∃ parsed, parseAndValidate py schema trustedRefs raw = .ok parsed) ↔
      ParsesQuietly py (unfenced (stripText raw)) := by
  rw [← parseJsonOnce_returns_iff]
  unfold parseAndValidate
  cases parseJsonOnce py raw with
  | error e => exact iff_of_false (fun ⟨_, h⟩ => by cases h) fun ⟨_, h⟩ => by cases h
  | ok found => exact iff_of_true (validateParsed_returns hchecked trustedRefs _ _) ⟨_, rfl⟩

/-- The text of an answer comes out unless `dumps` raises what is not caught. -/
theorem parseStructuredOutput_returns_iff {α : Type} {py : PyLibrary V} {schema : Schema V α}
    (hchecked : schema.Checked) {trustedRefs : List String} {answer : ModelAnswer V} :
    (∃ output, parseStructuredOutput py schema trustedRefs (some answer) = .ok output) ↔
      Legible py answer := by
  have hparsed : ∀ raw, (∃ output, (parseAndValidate py schema trustedRefs raw >>= fun parsed =>
      (pure parsed.validatedValue : Except PyException (Option α))) = .ok output) ↔
      ParsesQuietly py (unfenced (stripText raw)) := by
    intro raw
    rw [← parseAndValidate_returns_iff hchecked]
    cases parseAndValidate py schema trustedRefs raw with
    | error e => exact iff_of_false (fun ⟨_, h⟩ => by cases h) fun ⟨_, h⟩ => by cases h
    | ok parsed => exact iff_of_true ⟨_, rfl⟩ ⟨_, rfl⟩
  cases answer with
  | text raw => exact hparsed raw
  | mapping value =>
    unfold parseStructuredOutput ModelAnswer.raw Legible
    dsimp only
    cases hdumps : py.dumps value with
    | ok raw =>
      refine (hparsed raw).trans ⟨fun h => ⟨fun e he => (by cases he), fun other hother => ?_⟩,
        fun h => h.2 raw rfl⟩
      cases hother
      exact h
    | error e =>
      dsimp only
      by_cases hcaught : e = .typeError ∨ e.isValueError = true
      · rw [if_pos hcaught]
        refine iff_of_true ⟨_, rfl⟩ ⟨fun other hother => ?_, fun raw hraw => (by cases hraw)⟩
        cases hother
        exact hcaught
      · rw [if_neg hcaught]
        exact iff_of_false (fun ⟨_, h⟩ => by cases h) fun h => hcaught (h.1 e rfl)
  | other => exact iff_of_true ⟨_, rfl⟩ trivial

/-- What is done with an output raises nothing. -/
theorem returns_keep {α β : Type} {x : Except PyException (Option α)} {keep : α → Option β} :
    (∃ kept, (x >>= fun output => (pure (output.bind keep) : Except PyException (Option β))) =
      .ok kept) ↔ ∃ output, x = .ok output := by
  cases x with
  | error e => exact iff_of_false (fun ⟨_, h⟩ => by cases h) fun ⟨_, h⟩ => by cases h
  | ok output => exact iff_of_true ⟨_, rfl⟩ ⟨_, rfl⟩

/-! ## A node -/

namespace NodeSpec

variable {α : Type}

/-- A node whose validation raises exactly where an answer is not legible,
and whose outputs the state takes. -/
structure Sound (py : PyLibrary V) (spec : NodeSpec V α) : Prop where
  silent : spec.valid none = .ok none
  valid : ∀ answer, (∃ found, spec.valid (some answer) = .ok found) ↔ Legible py answer
  output : ∀ value state, ∃ state', spec.write (spec.output value) state = .ok state'
  template : ∀ state, ∃ state', spec.write spec.template state = .ok state'

/-- The answers the node comes to read are legible: the first, and where it
is refused the repaired one. -/
def AnswersLegible (py : PyLibrary V) (spec : NodeSpec V α) (model : Option (NodeModel V)) : Prop :=
  ∀ answer, spec.modelData model = some answer → Legible py answer ∧
    (spec.valid (some answer) = .ok none →
      ∀ repaired, spec.repairModelData model answer = some repaired → Legible py repaired)

/-- The value of an answer that is used. -/
def Uses (spec : NodeSpec V α) (model : Option (NodeModel V)) (value : α) : Prop :=
  ∃ answer, spec.modelData model = some answer ∧
    (spec.valid (some answer) = .ok (some value) ∨
      spec.valid (some answer) = .ok none ∧ ∃ repaired,
        spec.repairModelData model answer = some repaired ∧
        spec.valid (some repaired) = .ok (some value))

/-- The node returns, with the value of an answer or the template. -/
def Settles (spec : NodeSpec V α) (model : Option (NodeModel V)) (state : AgentState) : Prop :=
  ∃ fellBack state', spec.run model state = .ok (fellBack, state') ∧
    (∀ other, other ≠ spec.field → state'.read other = state.read other) ∧
    ((fellBack = false ∧ ∃ value, spec.Uses model value ∧
        state'.read spec.field = spec.output value ∧ state'.fallbackFlags = state.fallbackFlags) ∨
      (fellBack = true ∧ (∀ value, ¬ spec.Uses model value) ∧
        state'.read spec.field = spec.template ∧
        state'.fallbackFlags = state.fallbackFlags ++
          (if model.isSome then [spec.rejectedFlag] else []) ++ [spec.templateFlag]))

/-- What is made of an answer that was refused. -/
theorem repaired_cases {py : PyLibrary V} {spec : NodeSpec V α} {model : Option (NodeModel V)}
    (hsound : spec.Sound py) (answer : ModelAnswer V) :
    ((∀ repaired, spec.repairModelData model answer = some repaired → Legible py repaired) ∧
      ((∃ value, spec.valid (spec.repairModelData model answer) = .ok (some value) ∧
        ∃ repaired, spec.repairModelData model answer = some repaired ∧
          spec.valid (some repaired) = .ok (some value)) ∨
      (spec.valid (spec.repairModelData model answer) = .ok none ∧
        ∀ repaired, spec.repairModelData model answer = some repaired →
          spec.valid (some repaired) = .ok none))) ∨
    ((∃ repaired, spec.repairModelData model answer = some repaired ∧ ¬ Legible py repaired) ∧
      ∃ e, spec.valid (spec.repairModelData model answer) = .error e) := by
  cases spec.repairModelData model answer with
  | none =>
    refine Or.inl ⟨fun _ h => (by cases h), Or.inr ⟨hsound.silent, fun _ h => (by cases h)⟩⟩
  | some repaired =>
    cases hsecond : spec.valid (some repaired) with
    | error e =>
      refine Or.inr ⟨⟨repaired, rfl, fun hlegible => ?_⟩, e, rfl⟩
      obtain ⟨found, hfound⟩ := (hsound.valid repaired).mpr hlegible
      rw [hsecond] at hfound
      cases hfound
    | ok found =>
      refine Or.inl ⟨fun again hagain => ?_, ?_⟩
      · cases hagain
        exact (hsound.valid repaired).mp ⟨found, hsecond⟩
      · cases found with
        | some value => exact Or.inl ⟨value, rfl, repaired, rfl, hsecond⟩
        | none =>
          refine Or.inr ⟨rfl, fun again hagain => ?_⟩
          cases hagain
          exact hsecond

/-- The value of the node, by the first answer and what is made of it. -/
theorem validated_cases {py : PyLibrary V} {spec : NodeSpec V α} {model : Option (NodeModel V)}
    (hsound : spec.Sound py) :
    (spec.AnswersLegible py model ∧ ((∃ value, spec.validated model = .ok (some value) ∧
        spec.Uses model value) ∨
      (spec.validated model = .ok none ∧ ∀ value, ¬ spec.Uses model value))) ∨
    (¬ spec.AnswersLegible py model ∧ ∃ e, spec.validated model = .error e) := by
  unfold validated AnswersLegible Uses
  cases hdata : spec.modelData model with
  | none =>
    refine Or.inl ⟨fun answer hanswer => (by cases hanswer), Or.inr ?_⟩
    rw [hsound.silent]
    refine ⟨rfl, ?_⟩
    rintro value ⟨answer, hanswer, -⟩
    cases hanswer
  | some answer =>
    cases hfirst : spec.valid (some answer) with
    | error e =>
      -- the first answer is not legible
      refine Or.inr ⟨fun h => ?_, e, rfl⟩
      obtain ⟨found, hfound⟩ := (hsound.valid answer).mpr (h answer rfl).1
      rw [hfirst] at hfound
      cases hfound
    | ok found =>
      have hlegible : Legible py answer := (hsound.valid answer).mp ⟨found, hfirst⟩
      cases found with
      | some value =>
        refine Or.inl ⟨fun given hgiven => ?_, Or.inl ⟨value, rfl, answer, rfl, Or.inl hfirst⟩⟩
        cases hgiven
        refine ⟨hlegible, fun hrefused => ?_⟩
        rw [hfirst] at hrefused
        cases hrefused
      | none =>
        show (_ ∧ ((∃ value, spec.valid (spec.repairModelData model answer) = _ ∧ _) ∨
          (spec.valid (spec.repairModelData model answer) = _ ∧ _))) ∨
          (_ ∧ ∃ e, spec.valid (spec.repairModelData model answer) = _)
        rcases @repaired_cases V α py spec model hsound answer with
          ⟨hlegible', ⟨value, hvalue, hused⟩ | ⟨hnone, hrefused⟩⟩ | ⟨hillegible, hraised⟩
        · refine Or.inl ⟨fun given hgiven => ?_,
            Or.inl ⟨value, hvalue, answer, rfl, Or.inr ⟨hfirst, hused⟩⟩⟩
          cases hgiven
          exact ⟨hlegible, fun _ => hlegible'⟩
        · refine Or.inl ⟨fun given hgiven => ?_, Or.inr ⟨hnone, ?_⟩⟩
          · cases hgiven
            exact ⟨hlegible, fun _ => hlegible'⟩
          · rintro value ⟨given, hgiven, hused⟩
            cases hgiven
            rcases hused with hused | ⟨-, repaired, hrepaired, hused⟩
            · rw [hfirst] at hused
              cases hused
            · rw [hrefused repaired hrepaired] at hused
              cases hused
        · obtain ⟨repaired, hrepaired, hnot⟩ := hillegible
          exact Or.inr ⟨fun h => hnot ((h answer rfl).2 hfirst repaired hrepaired), hraised⟩

/-- A write that goes through writes its field and nothing else. -/
theorem write_some {spec : NodeSpec V α} {output : Json} {state state' : AgentState}
    (h : spec.write output state = .ok state') :
    state'.read spec.field = output ∧
      (∀ other, other ≠ spec.field → state'.read other = state.read other) ∧
      state'.fallbackFlags = state.fallbackFlags := by
  unfold write at h
  rcases applyToolOutput_cases state spec.field.name output with
    ⟨code, hrefused⟩ | ⟨field, next, hassigned, hfield, -, hassign⟩
  · rw [hrefused] at h
    cases h
  · rw [hassigned] at h
    cases h
    have hsame : field = spec.field := by
      have hname := OutputField.ofName_some hfield
      cases field <;> cases hspec : spec.field <;> rw [hspec] at hname <;> first
        | rfl
        | exact absurd hname (by decide)
    subst hsame
    obtain ⟨hread, hothers, hcontrol⟩ := assign_some hassign
    exact ⟨hread, hothers, hcontrol.fallbackFlags⟩

/-- A node settles exactly if the answers it comes to read are legible. -/
theorem settles_iff {py : PyLibrary V} {spec : NodeSpec V α} {model : Option (NodeModel V)}
    {state : AgentState} (hsound : spec.Sound py) :
    spec.Settles model state ↔ spec.AnswersLegible py model := by
  rcases @validated_cases V α py spec model hsound with
    ⟨hlegible, ⟨value, hvalue, huses⟩ | ⟨hnone, hunused⟩⟩ | ⟨hillegible, e, herror⟩
  · refine iff_of_true ?_ hlegible
    obtain ⟨state', hwrite⟩ := hsound.output value state
    obtain ⟨hread, hothers, hflags⟩ := write_some hwrite
    refine ⟨false, state', ?_, hothers, Or.inl ⟨rfl, value, huses, hread, hflags⟩⟩
    unfold run
    rw [hvalue]
    dsimp only
    rw [hwrite]
    rfl
  · refine iff_of_true ?_ hlegible
    obtain ⟨state', hwrite⟩ := hsound.template
      (state.flagged (if model.isSome then [spec.rejectedFlag] else []))
    obtain ⟨hread, hothers, hflags⟩ := write_some hwrite
    refine ⟨true, state'.flagged [spec.templateFlag], ?_, fun other hother => ?_,
      Or.inr ⟨rfl, hunused, ?_, ?_⟩⟩
    · unfold run
      rw [hnone]
      dsimp only
      rw [hwrite]
      rfl
    · rw [show (state'.flagged [spec.templateFlag]).read other = state'.read other by
        cases other <;> rfl, hothers other hother]
      cases other <;> rfl
    · rw [← hread]
      cases spec.field <;> rfl
    · show state'.fallbackFlags ++ [spec.templateFlag] = _
      rw [hflags]
      rfl
  · refine iff_of_false ?_ hillegible
    rintro ⟨fellBack, state', hrun, -⟩
    unfold run at hrun
    rw [herror] at hrun
    cases hrun

end NodeSpec

/-! ## What the nodes write -/

theorem anySensitiveField_cons {key : String} {value : Json} {fields : JsonFields}
    (hkey : lowerKey key ∉ sensitiveToolOutputKeys)
    (hvalue : containsSensitiveToolKey value = false) (hfields : anySensitiveField fields = false) :
    anySensitiveField ((key, value) :: fields) = false := by
  unfold anySensitiveField
  rw [decide_eq_false hkey, hvalue, hfields]
  rfl

theorem anySensitiveItem_of_forall {items : List Json}
    (h : ∀ item ∈ items, containsSensitiveToolKey item = false) : anySensitiveItem items = false := by
  induction items with
  | nil => rfl
  | cons item items ih =>
    unfold anySensitiveItem
    rw [h item List.mem_cons_self, ih fun other hother => h other (List.mem_cons_of_mem _ hother)]
    rfl

theorem refList_plain (refs : List String) : containsSensitiveToolKey (refList refs) = false := by
  show anySensitiveItem (refs.map .str) = false
  refine anySensitiveItem_of_forall fun item hitem => ?_
  obtain ⟨ref, -, rfl⟩ := List.mem_map.mp hitem
  rfl

theorem highlights_plain (refs : List String) (mode : String) :
    containsSensitiveToolKey (.obj [("source_refs", refList refs), ("mode", .str mode)]) = false :=
  anySensitiveField_cons (by decide) (refList_plain refs)
    (anySensitiveField_cons (by decide) rfl rfl)

theorem chapters_plain (chapters : List ChapterOutput) :
    containsSensitiveToolKey (.obj [("chapters", .arr (chapters.map ChapterOutput.dump))]) = false := by
  refine anySensitiveField_cons (by decide) ?_ rfl
  refine anySensitiveItem_of_forall fun item hitem => ?_
  obtain ⟨chapter, -, rfl⟩ := List.mem_map.mp hitem
  exact anySensitiveField_cons (by decide) rfl (anySensitiveField_cons (by decide)
    (refList_plain chapter.sourceRefs) (anySensitiveField_cons (by decide) rfl rfl))

theorem sceneEntry_plain (scene : SceneEntry) : anySensitiveField scene.fields = false := by
  obtain ⟨id, sceneType, refs, body, word⟩ := scene
  refine anySensitiveField_cons (by decide) rfl (anySensitiveField_cons (by decide) rfl
    (anySensitiveField_cons (by decide) (refList_plain refs) ?_))
  cases body <;> cases word
  · rfl
  · exact anySensitiveField_cons (by decide) rfl rfl
  · exact anySensitiveField_cons (by decide) rfl rfl
  · exact anySensitiveField_cons (by decide) rfl (anySensitiveField_cons (by decide) rfl rfl)

/-- A template scene is a scene. -/
theorem templateScene_plain (index : Nat) (sourceRefs : List String) :
    anySensitiveField (templateScene index sourceRefs) = false :=
  sceneEntry_plain ⟨"scene-" ++ toString index, "summary", sourceRefs,
    some (templateSceneBodies.getD ((index - 1) % templateSceneBodies.length) ""), none⟩

theorem mapM_mapping : ∀ scenes : List JsonFields,
    (scenes.map Json.obj).mapM MemoirModelGatewayAdapter.mapping = some scenes
  | [] => rfl
  | scene :: scenes => by
    rw [List.map_cons, List.mapM_cons, mapM_mapping scenes]
    rfl

/-- The state takes an output for its field. -/
theorem applyToolOutput_returns {state next : AgentState} {field : OutputField} {output : Json}
    (hplain : containsSensitiveToolKey output = false)
    (hassign : field.assign state output = some next) :
    state.applyToolOutput field.name output = (.ok (), next) := by
  have hname : OutputField.ofName field.name = some field := by cases field <;> rfl
  unfold AgentState.applyToolOutput
  rw [hname]
  dsimp only
  rw [hplain, if_neg Bool.false_ne_true, hassign]

namespace NodeSpec

variable {α : Type}

theorem write_returns {spec : NodeSpec V α} {output : Json} {state next : AgentState}
    (hplain : containsSensitiveToolKey output = false)
    (hassign : spec.field.assign state output = some next) :
    ∃ state', spec.write output state = .ok state' := by
  unfold write
  rw [applyToolOutput_returns hplain hassign]
  exact ⟨next, rfl⟩

/-- A list of scenes is written. -/
theorem write_scenes {spec : NodeSpec V α} (hfield : spec.field = .scenes)
    {scenes : List JsonFields} (hplain : ∀ scene ∈ scenes, anySensitiveField scene = false)
    (state : AgentState) : ∃ state', spec.write (.arr (scenes.map .obj)) state = .ok state' := by
  refine @write_returns V α spec _ state { state with scenes := some scenes } ?_ ?_
  · refine anySensitiveItem_of_forall fun item hitem => ?_
    obtain ⟨scene, hscene, rfl⟩ := List.mem_map.mp hitem
    exact hplain scene hscene
  · rw [hfield]
    show ((((scenes.map Json.obj).mapM MemoirModelGatewayAdapter.mapping).map some).map _) = _
    rw [mapM_mapping]
    rfl

end NodeSpec

theorem extractHighlights_sound (py : PyLibrary V) (agentVersion : String) (state : AgentState) :
    (extractHighlights py agentVersion state).Sound py where
  silent := rfl
  valid _ := returns_keep.trans (parseStructuredOutput_returns_iff (highlightSchema_checked py))
  output found _ := NodeSpec.write_returns (highlights_plain found "model") rfl
  template _ := NodeSpec.write_returns (highlights_plain _ "template") rfl

theorem planChapters_sound (py : PyLibrary V) (agentVersion : String) (state : AgentState) :
    (planChapters py agentVersion state).Sound py where
  silent := rfl
  valid _ := returns_keep.trans (parseStructuredOutput_returns_iff (chapterSchema_checked py))
  output chapters _ := NodeSpec.write_returns (chapters_plain chapters) rfl
  template _ := NodeSpec.write_returns (chapters_plain [⟨"chapter-1", _⟩]) rfl

theorem generateScenes_sound (py : PyLibrary V) (agentVersion : String) (state : AgentState) :
    (generateScenes py agentVersion state).Sound py where
  silent := rfl
  valid _ := returns_keep.trans (parseStructuredOutput_returns_iff (sceneSchema_checked py))
  output scenes before := by
    have hplain : ∀ scene ∈ scenes.map SceneEntry.fields, anySensitiveField scene = false := by
      intro scene hscene
      obtain ⟨entry, -, rfl⟩ := List.mem_map.mp hscene
      exact sceneEntry_plain entry
    obtain ⟨next, hnext⟩ := @NodeSpec.write_scenes V _ (generateScenes py agentVersion state) rfl _
      hplain before
    rw [List.map_map] at hnext
    exact ⟨next, hnext⟩
  template before := by
    refine NodeSpec.write_scenes rfl (fun scene hscene => ?_) before
    obtain ⟨index, hindex, rfl⟩ := List.mem_mapIdx.mp hscene
    exact templateScene_plain _ _

/-- **A generation node returns exactly if its answers are legible.** For each
of the three nodes, whatever the model answers and its repair: the node
returns, with the value of an answer it accepts or with the template, exactly
if the parsers raise nothing but what is caught. -/
theorem generation_returns_iff (py : PyLibrary V) (model : Option (NodeModel V))
    (agentVersion : String) (state : AgentState) :
    ((extractHighlights py agentVersion state).Settles model state ↔
      (extractHighlights py agentVersion state).AnswersLegible py model) ∧
    ((planChapters py agentVersion state).Settles model state ↔
      (planChapters py agentVersion state).AnswersLegible py model) ∧
    ((generateScenes py agentVersion state).Settles model state ↔
      (generateScenes py agentVersion state).AnswersLegible py model) :=
  ⟨NodeSpec.settles_iff (extractHighlights_sound py agentVersion state),
    NodeSpec.settles_iff (planChapters_sound py agentVersion state),
    NodeSpec.settles_iff (generateScenes_sound py agentVersion state)⟩

/-- The parsers on a text that is no JSON and no literal they can build:
`literal_eval` raises a `TypeError` for a list as a key. -/
def unhashableKey : PyLibrary Json where
  loads _ := .error .jsonDecodeError
  literalEval _ := .error .typeError
  dumps _ := .error .typeError
  isNone value := decide (value.given.isNone)
  highlightOutput _ := none
  chapterPlanOutput _ := none
  scenePlanOutput _ := none

/-- A model that answers with a dictionary whose key is a list. -/
def listKeyModel : NodeModel Json where
  call _ _ _ := some (.text "\x7b[]: 1\x7d")
  repair _ _ _ _ := none

/-- The exception escapes from the node. -/
theorem list_key_escapes :
    (extractHighlights unhashableKey "1.0.0" {}).run (some listKeyModel) {} =
        .error (.python .typeError) ∧
      ¬ (extractHighlights unhashableKey "1.0.0" {}).Settles (some listKeyModel) {} := by
  have hrun : (extractHighlights unhashableKey "1.0.0" {}).run (some listKeyModel) {} =
      .error (.python .typeError) := rfl
  refine ⟨hrun, ?_⟩
  rintro ⟨fellBack, state', hsettled, -⟩
  rw [hrun] at hsettled
  cases hsettled

end AgentRuntime
