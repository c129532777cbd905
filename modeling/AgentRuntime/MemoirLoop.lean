import AgentRuntime.BoundedLoop
import AgentRuntime.MemoirRequest

/-!
# The memoir agent's loop

The body of the one bounded loop the memoir graphs have. `beginLoop` freezes
the materials, `runLoopIteration` cuts one batch of them and makes one model
call for it, and `finalizeLoop` looks at the scenes collected: at least
three, a cover first, a summary last. A gap at either end is repaired with
one more call for the first or the last batch, where there was one.

What the model answers is a function of the request. No request is made
twice in one loop: the turns number their batches, and a repair says which
scene it wants.
-/

namespace AgentRuntime

/-! ## Text -/

/-- `str.isspace`, of one character. -/
def isSpace (c : Char) : Bool :=
  let n := c.toNat
  decide ((9 ≤ n ∧ n ≤ 13) ∨ (28 ≤ n ∧ n ≤ 32) ∨ n = 0x85 ∨ n = 0xa0 ∨ n = 0x1680 ∨
    (0x2000 ≤ n ∧ n ≤ 0x200a) ∨ n = 0x2028 ∨ n = 0x2029 ∨ n = 0x202f ∨ n = 0x205f ∨ n = 0x3000)

/-- `not text.strip()`. -/
def isBlank (text : String) : Bool :=
  text.toList.all isSpace

def digitsFrom (n : Nat) : List Char → Option Nat
  | [] => some n
  | '_' :: c :: rest => if c.isDigit then digitsFrom (10 * n + (c.toNat - 48)) rest else none
  | c :: rest => if c.isDigit then digitsFrom (10 * n + (c.toNat - 48)) rest else none

/-- `int(part)`; `none` where it raises. -/
def intOf (part : List Char) : Option Int :=
  let stripped := ((part.dropWhile isSpace).reverse.dropWhile isSpace).reverse
  let magnitude : List Char → Option Nat
    | [] => none
    | c :: rest => if c.isDigit then digitsFrom (c.toNat - 48) rest else none
  match stripped with
  | '-' :: rest => (magnitude rest).map fun n => -(n : Int)
  | '+' :: rest => (magnitude rest).map fun n => (n : Int)
  | rest => (magnitude rest).map fun n => (n : Int)

/-- The text before each of the dots, and after the last. -/
def splitDots : List Char → List (List Char)
  | [] => [[]]
  | '.' :: rest => [] :: splitDots rest
  | c :: rest =>
    match splitDots rest with
    | [] => [[c]]
    | part :: parts => (c :: part) :: parts

/-- `a <= b` of tuples. -/
def tupleLe : List Int → List Int → Bool
  | [], _ => true
  | _ :: _, [] => false
  | a :: as, b :: bs => decide (a < b) || (decide (a = b) && tupleLe as bs)

/-- `_version_at_least`. -/
def versionAtLeast (agentVersion : String) (minimum : List Int) : Bool :=
  match ((splitDots agentVersion.toList).take 3).mapM intOf with
  | none => false
  | some current => tupleLe minimum current

example : versionAtLeast "1.0.6" [1, 0, 6] = true ∧ versionAtLeast "1.0.10" [1, 0, 6] = true ∧
    versionAtLeast "1.0.5" [1, 0, 6] = false ∧ versionAtLeast "" [1, 0, 6] = false := by
  decide

/-! ## Materials and scenes -/

structure LoopMaterial where
  sourceRef : String
  text : String
  deriving DecidableEq, Repr

inductive SceneType
  | summary | cover | stats | diaryHighlight | betHighlight | milestone
  deriving DecidableEq, Repr

/-- `_BatchSceneOutput`; also a scene of the state, where the references are
without repetitions. -/
structure BatchScene where
  sceneId : String
  sceneType : SceneType
  sourceRefs : List String
  body : String
  titleWord : Option String := none
  deriving DecidableEq, Repr

/-- The input of the model call for a batch. -/
structure BatchRequest where
  batchIndex : Nat
  isFirstBatch : Bool
  isFinalBatch : Bool
  sourceRefs : List String
  requiredSceneType : Option SceneType := none
  materials : List LoopMaterial
  deriving DecidableEq, Repr

/-- The `data` of a model call that succeeded: a text, with what
`parse_json_once` makes of it; an object; or something else. -/
inductive ModelData
  | text (decoded : Option Json)
  | mapping (fields : List (String × Json))
  | other

def ModelData.value : ModelData → Option Json
  | .text decoded => decoded
  | .mapping fields => some (.obj fields)
  | .other => none

/-- `_model_data`: the data, or none where the call did not succeed. -/
abbrev LoopModel := BatchRequest → Option ModelData

/-- A batch kept for a repair. -/
structure LoopBatch where
  iterationIndex : Nat
  batch : List LoopMaterial
  batchRefs : List String
  deriving DecidableEq, Repr

/-- The loop fields of the runner, the scenes of the state, and the model
calls made, in their order. -/
structure MemoirLoop where
  materials : List LoopMaterial
  cursor : Nat := 0
  firstBatch : Option LoopBatch := none
  finalBatch : Option LoopBatch := none
  scenes : List BatchScene := []
  requests : List BatchRequest := []
  deriving DecidableEq, Repr

namespace MemoirNodeRunner

/-- An item that is not sensitive and has a reference and a text. -/
def loopMaterial : Json → Option LoopMaterial
  | .obj item =>
    match Json.get? "sensitive" item, Json.get? "source_ref" item, Json.get? "text" item with
    | some (.bool false), some (.str ref), some (.str text) =>
      if ref = "" ∨ isBlank text = true then none else some ⟨ref, text⟩
    | _, _, _ => none
  | _ => none

/-- The materials of the items, without the references `seen` before. -/
def distinctMaterials (seen : List String) : List Json → List LoopMaterial
  | [] => []
  | item :: items =>
    match loopMaterial item with
    | none => distinctMaterials seen items
    | some material =>
      if material.sourceRef ∈ seen then distinctMaterials seen items
      else material :: distinctMaterials (material.sourceRef :: seen) items

/-- `_loop_material_texts`. -/
def loopMaterialTexts : Json → List LoopMaterial
  | .obj fields =>
    match Json.get? "materials" fields with
    | some (.arr items) => distinctMaterials [] items
    | _ => []
  | _ => []

/-- `begin_loop`. -/
def beginLoop (modelGateway : Option LoopModel) (sanitizedMaterial : Json) :
    Except String MemoirLoop :=
  match modelGateway with
  | none => .error "LOOP_MODEL_GATEWAY_UNAVAILABLE"
  | some _ =>
    let materials := loopMaterialTexts sanitizedMaterial
    if materials = [] then .error "LOOP_MATERIALS_MISSING" else .ok { materials := materials }

/-! ## Cutting a batch -/

/-- `_LOOP_BATCH_MAX_MATERIALS`. -/
def loopBatchMaxMaterials : Nat := 8

/-- `_LOOP_BATCH_TOKEN_FALLBACK`. -/
def loopBatchTokenFallback : Int := 4096

/-- `_estimate_material_tokens`. -/
def estimateMaterialTokens (text : String) : Int :=
  max 1 ((text.length + 3) / 4 : Nat)

/-- `_loop_batch_token_cap`; `window` is what the gateway says of the route's
context, none where it says nothing. -/
def loopBatchTokenCap (window : Option Int) (remainingTokens : Int) : Int :=
  min ((window.filter fun value => decide (0 < value)).getD loopBatchTokenFallback)
    (max remainingTokens 0)

/-- A batch while it is being cut. -/
structure BatchScan where
  batch : List LoopMaterial := []
  usedTokens : Int := 0
  overLimitDropped : Nat := 0
  candidateCursor : Nat
  deriving DecidableEq, Repr

def scanBatch (cap : Int) : List LoopMaterial → BatchScan → BatchScan
  | [], s => s
  | material :: rest, s =>
    let tokens := estimateMaterialTokens material.text
    if loopBatchMaxMaterials ≤ s.batch.length then s
    else if cap < tokens then
      scanBatch cap rest { s with
        overLimitDropped := s.overLimitDropped + 1
        candidateCursor := s.candidateCursor + 1 }
    -- what does not fit any more is left to the next turn, and so is all behind it
    else if cap < s.usedTokens + tokens then s
    else
      scanBatch cap rest { s with
        batch := s.batch ++ [material]
        usedTokens := s.usedTokens + tokens
        candidateCursor := s.candidateCursor + 1 }

/-- The batch cut from the materials behind the cursor. -/
def nextBatch (materials : List LoopMaterial) (cap : Int) (cursor : Nat) : BatchScan :=
  scanBatch cap (materials.drop cursor) { candidateCursor := cursor }

/-! ## Reading what the model answers -/

def sceneTypeOf : String → Option SceneType
  | "summary" => some .summary
  | "cover" => some .cover
  | "stats" => some .stats
  | "diary_highlight" => some .diaryHighlight
  | "bet_highlight" => some .betHighlight
  | "milestone" => some .milestone
  | _ => none

/-- A field of type `list[str]`. -/
def stringList : Option Json → Option (List String)
  | some (.arr items) => items.mapM Json.str?
  | _ => none

/-- A field of type `str | None`, with `None` for a default. -/
def optionalString : Option Json → Option (Option String)
  | none | some .null => some none
  | some (.str s) => some (some s)
  | some _ => none

/-- `_BatchSceneOutput.model_validate`. -/
def batchSceneOutput : Json → Option BatchScene
  | .obj fields =>
    if fields.all (fun f => decide (f.1 ∈
        ["scene_id", "scene_type", "source_refs", "body", "title_word"])) then do
      let sceneId ← (Json.get? "scene_id" fields).bind Json.str?
      let sceneType ← ((Json.get? "scene_type" fields).bind Json.str?).bind sceneTypeOf
      let sourceRefs ← stringList (Json.get? "source_refs" fields)
      let body ← (Json.get? "body" fields).bind Json.str?
      let titleWord ← optionalString (Json.get? "title_word" fields)
      pure ⟨sceneId, sceneType, sourceRefs, body, titleWord⟩
    else none
  | _ => none

/-- `_SceneBatchPlanOutput.model_validate`. -/
def sceneBatchPlanOutput : Json → Option (List BatchScene)
  | .obj fields =>
    if fields.all (fun f => decide (f.1 = "scenes")) then
      match Json.get? "scenes" fields with
      | some (.arr scenes) => scenes.mapM batchSceneOutput
      | _ => none
    else none
  | _ => none

/-- `SemanticValidator.validate` on a scene: none of its fields is one of the
forbidden ones, so its references are all there is to look at. -/
def semanticErrorCodes (trustedRefs : List String) (scene : BatchScene) : List String :=
  if scene.sourceRefs.all (fun ref => decide (ref ∈ trustedRefs)) then [] else ["UNKNOWN_SOURCE_REF"]

/-- One scene of a batch of `count`, at its position; none where the batch is
refused for it. -/
def acceptScene (batchRefs : List String) (isFirstBatch isFinalBatch : Bool) (count position : Nat)
    (scene : BatchScene) : Option BatchScene :=
  if semanticErrorCodes batchRefs scene ≠ [] then none
  else if scene.sourceRefs = [] ∨ isBlank scene.body = true then none
  else if scene.sceneType = .cover ∧ (isFirstBatch = false ∨ position ≠ 0) then none
  else if scene.sceneType = .summary ∧ (isFinalBatch = false ∨ position + 1 ≠ count) then none
  else if ∃ word ∈ scene.titleWord, word = "" ∨ 6 < word.length then none
  else some { scene with sourceRefs := scene.sourceRefs.eraseDups }

def acceptScenes (batchRefs : List String) (isFirstBatch isFinalBatch : Bool) (count : Nat) :
    Nat → List BatchScene → Option (List BatchScene)
  | _, [] => some []
  | position, scene :: rest => do
    let entry ← acceptScene batchRefs isFirstBatch isFinalBatch count position scene
    let entries ← acceptScenes batchRefs isFirstBatch isFinalBatch count (position + 1) rest
    pure (entry :: entries)

/-- `_parse_batch_output`. -/
def parseBatchOutput (agentVersion : String) (data : ModelData) (batchRefs : List String)
    (isFirstBatch isFinalBatch : Bool) : Option (List BatchScene) := do
  let value ← data.value
  let output ← sceneBatchPlanOutput value
  let scenes ← acceptScenes batchRefs isFirstBatch isFinalBatch output.length 0 output
  if versionAtLeast agentVersion [1, 0, 6] = true ∧
      ((isFirstBatch = true ∧ scenes.head?.map (·.sceneType) ≠ some .cover) ∨
        (isFinalBatch = true ∧ scenes.getLast?.map (·.sceneType) ≠ some .summary)) then none
  else pure scenes

/-! ## One turn -/

/-- How many materials the scenes refer to. -/
def coveredRefs (scenes : List BatchScene) : Nat :=
  (scenes.flatMap (·.sourceRefs)).eraseDups.length

/-- What is asked of the model for a batch. -/
def batchRequest (iterationIndex : Nat) (loop : MemoirLoop) (scan : BatchScan) : BatchRequest where
  batchIndex := iterationIndex
  isFirstBatch := loop.scenes.isEmpty
  isFinalBatch := decide (loop.materials.length ≤ scan.candidateCursor)
  sourceRefs := scan.batch.map (·.sourceRef)
  materials := scan.batch

/-- The loop once the call for a batch has been made. Up to 1.0.5 a batch is
consumed when it is cut, later when its scenes are accepted. -/
def callForBatch (agentVersion : String) (request : BatchRequest) (scan : BatchScan)
    (loop : MemoirLoop) : MemoirLoop :=
  let stash : LoopBatch := ⟨request.batchIndex, scan.batch, request.sourceRefs⟩
  { loop with
    cursor := if versionAtLeast agentVersion [1, 0, 6] then loop.cursor else scan.candidateCursor
    firstBatch := if request.isFirstBatch then some stash else loop.firstBatch
    finalBatch := if request.isFinalBatch then some stash else loop.finalBatch
    requests := loop.requests ++ [request] }

/-- The result of a turn that has added the scenes of a batch. -/
def batchResult (isFinalBatch : Bool) (scenes : List BatchScene) : LoopIterationResult where
  outcome := if isFinalBatch then .complete else .goesOn
  reasonCode := if isFinalBatch then some "LOOP_COMPLETE" else none
  outputCount := scenes.length
  coverageCount := coveredRefs scenes

/-- `run_loop_iteration`; an error is the code it raises. -/
def runLoopIteration (agentVersion : String) (model : LoopModel) (window : Option Int)
    (iterationIndex : Nat) (budget : InheritedLoopBudget) (loop : MemoirLoop) :
    Except String LoopIterationResult × MemoirLoop :=
  if loop.materials.length ≤ loop.cursor then
    (.ok { outcome := .complete, reasonCode := some "LOOP_MATERIALS_EXHAUSTED" }, loop)
  else
    let cap := loopBatchTokenCap window budget.remainingTokens
    let scan := nextBatch loop.materials cap loop.cursor
    if scan.batch = [] then
      (.ok { outcome := .goesOn, reasonCode := some "LOOP_BATCH_ALL_OVER_LIMIT" },
        { loop with cursor := scan.candidateCursor })
    else
      let request := batchRequest iterationIndex loop scan
      let called := callForBatch agentVersion request scan loop
      match model request with
      | none => (.error "LOOP_BATCH_MODEL_UNAVAILABLE", called)
      | some data =>
        match parseBatchOutput agentVersion data request.sourceRefs request.isFirstBatch
          request.isFinalBatch with
        | none => (.error "LOOP_BATCH_OUTPUT_INVALID", called)
        | some scenes =>
          (.ok (batchResult request.isFinalBatch scenes),
            { called with
              cursor := scan.candidateCursor
              scenes := loop.scenes ++ scenes })

/-! ## The end of the loop -/

/-- What the scenes lack. -/
inductive StructureGap
  | sceneCountInsufficient | coverMissing | summaryMissing
  deriving DecidableEq, Repr

def StructureGap.code : StructureGap → String
  | .sceneCountInsufficient => "LOOP_SCENE_COUNT_INSUFFICIENT"
  | .coverMissing => "LOOP_COVER_MISSING"
  | .summaryMissing => "LOOP_SUMMARY_MISSING"

/-- `_loop_structure_reason`. -/
def loopStructureReason (scenes : List BatchScene) : Option StructureGap :=
  if scenes.length < 3 then some .sceneCountInsufficient
  else if scenes.head?.map (·.sceneType) ≠ some .cover then some .coverMissing
  else if scenes.getLast?.map (·.sceneType) ≠ some .summary then some .summaryMissing
  else none

/-- The number of the batch in a scene id, `re.match(r"^s(\d+)-", scene_id)`. -/
def batchNumber (sceneId : String) : Option Nat :=
  match sceneId.toList with
  | 's' :: rest =>
    let digits := rest.takeWhile Char.isDigit
    if digits ≠ [] ∧ (rest.dropWhile Char.isDigit).head? = some '-' then digitsFrom 0 digits
    else none
  | _ => none

/-- `_next_repair_batch_index`. -/
def nextRepairBatchIndex (scenes : List BatchScene) : Nat :=
  (scenes.filterMap fun scene => batchNumber scene.sceneId).foldl max 0 + 1

/-- `_repair_loop_structure`, for a missing summary or a missing cover:
whether the gap was closed. -/
def repairLoopStructure (agentVersion : String) (model : LoopModel) (wantSummary : Bool)
    (batchIndex : Nat) (loop : MemoirLoop) : Bool × MemoirLoop :=
  let target : SceneType := if wantSummary then .summary else .cover
  match if wantSummary then loop.finalBatch else loop.firstBatch with
  | none => (false, loop)
  | some stash =>
    let request : BatchRequest := {
      batchIndex := batchIndex
      isFirstBatch := !wantSummary
      isFinalBatch := wantSummary
      sourceRefs := stash.batchRefs
      requiredSceneType :=
        if versionAtLeast agentVersion [1, 0, 6] then some target else none
      materials := stash.batch }
    let called := { loop with requests := loop.requests ++ [request] }
    match model request with
    | none => (false, called)
    | some data =>
      let scenes :=
        (parseBatchOutput agentVersion data stash.batchRefs (!wantSummary) wantSummary).getD []
      match scenes.find? fun scene => decide (scene.sceneType = target) with
      | none => (false, called)
      | some card =>
        (true, { called with
          scenes := if wantSummary then loop.scenes ++ [card] else card :: loop.scenes })

/-- The repairs of `finalize_loop`, at most `n` of them. -/
def repairStructure (agentVersion : String) (model : LoopModel) : Nat → MemoirLoop → MemoirLoop
  | 0, loop => loop
  | n + 1, loop =>
    let repaired (wantSummary : Bool) : MemoirLoop :=
      match repairLoopStructure agentVersion model wantSummary
        (nextRepairBatchIndex loop.scenes) loop with
      | (false, loop') => loop'
      | (true, loop') => repairStructure agentVersion model n loop'
    match loopStructureReason loop.scenes with
    | some .coverMissing => repaired false
    | some .summaryMissing => repaired true
    | _ => loop

/-- `finalize_loop`. -/
def finalizeLoop (agentVersion : String) (model : LoopModel) (loop : MemoirLoop) :
    LoopIterationResult × MemoirLoop :=
  let loop' := repairStructure agentVersion model 2 loop
  let result (outcome : LoopOutcome) (reasonCode : String) : LoopIterationResult :=
    { outcome := outcome
      reasonCode := some reasonCode
      outputCount := loop'.scenes.length
      coverageCount := coveredRefs loop'.scenes }
  match loopStructureReason loop'.scenes with
  | some gap => (result .failed gap.code, loop')
  | none => (result .complete "LOOP_STRUCTURE_COMPLETE", loop')

end MemoirNodeRunner

/-! ## The loop node -/

/-- What the executor gives one turn of the body: the budget that is left,
and what the gateway says of the route's context. -/
structure LoopTurn where
  budget : InheritedLoopBudget
  window : Option Int := none
  deriving DecidableEq, Repr

namespace BoundedLoop

/-- `merge_unique_scenes`, on the scenes of the memoir. -/
def mergeScenes (seen : List String) : List BatchScene → List BatchScene
  | [] => []
  | scene :: scenes =>
    if scene.sceneId ∈ seen then mergeScenes seen scenes
    else scene :: mergeScenes (scene.sceneId :: seen) scenes

/-- It is the executor's merge, which looks at the ids alone. -/
theorem mergeScenes_ids (scenes : List BatchScene) : ∀ seen : List String,
    (mergeScenes seen scenes).map (fun scene => (⟨some scene.sceneId⟩ : Scene))
      = mergeUniqueScenes seen (scenes.map fun scene => ⟨some scene.sceneId⟩) := by
  induction scenes with
  | nil => intro seen; rfl
  | cons scene scenes ih =>
    intro seen
    simp only [mergeScenes, List.map_cons, mergeUniqueScenes]
    split
    · exact ih seen
    · rw [List.map_cons, ih]

end BoundedLoop

open MemoirNodeRunner BoundedLoop in
/-- The turns of the loop from number `index` on, until the body says that it
is done or no further turn is granted. A turn that raises is skipped. -/
def runLoopTurns (agentVersion : String) (model : LoopModel) :
    Nat → List LoopTurn → MemoirLoop → MemoirLoop
  | _, [], loop => loop
  | index, turn :: turns, loop =>
    match runLoopIteration agentVersion model turn.window index turn.budget loop with
    | (.error _, loop') => runLoopTurns agentVersion model (index + 1) turns loop'
    | (.ok result, loop') =>
      let merged := { loop' with scenes := mergeScenes [] loop'.scenes }
      if result.outcome = .goesOn then runLoopTurns agentVersion model (index + 1) turns merged
      else merged

open MemoirNodeRunner in
/-- The loop node of a run: where it begins, the turns it is granted, and its
end. -/
def runLoopNode (agentVersion : String) (model : LoopModel) (sanitizedMaterial : Json)
    (turns : List LoopTurn) : Except String (LoopIterationResult × MemoirLoop) := do
  let loop ← beginLoop (some model) sanitizedMaterial
  pure (finalizeLoop agentVersion model (runLoopTurns agentVersion model 1 turns loop))

end AgentRuntime
