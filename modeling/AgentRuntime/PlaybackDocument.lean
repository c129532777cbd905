import AgentRuntime.ToolGateway

/-!
# Playback documents

What `MemoryArchiveService` checks of a document before it publishes it:
`_validate_complete_document` and `_validate_document_source_references`.
A document is the JSON object of the request. Each check stops with the code
the service raises; where Python raises a `TypeError` instead (a list looked
up in a set, a number iterated over) the code is `TypeError`.

The references a document makes come out as sources, a type and an id each. A
repeated source is kept once, which is what the set of the source does.
-/

namespace AgentRuntime

/-- A material source: its type and its id. -/
structure Source where
  sourceType : String
  sourceId : String
  deriving DecidableEq, Repr

def invalid (code : String) : ServiceError := .value code

/-- `value in names`, for a set of strings; what cannot be hashed raises. -/
def Json.memberOf (names : List String) : Json → Result Bool
  | .str s => pure (decide (s ∈ names))
  | .arr _ => .error (invalid "TypeError")
  | .obj _ => .error (invalid "TypeError")
  | _ => pure false

namespace PlaybackDocument

/-- `_SCENE_TYPES`. -/
def sceneTypes : List String :=
  ["cover", "stats", "diary_highlight", "bet_highlight", "image", "milestone", "summary"]

/-- `_ACTION_TYPES`. -/
def actionTypes : List String :=
  ["show_card", "focus_image", "type_text", "hold", "play_tts", "transition"]

/-- `_SAFETY_LEVELS`. -/
def safetyLevels : List String := ["normal", "sensitive", "fallback"]

/-- `_MEMORY_SCHEMA_MAJOR`. -/
def memorySchemaMajor : Int := 1

/-- `re.fullmatch(r"[1-9]\d*\.\d+\.\d+", version)`. -/
def isSemver (text : PyText) (version : String) : Bool :=
  match version.toList.splitOn '.' with
  | [c :: major, minor, patch] =>
    decide ('1' ≤ c ∧ c ≤ '9') && major.all text.isDecimal &&
      (!minor.isEmpty && minor.all text.isDecimal) && (!patch.isEmpty && patch.all text.isDecimal)
  | _ => false

/-- `_document_schema_major`. -/
def schemaMajor (text : PyText) (document : List (String × Json)) : Result Int :=
  match Json.get? "schema_version" document with
  | some (.str version) =>
    if isSemver text version then
      match text.parseInt (String.ofList (version.toList.takeWhile (· ≠ '.'))) with
      | some major => pure major
      | none => .error (invalid "ValueError")
    else .error (invalid "MEMORY_DOCUMENT_SCHEMA_UNSUPPORTED")
  | _ => .error (invalid "MEMORY_DOCUMENT_SCHEMA_UNSUPPORTED")

/-! ## Scenes and actions -/

/-- The error for a scene that is not accepted. -/
def refuseScene : Json → Result Unit
  | .obj scene => do
    let safe ← ((Json.get? "safety_level" scene).getD (.str "normal")).memberOf safetyLevels
    .error (invalid (if safe then "MEMORY_SCENE_TYPE_INVALID" else "MEMORY_SCENE_SAFETY_INVALID"))
  | _ => .error (invalid "MEMORY_SCENE_TYPE_INVALID")

/-- One scene, after the scenes with the ids `seen`; its id. -/
def checkScene (seen : List String) (scene : Json) : Result (List String) :=
  match scene with
  | .obj fields =>
    match Json.get? "scene_id" fields with
    | some (.str id) => do
      if id = "" then do
        refuseScene scene
        pure seen
      else do
        let typed ← ((Json.get? "scene_type" fields).getD .null).memberOf sceneTypes
        if typed then do
          let safe ← ((Json.get? "safety_level" fields).getD (.str "normal")).memberOf safetyLevels
          if safe = true ∧ id ∉ seen then pure (seen ++ [id])
          else do
            refuseScene scene
            pure seen
        else do
          refuseScene scene
          pure seen
    | _ => do
      refuseScene scene
      pure seen
  | _ => do
    refuseScene scene
    pure seen

/-- The loop over the scenes; the scene ids. -/
def checkScenes : List String → List Json → Result (List String)
  | seen, [] => pure seen
  | seen, scene :: scenes => do
    let seen' ← checkScene seen scene
    checkScenes seen' scenes

/-- A positive integer that is no boolean. -/
def positiveInt : Json → Option Int
  | .int n => if 0 < n then some n else none
  | _ => none

/-- The `order` of an action: `none` where it is absent or `None`. -/
def actionOrder (orders : List (String × Int)) (sceneId : String) :
    Option Json → Result (List (String × Int))
  | none => pure orders
  | some .null => pure orders
  | some order =>
    match positiveInt order with
    | some n =>
      if (sceneId, n) ∈ orders then .error (invalid "MEMORY_ACTION_INVALID")
      else pure (orders ++ [(sceneId, n)])
    | none => .error (invalid "MEMORY_ACTION_INVALID")

/-- One action, after actions with the explicit orders `orders`. -/
def checkAction (sceneIds : List String) (orders : List (String × Int)) :
    Json → Result (List (String × Int))
  | .obj action =>
    match Json.get? "action_id" action with
    | some (.str _) => do
      let known ← ((Json.get? "scene_id" action).getD .null).memberOf sceneIds
      require (known = true) (invalid "MEMORY_ACTION_INVALID")
      let typed ← ((Json.get? "action_type" action).getD .null).memberOf actionTypes
      require (typed = true) (invalid "MEMORY_ACTION_INVALID")
      require (((Json.get? "duration_ms" action).bind positiveInt).isSome = true)
        (invalid "MEMORY_ACTION_INVALID")
      actionOrder orders (((Json.get? "scene_id" action).bind Json.str?).getD "")
        (Json.get? "order" action)
    | _ => .error (invalid "MEMORY_ACTION_INVALID")
  | _ => .error (invalid "MEMORY_ACTION_INVALID")

/-- The loop over the actions. -/
def checkActions (sceneIds : List String) : List (String × Int) → List Json → Result Unit
  | _, [] => pure ()
  | orders, action :: actions => do
    let orders' ← checkAction sceneIds orders action
    checkActions sceneIds orders' actions

/-- The scenes and the actions of a complete document. -/
structure Body where
  scenes : List Json
  actions : List Json

/-- `_validate_complete_document`. -/
def validateComplete (text : PyText) (document : List (String × Json)) : Result Body :=
  match Json.get? "schema_version" document, Json.get? "scenes" document,
      Json.get? "actions" document, Json.get? "media_manifest" document with
  | some (.str _), some (.arr scenes), some (.arr actions), some (.arr media) => do
    let major ← schemaMajor text document
    require (major = memorySchemaMajor) (invalid "MEMORY_DOCUMENT_SCHEMA_UNSUPPORTED")
    require (media.isEmpty = true) (invalid "MEMORY_DOCUMENT_MEDIA_INVALID")
    let sceneIds ← checkScenes [] scenes
    checkActions sceneIds [] actions
    pure ⟨scenes, actions⟩
  | _, _, _, _ => .error (invalid "播放文档不是完整的可发布版本")

/-! ## Source references -/

/-- The part before the first colon and the part after it. -/
def splitReference (reference : String) : Option Source :=
  let head := reference.toList.takeWhile (· ≠ ':')
  match reference.toList.drop head.length with
  | _ :: tail => some ⟨String.ofList head, String.ofList tail⟩
  | [] => none

/-- One entry of `source_refs`. -/
def reference : Json → Result Source
  | .str s =>
    match splitReference s with
    | some source =>
      if source.sourceType ∈ ["diary", "completed_bet"] ∧ source.sourceId ≠ "" then pure source
      else .error (invalid "MEMORY_SOURCE_REF_NOT_FROZEN")
    | none => .error (invalid "MEMORY_SOURCE_REF_NOT_FROZEN")
  | _ => .error (invalid "MEMORY_SOURCE_REF_NOT_FROZEN")

def addReferences : List Source → List Json → Result (List Source)
  | found, [] => pure found
  | found, entry :: entries => do
    let source ← reference entry
    addReferences (if source ∈ found then found else found ++ [source]) entries

/-- The references of all scenes. -/
def references : List Source → List Json → Result (List Source)
  | found, [] => pure found
  | found, .obj scene :: scenes =>
    match ((Json.get? "source_refs" scene).getD (.arr [])).iterate with
    | none => .error (invalid "TypeError")
    | some entries => do
      let found' ← addReferences found entries
      references found' scenes
  | _, _ :: _ => .error (invalid "TypeError")

/-- The ids a manifest lists under a key, as strings. -/
def manifestIds (manifest : List (String × Json)) (key : String) : Result (List String) :=
  match ((Json.get? key manifest).getD (.arr [])).iterate with
  | none => .error (invalid "TypeError")
  | some items => pure (items.filterMap fun item =>
      match item with
      | .str s => some s
      | .int n => some (toString n)
      | _ => none)

/-- The sources a snapshot's manifest allows. -/
def allowedSources (manifest : List (String × Json)) : Result (List Source) := do
  let diaries ← manifestIds manifest "diary_ids"
  let bets ← manifestIds manifest "bet_ids"
  pure (diaries.map (Source.mk "diary") ++ bets.map (Source.mk "completed_bet"))

end PlaybackDocument

end AgentRuntime
