import AgentRuntime.SafetyReview

/-!
# The media node and the safety review

`enqueue_media_tasks` lets the media service illustrate the scenes, one after
the other: a scene gets a payload with the URL of its image, or it stays a
text card where the time is up, the lease is lost or the image fails. Before
anything leaves, the scenes pass the same review that `safety_review` holds
at the end. `safety_review` then publishes what passes, and three base cards
where it does not.

What comes from outside while a scene is illustrated is an `ImageTurn`. An
evaluation is also recorded; that is left out.
-/

namespace AgentRuntime

/-! ## The media service -/

/-- `MemoirMediaConfig`; the budget in the unit of the clock. -/
structure MemoirMediaConfig where
  imagePrefix : String
  urlHostSuffixes : List String
  nodeBudgetSeconds : Int

/-- `MemoirMediaConfig.__init__`. -/
def memoirMediaConfig (imagePrefix : String) (urlHostSuffixes : List String)
    (nodeBudgetSeconds : Int) : MemoirMediaConfig where
  imagePrefix := if imagePrefix.toList.getLast? = some '/' then imagePrefix else imagePrefix ++ "/"
  urlHostSuffixes := if urlHostSuffixes = [] then ["aliyuncs.com"] else urlHostSuffixes
  nodeBudgetSeconds := nodeBudgetSeconds

/-- What happens outside while one scene is illustrated. -/
structure ImageTurn where
  /-- `time.monotonic()`. -/
  clock : Int
  /-- What the provider returns; none where it raises. -/
  image : Option (List Nat)
  /-- The two `uuid4` drawn. -/
  keyId : String
  mediaId : String
  /-- The URL of the uploaded image; none where the upload raises. -/
  uploaded : Option String
  /-- Whether the lease is still held afterwards. -/
  heartbeat : Bool

/-- The service at the beginning of a node. -/
structure MediaService where
  config : MemoirMediaConfig
  started : Int
  turns : Nat → ImageTurn

/-- `sniff_image_mime`, and the extension. -/
def sniffImageMime (data : List Nat) : Option (String × String) :=
  if [0x89, 0x50, 0x4e, 0x47, 0x0d, 0x0a, 0x1a, 0x0a].isPrefixOf data then
    some ("image/png", "png")
  else if [0xff, 0xd8, 0xff].isPrefixOf data then some ("image/jpeg", "jpg")
  else if [0x52, 0x49, 0x46, 0x46].isPrefixOf data ∧
      (data.drop 8).take 4 = [0x57, 0x45, 0x42, 0x50] then
    some ("image/webp", "webp")
  else none

namespace MemoirMediaService

variable (lib : MediaLibrary) (config : MemoirMediaConfig)

/-- `_require_contract_url`. -/
def isContractUrl (url : String) : Bool :=
  match lib.urlparse url with
  | none => false
  | some parsed =>
    decide (parsed.scheme = "https") && decide (parsed.netloc ≠ "") &&
      (config.urlHostSuffixes.any fun suffix => decide (parsed.netloc = suffix) ||
        ("." ++ suffix).toList.isSuffixOf parsed.netloc.toList) &&
      startsWith ("/" ++ config.imagePrefix) parsed.path

/-- `_generate_one`; none where anything raises. -/
def generateOne (turn : ImageTurn) (sceneId : String) : Option JsonFields := do
  let data ← turn.image
  let (mime, extension) ← sniffImageMime data
  let url ← turn.uploaded
  if isContractUrl lib config url then
    some [("media_id", .str ("media-" ++ turn.mediaId)), ("kind", .str "image"),
      ("object_key", .str (config.imagePrefix ++ turn.keyId ++ "." ++ extension)),
      ("url", .str url), ("mime", .str mime), ("scene_id", .str sceneId)]
  else none

/-- `list(value or [])`. -/
def listOf : Json → Result (List Json)
  | .null | .bool false | .int 0 | .real 0 _ => pure []
  | value =>
    match value.iterate with
    | some items => pure items
    | none => .error (invalid "TypeError")

/-- The body of a scene, where it is a text. -/
def bodyField (scene : JsonFields) : JsonFields :=
  match Json.get? "body" scene with
  | some (.str body) => [("body", .str body)]
  | _ => []

/-- The title word of a scene, where there is one. -/
def titleField (scene : JsonFields) : JsonFields :=
  match Json.get? "title_word" scene with
  | some (.str word) => if word = "" then [] else [("title_word", .str word)]
  | _ => []

/-- `_scene_after_media`. -/
def sceneAfterMedia (scene : JsonFields) (entry : Option JsonFields) (keepType : Bool) :
    Result JsonFields := do
  let refs ← listOf (Json.getOr "source_refs" scene)
  let sceneType := Json.getOr "scene_type" scene
  match entry with
  | none =>
    let degraded := if keepType = true ∧ MemoirNodeRunner.isImage scene = false then sceneType
      else .str "summary"
    pure ([("scene_id", Json.getOr "scene_id" scene), ("scene_type", degraded),
      ("source_refs", .arr refs)] ++ bodyField scene)
  | some entry =>
    pure ([("scene_id", Json.getOr "scene_id" scene), ("scene_type", sceneType),
      ("source_refs", .arr refs)] ++ bodyField scene ++
      [("payload", .obj (("image_url", Json.getOr "url" entry) :: titleField scene))])

/-- The id of a scene that can be illustrated. -/
def sceneName (scene : JsonFields) : Option String :=
  (MemoirNodeRunner.textField "scene_id" scene).filter fun id => decide (id ≠ "")

/-- Whether an image is asked for: the scene has a name, the time is not up
and the lease has not been lost. -/
def isTried (deadline : Int) (lost : Bool) (turn : ImageTurn) (scene : JsonFields) : Bool :=
  (sceneName scene).isSome && decide (turn.clock < deadline) && !lost

/-- The manifest entry for a scene. -/
def entryFor (deadline : Int) (lost : Bool) (turn : ImageTurn) (scene : JsonFields) :
    Option JsonFields :=
  if isTried deadline lost turn scene then (sceneName scene).bind (generateOne lib config turn)
  else none

/-- The loop of `generate`, from the scene with this index on. -/
def illustrate (deadline : Int) (illustrateAll : Bool) (turns : Nat → ImageTurn) :
    Nat → Bool → List JsonFields → Result (List JsonFields × List JsonFields)
  | _, _, [] => pure ([], [])
  | index, lost, scene :: scenes =>
    if illustrateAll || MemoirNodeRunner.isImage scene then do
      let turn := turns index
      let entry := entryFor lib config deadline lost turn scene
      let updated ← sceneAfterMedia scene entry illustrateAll
      let rest ← illustrate deadline illustrateAll turns (index + 1)
        (if isTried deadline lost turn scene then !turn.heartbeat else lost) scenes
      pure (entry.toList ++ rest.1, updated :: rest.2)
    else do
      let rest ← illustrate deadline illustrateAll turns (index + 1) lost scenes
      pure (rest.1, scene :: rest.2)

end MemoirMediaService

/-- `generate`: the manifest, and the scenes after it. -/
def MediaService.generate (lib : MediaLibrary) (service : MediaService)
    (scenes : List JsonFields) (illustrateAll : Bool) :
    Result (List JsonFields × List JsonFields) :=
  MemoirMediaService.illustrate lib service.config
    (service.started + service.config.nodeBudgetSeconds) illustrateAll service.turns 0 false scenes

/-! ## Actions and base cards -/

namespace MemoirNodeRunner

/-- `_SCENE_ACTION_RULES`. -/
def sceneActionRules : List (String × String) :=
  [("cover", "show_card"), ("stats", "show_card"), ("diary_highlight", "type_text"),
   ("bet_highlight", "type_text"), ("milestone", "show_card"), ("summary", "show_card"),
   ("image", "type_text")]

def actionTypeFor (scene : JsonFields) : String :=
  ((textField "scene_type" scene).bind fun name => sceneActionRules.lookup name).getD "show_card"

/-- Whether the scene shows an image. -/
def hasImageUrl (scene : JsonFields) : Bool :=
  match Json.get? "payload" scene with
  | some (.obj payload) => (textField "image_url" payload).any fun url => decide (url ≠ "")
  | _ => false

def durationFor (scene : JsonFields) : Nat :=
  if actionTypeFor scene = "type_text" then
    max 3000 (((textField "body" scene).getD "").length * 75 + 1500)
  else if hasImageUrl scene then 5000 else 3000

/-- The action for a scene, at its place. -/
def ruleAction (index : Nat) (scene : JsonFields) : Option JsonFields :=
  (textField "scene_id" scene).map fun id =>
    [("action_id", .str ("action-" ++ toString index)), ("scene_id", .str id),
     ("action_type", .str (actionTypeFor scene)), ("duration_ms", .int (durationFor scene))]

def ruleActionsFrom : Nat → List JsonFields → List JsonFields
  | _, [] => []
  | index, scene :: scenes => (ruleAction index scene).toList ++ ruleActionsFrom (index + 1) scenes

/-- `_rule_actions`. -/
def ruleActions (scenes : List JsonFields) : List JsonFields := ruleActionsFrom 1 scenes

/-- `_TEMPLATE_SCENE_BODIES`. -/
def templateSceneBodies : List String :=
  ["这一路的小事，都被好好收藏在这本回忆里。",
   "每一次并肩与交心，都是我们最珍贵的默契。",
   "往后的日子，也一起慢慢写下新的故事吧。"]

/-- `_template_scene`. -/
def templateScene (index : Nat) (sourceRefs : List String) : JsonFields :=
  [("scene_id", .str ("scene-" ++ toString index)), ("scene_type", .str "summary"),
   ("source_refs", .arr (sourceRefs.map .str)),
   ("body", .str (templateSceneBodies.getD ((index - 1) % templateSceneBodies.length) ""))]

/-- The scenes of `_base_scenes_actions`. -/
def baseScenes : List JsonFields := [1, 2, 3].map fun index => templateScene index []

/-- The actions of `_base_scenes_actions`. -/
def baseActions : List JsonFields :=
  [1, 2, 3].map fun index =>
    [("action_id", .str ("action-" ++ toString index)),
     ("scene_id", .str ("scene-" ++ toString index)), ("action_type", .str "show_card"),
     ("duration_ms", .int 3000)]

/-! ## References -/

/-- A material that is not sensitive, by its reference. -/
def safeRef : Json → Option String
  | .obj item =>
    match Json.get? "sensitive" item with
    | some (.bool false) => textField "source_ref" item
    | _ => none
  | _ => none

/-- `_safe_material_refs`. -/
def safeMaterialRefs (sanitizedMaterial : Option JsonFields) (agentVersion : String) :
    List String :=
  match sanitizedMaterial.bind (Json.get? "materials") with
  | some (.arr materials) =>
    let refs := (materials.filterMap safeRef).eraseDups
    if versionAtLeast agentVersion [1, 0, 5] then refs else refs.take 8
  | _ => []

/-- `_playback_source_refs`. -/
def playbackSourceRefs (scenes : List JsonFields) : Result (List String) :=
  match chapterRefs (scenes.map .obj) with
  | some refs => pure refs
  | none => .error (invalid "TypeError")

/-- The references that scenes may make. -/
def trustedSourceRefs (state : AgentState) (agentVersion : String) (scenes : List JsonFields) :
    Result (List String) :=
  match state.sanitizedMaterial with
  | some material => pure (safeMaterialRefs (some material) agentVersion)
  | none => playbackSourceRefs scenes

/-! ## The two nodes -/

/-- Both reviews of a document. -/
def passesReview (cc : CharClasses) (lib : MediaLibrary) (rules : PlaybackRules)
    (trustedRefs : List String) (scenes actions mediaTasks : Option (List JsonFields)) :
    Result Bool := do
  let evaluation ← MemoirPlaybackEvaluator.evaluate cc trustedRefs [] scenes actions
  if evaluation.passes then isSafePlayback cc lib rules scenes actions mediaTasks else pure false

/-- What `enqueue_media_tasks` returns. -/
inductive MediaNodeResult
  | skipped (reasonCode : String)
  | delivered (count : Nat)
  deriving DecidableEq, Repr

/-- A scene without an image: no `image` scene, and no title word. -/
def withoutImage (scene : JsonFields) : JsonFields :=
  (if isImage scene then
    scene.map fun field => if field.1 = "scene_type" then (field.1, .str "summary") else field
  else scene).filter fun field => decide (field.1 ≠ "title_word")

/-- The rules for what may be sent to the media service. -/
def egressRules (agentVersion : String) : PlaybackRules where
  agentVersion := agentVersion
  sceneTypes := mediaSceneTypes
  perSceneMedia := perSceneMediaEnabled agentVersion
  mediaPending := true

/-- Whether the scenes may be sent to the media service. -/
def mayIllustrate (cc : CharClasses) (lib : MediaLibrary) (agentVersion : String)
    (state : AgentState) (scenes : List JsonFields) : Result Bool := do
  let trustedRefs ← trustedSourceRefs state agentVersion scenes
  passesReview cc lib (egressRules agentVersion) trustedRefs (some scenes)
    (some (state.actions.getD (ruleActions scenes))) none

/-- How many images there should be. -/
def imageTarget (agentVersion : String) (scenes : List JsonFields) : Nat :=
  if perSceneMediaEnabled agentVersion then scenes.length else (scenes.filter isImage).length

/-- `enqueue_media_tasks`. -/
def enqueueMediaTasks (cc : CharClasses) (lib : MediaLibrary) (mediaService : Option MediaService)
    (agentVersion : String) (state : AgentState) : Result (MediaNodeResult × AgentState) :=
  let perScene := perSceneMediaEnabled agentVersion
  let scenes := state.scenes.getD []
  let hasImage := scenes.any isImage
  match if mediaVersionEnabled agentVersion then mediaService else none with
  | none =>
    if hasImage || perScene then
      let degraded := scenes.map withoutImage
      pure (.skipped "CAPABILITY_DISABLED",
        { state with
          mediaTasks := some []
          scenes := some degraded
          actions := some (ruleActions degraded)
          fallbackFlags := state.fallbackFlags ++ ["media_disabled_degraded"] })
    else pure (.skipped "CAPABILITY_DISABLED", { state with mediaTasks := some [] })
  | some service =>
    if hasImage = false ∧ perScene = false then
      pure (.skipped "NO_IMAGE_SCENE", { state with mediaTasks := some [] })
    else do
      let safe ← mayIllustrate cc lib agentVersion state scenes
      if safe then do
        let media ← service.generate lib scenes perScene
        pure (.delivered media.1.length,
          { state with
            mediaTasks := some media.1
            scenes := some media.2
            actions := some (ruleActions media.2)
            fallbackFlags := state.fallbackFlags ++
              if media.1.length < imageTarget agentVersion scenes then ["media_degraded"] else [] })
      else
        pure (.skipped "MEDIA_EGRESS_SAFETY_REJECTED",
          { state with
            scenes := some baseScenes
            actions := some baseActions
            mediaTasks := some []
            fallbackFlags := state.fallbackFlags ++ ["media_egress_safety_fallback"] })

/-- The rules for what is published. -/
def reviewRules (config : Option MemoirMediaConfig) (agentVersion : String) : PlaybackRules where
  agentVersion := agentVersion
  sceneTypes := if mediaVersionEnabled agentVersion then mediaSceneTypes else plainSceneTypes
  perSceneMedia := perSceneMediaEnabled agentVersion
  imagePrefix := (config.map (·.imagePrefix)).getD mediaImagePrefix

/-- The document of the state. -/
def playbackDocument (agentVersion : String) (scenes actions mediaTasks : Option (List JsonFields)) :
    JsonFields :=
  [("schema_version", .str (if audioVersionEnabled agentVersion then "2.0.0" else "1.0.0")),
   ("scenes", AgentState.dicts scenes), ("actions", AgentState.dicts actions),
   ("media_manifest", .arr ((mediaTasks.getD []).map .obj))] ++
  if audioVersionEnabled agentVersion then
    [("audio", .obj [("narrations", .arr []), ("background_music", .null)])]
  else []

/-- The state with its safety report and the document. -/
def reviewed (agentVersion : String) (passed : Bool) (state : AgentState) : AgentState :=
  { state with
    safetyReport := some (if passed then [("decision", .str "passed")]
      else [("decision", .str "fallback"), ("reason", .str "INVALID_PLAYBACK_STRUCTURE")])
    playbackDocument :=
      some (playbackDocument agentVersion state.scenes state.actions state.mediaTasks) }

/-- The state with the base cards. -/
def onBaseCards (state : AgentState) : AgentState :=
  { state with
    scenes := some baseScenes
    actions := some baseActions
    mediaTasks := some []
    fallbackFlags := state.fallbackFlags ++ ["safety_fallback"] }

/-- `safety_review`: whether the document has passed, and the state. -/
def safetyReview (cc : CharClasses) (lib : MediaLibrary) (config : Option MemoirMediaConfig)
    (agentVersion : String) (state : AgentState) : Result (Bool × AgentState) := do
  let trustedRefs ← trustedSourceRefs state agentVersion (state.scenes.getD [])
  let passed ← passesReview cc lib (reviewRules config agentVersion) trustedRefs state.scenes
    state.actions state.mediaTasks
  pure (passed, reviewed agentVersion passed (if passed then state else onBaseCards state))

/-- The two nodes after each other. -/
def mediaThenReview (cc : CharClasses) (lib : MediaLibrary) (mediaService : Option MediaService)
    (agentVersion : String) (state : AgentState) : Result (Bool × AgentState) := do
  let illustrated ← enqueueMediaTasks cc lib mediaService agentVersion state
  safetyReview cc lib (mediaService.map (·.config)) agentVersion illustrated.2

end MemoirNodeRunner

end AgentRuntime
