import AgentRuntime.SemanticCheck
import AgentRuntime.MemoirLoop

/-!
# What is checked before a document is published

`MemoirPlaybackEvaluator.evaluate` looks at the scenes, the actions, the
references and the texts, and collects its reasons against them.
`_is_safe_playback` looks at the shape, and holds the media manifest against
the scenes that carry an image. Both have to pass. What has passed them is
described by `Reviewed` and `SafePlayback`.

What Python's library does with a URL and a UUID is a parameter.
-/

namespace AgentRuntime

open Regex

namespace MemoirGuardrails

/-- `.`. -/
def anyChar (c : Char) : Bool := decide (c ≠ '\n')

/-- `_EMOTIONAL_RISK`. -/
def emotionalRisk : Re Char :=
  .choice (.literal "关系失败".toList)
    [.literal "都怪你".toList,
     .seq (.choice (.literal "都是".toList) [.literal "全是".toList, .literal ['你']])
       (.seq (.upTo anyChar 8) (.literal ['错'])),
     .literal "复合".toList,
     .literal "重新在一起".toList]

/-- `violations`. -/
def violations (cc : CharClasses) : Json → List String
  | .str body =>
    (if search (sensitiveIdentifier cc) none body.toList then ["SENSITIVE_IDENTIFIER_BLOCKED"]
      else []) ++
    if search emotionalRisk none body.toList then ["EMOTIONAL_LANGUAGE_BLOCKED"] else []
  | _ => []

end MemoirGuardrails

namespace MemoirPlaybackEvaluator

open PlaybackDocument SemanticValidator

/-- `EvaluationDecisionDTO`, as this evaluator fills it. -/
structure Evaluation where
  reasons : List String
  sceneCount : Nat
  actionCount : Nat
  sourceRefCount : Nat

/-- `decision == "pass"`. -/
def Evaluation.passes (evaluation : Evaluation) : Bool := evaluation.reasons.isEmpty

/-- `next_node`. -/
def Evaluation.nextNode (evaluation : Evaluation) : String :=
  if evaluation.passes then "publish_document" else "safety_fallback"

/-- `scores`. -/
def Evaluation.scores (evaluation : Evaluation) : List (String × Nat) :=
  [("grounding", if "UNKNOWN_SOURCE_REF" ∈ evaluation.reasons then 0 else 1),
   ("structure", if evaluation.passes then 1 else 0)]

/-- `_CAPABILITY_ACTIONS`. -/
def capabilityActions : List (String × String) :=
  [("focus_image", "image"), ("play_tts", "tts")]

/-- The capability an action of this type needs. -/
def capabilityOf (actionType : Json) : Option String :=
  actionType.str?.bind fun name => capabilityActions.lookup name

/-- `None`, or a text. -/
def isBody : Json → Bool
  | .null | .str _ => true
  | _ => false

/-- `n == value`. -/
def equalsInt (n : Int) : Json → Bool
  | .int m => decide (m = n)
  | .bool b => decide ((if b then 1 else 0) = n)
  | .real mantissa scale => decide (mantissa = n * (Nat.pow 10 scale : Nat))
  | _ => false

/-- The reasons against a scene. -/
def sceneReasons (cc : CharClasses) (trustedRefs seen : List String) (scene : JsonFields) :
    Result (List String) := do
  let semantic ← validate trustedRefs (.obj scene)
  let typed ← (Json.getOr "scene_type" scene).memberOf sceneTypes
  let safe ← ((Json.get? "safety_level" scene).getD (.str "normal")).memberOf safetyLevels
  pure (semantic.errorCodes ++
    (if (freshId "scene_id" seen scene).isNone then ["SCENE_ID_INVALID"] else []) ++
    (if typed then [] else ["SCENE_TYPE_INVALID"]) ++
    (if safe then [] else ["SCENE_SAFETY_LEVEL_INVALID"]) ++
    (if isBody (Json.getOr "body" scene) then [] else ["SCENE_BODY_INVALID"]) ++
    MemoirGuardrails.violations cc (Json.getOr "body" scene))

/-- The loop over the scenes: the ids, and the reasons. -/
def reviewScenes (cc : CharClasses) (trustedRefs : List String) :
    List String → List JsonFields → Result (List String × List String)
  | seen, [] => pure (seen, [])
  | seen, scene :: scenes => do
    let reasons ← sceneReasons cc trustedRefs seen scene
    let rest ← reviewScenes cc trustedRefs (seen ++ (freshId "scene_id" seen scene).toList) scenes
    pure (rest.1, reasons ++ rest.2)

/-- The reasons against an action, at its place in the order. -/
def actionReasons (trustedRefs enabledCapabilities sceneIds seen : List String) (order : Nat)
    (action : JsonFields) : Result (List String) := do
  let semantic ← validate trustedRefs (.obj action)
  let typed ← (Json.getOr "action_type" action).memberOf actionTypes
  let missing := match capabilityOf (Json.getOr "action_type" action) with
    | some capability => decide (capability ∉ enabledCapabilities)
    | none => false
  pure (semantic.errorCodes ++
    (if (freshId "action_id" seen action).isNone then ["ACTION_ID_INVALID"] else []) ++
    (if typed = false then ["ACTION_TYPE_INVALID"]
      else if missing then ["ACTION_CAPABILITY_DISABLED"] else []) ++
    (if equalsInt order ((Json.get? "action_order" action).getD (.int order)) then []
      else ["ACTION_ORDER_INVALID"]) ++
    if (actionScene sceneIds action).isNone then ["ACTION_SCENE_REF_INVALID"] else [])

/-- The loop over the actions: the scenes they cover, and the reasons. -/
def reviewActions (trustedRefs enabledCapabilities sceneIds : List String) :
    List String → Nat → List JsonFields → Result (List String × List String)
  | _, _, [] => pure ([], [])
  | seen, order, action :: actions => do
    let reasons ← actionReasons trustedRefs enabledCapabilities sceneIds seen order action
    let rest ← reviewActions trustedRefs enabledCapabilities sceneIds
      (seen ++ (freshId "action_id" seen action).toList) (order + 1) actions
    pure ((actionScene sceneIds action).toList ++ rest.1, reasons ++ rest.2)

/-- `evaluate`. -/
def evaluate (cc : CharClasses) (trustedRefs enabledCapabilities : List String)
    (scenes actions : Option (List JsonFields)) : Result Evaluation := do
  let sceneItems := scenes.getD []
  let actionItems := actions.getD []
  let found ← reviewScenes cc trustedRefs [] sceneItems
  let acted ← reviewActions trustedRefs enabledCapabilities found.1 [] 1 actionItems
  let reasons := (if sceneItems.length < 3 then ["SCENE_COUNT_INVALID"] else []) ++ found.2 ++
    acted.2 ++
    if actionItems.length = sceneItems.length ∧ sameMembers acted.1 found.1 = true then []
    else ["ACTION_COMPLETENESS_INVALID"]
  pure ⟨reasons.eraseDups, sceneItems.length, actionItems.length,
    (sceneItems.map sourceRefCount).foldr (· + ·) 0⟩

/-! ## What has passed -/

/-- What a passing evaluation says of the scenes. -/
structure Reviewed (cc : CharClasses) (trustedRefs : List String) (scenes : List JsonFields) :
    Prop where
  refs : ∀ scene ∈ scenes,
    areTrusted trustedRefs ((Json.get? "source_refs" scene).getD (.arr [])) = true
  bodies : ∀ scene ∈ scenes, MemoirGuardrails.violations cc (Json.getOr "body" scene) = []
  ids : ∀ scene ∈ scenes, ∃ id, Json.get? "scene_id" scene = some (.str id) ∧ id ≠ ""

theorem freshId_some {key id : String} {seen : List String} {fields : JsonFields}
    (h : freshId key seen fields = some id) :
    Json.get? key fields = some (.str id) ∧ id ≠ "" ∧ id ∉ seen := by
  unfold freshId at h
  split at h
  next name hname =>
    by_cases hused : name = "" ∨ name ∈ seen
    · rw [if_pos hused] at h
      cases h
    · rw [if_neg hused] at h
      cases h
      exact ⟨hname, fun hempty => hused (Or.inl hempty), fun hmem => hused (Or.inr hmem)⟩
  next => cases h

/-- The reasons against a scene, one after the other. -/
theorem sceneReasons_nil {cc : CharClasses} {trustedRefs seen : List String} {scene : JsonFields}
    (h : sceneReasons cc trustedRefs seen scene = .ok []) :
    areTrusted trustedRefs ((Json.get? "source_refs" scene).getD (.arr [])) = true ∧
      MemoirGuardrails.violations cc (Json.getOr "body" scene) = [] ∧
      ∃ id, Json.get? "scene_id" scene = some (.str id) ∧ id ≠ "" := by
  unfold sceneReasons at h
  obtain ⟨semantic, hsemantic, h⟩ := bind_ok.mp h
  obtain ⟨typed, -, h⟩ := bind_ok.mp h
  obtain ⟨safe, -, h⟩ := bind_ok.mp h
  have hnil := Except.ok.inj h
  obtain ⟨hfirst, hbody⟩ := List.append_eq_nil_iff.mp hnil
  have hid := (List.append_eq_nil_iff.mp (List.append_eq_nil_iff.mp
    (List.append_eq_nil_iff.mp hfirst).1).1).1
  obtain ⟨hcodes, hfresh⟩ := List.append_eq_nil_iff.mp hid
  refine ⟨refs_of_valid hsemantic hcodes, hbody, ?_⟩
  cases hname : freshId "scene_id" seen scene with
  | none =>
    rw [hname] at hfresh
    cases hfresh
  | some id => exact ⟨id, (freshId_some hname).1, (freshId_some hname).2.1⟩

theorem reviewScenes_nil {cc : CharClasses} {trustedRefs : List String} {scenes : List JsonFields} :
    ∀ {seen ids : List String}, reviewScenes cc trustedRefs seen scenes = .ok (ids, []) →
      Reviewed cc trustedRefs scenes := by
  induction scenes with
  | nil =>
    intro _ _ _
    constructor <;> intro scene hscene <;> cases hscene
  | cons scene scenes ih =>
    intro seen ids h
    unfold reviewScenes at h
    obtain ⟨reasons, hreasons, h⟩ := bind_ok.mp h
    obtain ⟨rest, hrest, h⟩ := bind_ok.mp h
    have hpair := Except.ok.inj h
    obtain ⟨hhead, htail⟩ := List.append_eq_nil_iff.mp (congrArg Prod.snd hpair)
    have hrest' : rest = (rest.1, []) := Prod.ext rfl htail
    rw [hhead] at hreasons
    rw [hrest'] at hrest
    obtain ⟨hrefs, hbody, hid⟩ := sceneReasons_nil hreasons
    have hmore := ih hrest
    refine ⟨fun other hother => ?_, fun other hother => ?_, fun other hother => ?_⟩ <;>
      rcases List.mem_cons.mp hother with rfl | hother
    · exact hrefs
    · exact hmore.refs other hother
    · exact hbody
    · exact hmore.bodies other hother
    · exact hid
    · exact hmore.ids other hother

/-- What passes has been reviewed. -/
theorem reviewed_of_passes {cc : CharClasses} {trustedRefs enabledCapabilities : List String}
    {scenes actions : Option (List JsonFields)} {evaluation : Evaluation}
    (h : evaluate cc trustedRefs enabledCapabilities scenes actions = .ok evaluation)
    (hpass : evaluation.passes = true) : Reviewed cc trustedRefs (scenes.getD []) := by
  unfold evaluate at h
  obtain ⟨found, hfound, h⟩ := bind_ok.mp h
  obtain ⟨acted, -, h⟩ := bind_ok.mp h
  cases h
  have hnil := eraseDups_eq_nil.mp (List.isEmpty_iff.mp hpass)
  have hscenes := (List.append_eq_nil_iff.mp (List.append_eq_nil_iff.mp
    (List.append_eq_nil_iff.mp hnil).1).1).2
  have hpair : found = (found.1, []) := Prod.ext rfl hscenes
  rw [hpair] at hfound
  exact reviewScenes_nil hfound

end MemoirPlaybackEvaluator

/-! ## The shape -/

/-- `urlparse(url)`, as far as it is looked at. -/
structure ParsedUrl where
  scheme : String
  netloc : String
  path : String

/-- What is asked of the library: the parts of a URL, none where `urlparse`
raises a `ValueError`; and whether `uuid.UUID` accepts a text. -/
structure MediaLibrary where
  urlparse : String → Option ParsedUrl
  isUuid : String → Bool

/-- `MEDIA_IMAGE_PREFIX`. -/
def mediaImagePrefix : String := "memoir/images/"

/-- `MEDIA_IMAGE_MIME_TYPES`. -/
def mediaImageMimeTypes : List String := ["image/jpeg", "image/png", "image/webp"]

/-- `MEDIA_MANIFEST_KEYS`. -/
def mediaManifestKeys : List String := ["media_id", "kind", "object_key", "url", "mime", "scene_id"]

/-- `text.startswith(start)`. -/
def startsWith (start text : String) : Bool := start.toList.isPrefixOf text.toList

/-- `text.rsplit(mark, 1)[0]`. -/
def beforeLast (mark : Char) (text : List Char) : List Char :=
  match text.reverse.dropWhile fun c => decide (c ≠ mark) with
  | [] => text
  | _ :: rest => rest.reverse

namespace MemoirNodeRunner

/-- `_SCENE_TYPES`. -/
def plainSceneTypes : List String :=
  ["summary", "cover", "stats", "diary_highlight", "bet_highlight", "milestone"]

/-- `_MEDIA_SCENE_TYPES`. -/
def mediaSceneTypes : List String := plainSceneTypes ++ ["image"]

/-- `_ACTION_TYPES`. -/
def ruleActionTypes : List String := ["show_card", "type_text", "hold", "transition"]

/-- `_media_version_enabled`. -/
def mediaVersionEnabled (agentVersion : String) : Bool := versionAtLeast agentVersion [1, 0, 3]

/-- `_per_scene_media_enabled`. -/
def perSceneMediaEnabled (agentVersion : String) : Bool := versionAtLeast agentVersion [1, 0, 4]

/-- `_audio_version_enabled`. -/
def audioVersionEnabled (agentVersion : String) : Bool := versionAtLeast agentVersion [1, 0, 8]

/-- The keyword arguments of `_is_safe_playback`. -/
structure PlaybackRules where
  agentVersion : String
  sceneTypes : List String := plainSceneTypes
  perSceneMedia : Bool := false
  mediaPending : Bool := false
  imagePrefix : String := mediaImagePrefix

/-- The text under a key. -/
def textField (key : String) (fields : JsonFields) : Option String :=
  (Json.get? key fields).bind Json.str?

/-- The ids of the scenes. -/
def sceneIds (scenes : List JsonFields) : List String := scenes.filterMap (textField "scene_id")

/-- `_scene_content_contract_valid`. -/
def sceneContentContractValid (agentVersion : String) (scenes : List JsonFields) : Bool :=
  perSceneMediaEnabled agentVersion ||
    (decide (scenes.length ≤ 8) && scenes.all fun scene =>
      match Json.get? "body" scene with
      | some (.str body) => decide (body.length ≤ 80)
      | _ => true)

/-- `value in names`, for a tuple. -/
def oneOf (names : List String) : Json → Bool
  | .str s => decide (s ∈ names)
  | _ => false

/-- A list of texts. -/
def areTexts : Json → Bool
  | .arr refs => refs.all fun ref => ref.str?.isSome
  | _ => false

/-- What each scene has to be. -/
def safeScene (cc : CharClasses) (sceneTypes : List String) (scene : JsonFields) : Bool :=
  (textField "scene_id" scene).isSome && oneOf sceneTypes (Json.getOr "scene_type" scene) &&
    areTexts (Json.getOr "source_refs" scene) &&
    ((Json.get? "body" scene).isNone || (textField "body" scene).isSome) &&
    (MemoirGuardrails.violations cc (Json.getOr "body" scene)).isEmpty

/-- `_media_manifest_valid`, of the entries after those for the scenes `seen`. -/
def mediaManifestValid (lib : MediaLibrary) (imagePrefix : String) (ids : List String) :
    List String → List JsonFields → Result Bool
  | _, [] => pure true
  | seen, entry :: manifest =>
    match textField "object_key" entry, textField "url" entry with
    | some objectKey, some url =>
      let stem := objectKey.toList.drop imagePrefix.length
      if sameMembers (entry.map (·.1)) mediaManifestKeys = false then pure false
      else if textField "kind" entry ≠ some "image" then pure false
      else if startsWith imagePrefix objectKey = false then pure false
      else if lib.isUuid (String.ofList (beforeLast '.' stem)) = false then pure false
      else if startsWith "https://" url = false then pure false
      else
        match lib.urlparse url with
        | none => .error (invalid "ValueError")
        | some parsed =>
          if startsWith ("/" ++ imagePrefix) parsed.path = false then pure false
          else if oneOf mediaImageMimeTypes (Json.getOr "mime" entry) = false then pure false
          else do
            -- what is one of the ids is a text
            let id := (textField "scene_id" entry).getD ""
            let known ← (Json.getOr "scene_id" entry).memberOf ids
            if known = true ∧ id ∉ seen then
              mediaManifestValid lib imagePrefix ids (seen ++ [id]) manifest
            else pure false
    | _, _ => pure false

/-- `url_by_scene.get(scene_id)`. -/
def urlByScene (manifest : List JsonFields) (sceneId : Option String) : Option String := do
  let id ← sceneId
  (manifest.filterMap fun entry => do
    let entryId ← textField "scene_id" entry
    let url ← textField "url" entry
    pure (entryId, url)).reverse.lookup id

/-- `value == url`. -/
def isUrl : Option String → Json → Bool
  | none, .null => true
  | some url, .str s => decide (s = url)
  | _, _ => false

/-- The title word of a payload. -/
def titleWordFits : Json → Bool
  | .null => true
  | .str word => decide (word ≠ "" ∧ word.length ≤ 6)
  | _ => false

/-- The fields of a payload, for the URL that belongs to the scene. -/
def payloadFits (url : Option String) (payload : JsonFields) : Bool :=
  payload.all (fun field => decide (field.1 ∈ ["image_url", "title_word"])) &&
    isUrl url (Json.getOr "image_url" payload) && titleWordFits (Json.getOr "title_word" payload)

/-- `None`, or an empty object. -/
def noPayload : Json → Bool
  | .null | .obj [] => true
  | _ => false

def isImage (scene : JsonFields) : Bool := decide (textField "scene_type" scene = some "image")

/-- The payload of a scene, for the URL that belongs to it. -/
def safePayload (rules : PlaybackRules) (url : Option String) (scene : JsonFields) : Bool :=
  let payload := Json.getOr "payload" scene
  if isImage scene then
    if rules.mediaPending then noPayload payload
    else
      match url, payload with
      | some _, .obj fields => payloadFits url fields
      | _, _ => false
  else if rules.perSceneMedia then
    if rules.mediaPending then noPayload payload
    else
      match payload with
      | .obj (field :: fields) => payloadFits url (field :: fields)
      | other => noPayload other
  else noPayload payload

/-- A duration: an integer, or a boolean, of at least one. -/
def isDuration : Json → Bool
  | .int n => decide (1 ≤ n)
  | .bool b => b
  | _ => false

/-- What each action has to be. -/
def safeAction (ids : List String) (action : JsonFields) : Result Bool :=
  if (textField "action_id" action).isNone then pure false
  else do
    let known ← (Json.getOr "scene_id" action).memberOf ids
    pure (known && oneOf ruleActionTypes (Json.getOr "action_type" action) &&
      isDuration (Json.getOr "duration_ms" action))

def safeActions (ids : List String) : List JsonFields → Result Bool
  | [] => pure true
  | action :: actions => do
    let safe ← safeAction ids action
    if safe then safeActions ids actions else pure false

/-- The actions for scenes with these ids. -/
def actionsFit (ids : List String) : Option (List JsonFields) → Result Bool
  | none => pure false
  | some actions =>
    if actions.length ≠ ids.length then pure false
    else do
      let safe ← safeActions ids actions
      pure (safe && sameMembers (sceneIds actions) ids)

/-- `_is_safe_playback`. -/
def isSafePlayback (cc : CharClasses) (lib : MediaLibrary) (rules : PlaybackRules)
    (scenes actions mediaTasks : Option (List JsonFields)) : Result Bool :=
  match scenes with
  | none => pure false
  | some scenes =>
    let manifest := mediaTasks.getD []
    if scenes.length < 3 ∨ sceneContentContractValid rules.agentVersion scenes = false then
      pure false
    else if scenes.all (safeScene cc rules.sceneTypes) = false then pure false
    else if ¬ (sceneIds scenes).Nodup then pure false
    else if rules.mediaPending = true ∧ manifest ≠ [] then pure false
    else do
      let valid ← mediaManifestValid lib rules.imagePrefix (sceneIds scenes) [] manifest
      if valid = false then pure false
      else if (scenes.all fun scene =>
          safePayload rules (urlByScene manifest (textField "scene_id" scene)) scene) = false then
        pure false
      else actionsFit (sceneIds scenes) actions

/-! ## What is safe -/

/-- What a safe playback is. -/
structure SafePlayback (cc : CharClasses) (lib : MediaLibrary) (rules : PlaybackRules)
    (scenes actions manifest : List JsonFields) : Prop where
  enough : 3 ≤ scenes.length
  shapes : ∀ scene ∈ scenes, safeScene cc rules.sceneTypes scene = true
  distinct : (sceneIds scenes).Nodup
  images : mediaManifestValid lib rules.imagePrefix (sceneIds scenes) [] manifest = .ok true
  payloads : ∀ scene ∈ scenes,
    safePayload rules (urlByScene manifest (textField "scene_id" scene)) scene = true
  length : actions.length = scenes.length
  covers : (sceneIds actions).Perm (sceneIds scenes)

/-- Each scene has an id, so there are as many. -/
theorem length_sceneIds {scenes : List JsonFields}
    (h : ∀ scene ∈ scenes, (textField "scene_id" scene).isSome = true) :
    (sceneIds scenes).length = scenes.length := by
  induction scenes with
  | nil => rfl
  | cons scene scenes ih =>
    obtain ⟨id, hid⟩ := Option.isSome_iff_exists.mp (h scene List.mem_cons_self)
    unfold sceneIds at ih ⊢
    rw [List.filterMap_cons_some hid, List.length_cons, List.length_cons,
      ih fun other hother => h other (List.mem_cons_of_mem _ hother)]

theorem memberOf_true {names : List String} {value : Json} (h : value.memberOf names = .ok true) :
    ∃ name, value = .str name ∧ name ∈ names := by
  unfold Json.memberOf at h
  split at h
  next name => exact ⟨name, rfl, of_decide_eq_true (Except.ok.inj h)⟩
  next => cases h
  next => cases h
  next => cases h

theorem textField_of_getOr {key text : String} {fields : JsonFields}
    (h : Json.getOr key fields = .str text) : textField key fields = some text := by
  unfold Json.getOr at h
  unfold textField
  cases hvalue : Json.get? key fields with
  | none =>
    rw [hvalue] at h
    cases h
  | some value =>
    rw [hvalue] at h
    rw [show value = .str text from h]
    rfl

theorem safeActions_ids {ids : List String} : ∀ {actions : List JsonFields},
    safeActions ids actions = .ok true →
      ∀ action ∈ actions, (textField "scene_id" action).isSome = true
  | [], _, _, haction => by cases haction
  | action :: actions, h, other, hother => by
    unfold safeActions at h
    obtain ⟨safe, hsafe, h⟩ := bind_ok.mp h
    cases safe with
    | false => cases h
    | true =>
      rcases List.mem_cons.mp hother with rfl | hother
      · unfold safeAction at hsafe
        by_cases hid : (textField "action_id" other).isNone = true
        · rw [if_pos hid] at hsafe
          cases hsafe
        · rw [if_neg hid] at hsafe
          obtain ⟨known, hknown, hsafe⟩ := bind_ok.mp hsafe
          have htrue := Except.ok.inj hsafe
          rw [Bool.and_eq_true, Bool.and_eq_true] at htrue
          rw [htrue.1.1] at hknown
          obtain ⟨name, hname, -⟩ := memberOf_true hknown
          rw [textField_of_getOr hname]
          rfl
      · exact safeActions_ids h other hother

/-- The actions are about each scene once: they are as many, and miss none. -/
theorem covers_of_actionsFit {ids : List String} {actions : Option (List JsonFields)}
    (hdistinct : ids.Nodup) (h : actionsFit ids actions = .ok true) :
    ∃ items, actions = some items ∧ items.length = ids.length ∧ (sceneIds items).Perm ids := by
  cases actions with
  | none => cases h
  | some items =>
    unfold actionsFit at h
    by_cases hlength : items.length ≠ ids.length
    · dsimp only at h
      rw [if_pos hlength] at h
      cases h
    · dsimp only at h
      rw [if_neg hlength] at h
      obtain ⟨safe, hsafe, h⟩ := bind_ok.mp h
      have htrue := Except.ok.inj h
      rw [Bool.and_eq_true] at htrue
      obtain ⟨rfl, hsame⟩ := htrue
      unfold sameMembers at hsame
      rw [Bool.and_eq_true] at hsame
      have hsubset : ids ⊆ sceneIds items := fun id hid =>
        of_decide_eq_true (List.all_eq_true.mp hsame.2 id hid)
      have hcount : (sceneIds items).length = items.length :=
        length_sceneIds (safeActions_ids hsafe)
      have hequal : items.length = ids.length := not_not.mp hlength
      have hsub : ids.Subperm (sceneIds items) := List.subperm_of_subset hdistinct hsubset
      refine ⟨items, rfl, hequal, (hsub.perm_of_length_le ?_).symm⟩
      rw [hcount, hequal]

theorem isSome_sceneId {cc : CharClasses} {sceneTypes : List String} {scene : JsonFields}
    (h : safeScene cc sceneTypes scene = true) : (textField "scene_id" scene).isSome = true := by
  unfold safeScene at h
  rw [Bool.and_eq_true, Bool.and_eq_true, Bool.and_eq_true, Bool.and_eq_true] at h
  exact h.1.1.1.1

/-- What `_is_safe_playback` lets through. -/
theorem safePlayback_of_true {cc : CharClasses} {lib : MediaLibrary} {rules : PlaybackRules}
    {scenes actions mediaTasks : Option (List JsonFields)}
    (h : isSafePlayback cc lib rules scenes actions mediaTasks = .ok true) :
    ∃ items acts, scenes = some items ∧ actions = some acts ∧
      SafePlayback cc lib rules items acts (mediaTasks.getD []) := by
  cases scenes with
  | none => cases h
  | some items =>
    unfold isSafePlayback at h
    dsimp only at h
    by_cases hcount : items.length < 3 ∨ sceneContentContractValid rules.agentVersion items = false
    · rw [if_pos hcount] at h
      cases h
    rw [if_neg hcount] at h
    by_cases hshapes : items.all (safeScene cc rules.sceneTypes) = false
    · rw [if_pos hshapes] at h
      cases h
    rw [if_neg hshapes] at h
    by_cases hdistinct : ¬ (sceneIds items).Nodup
    · rw [if_pos hdistinct] at h
      cases h
    rw [if_neg hdistinct] at h
    by_cases hpending : rules.mediaPending = true ∧ mediaTasks.getD [] ≠ []
    · rw [if_pos hpending] at h
      cases h
    rw [if_neg hpending] at h
    obtain ⟨valid, hvalid, h⟩ := bind_ok.mp h
    cases valid with
    | false => cases h
    | true =>
      rw [if_neg Bool.true_eq_false.mp] at h
      by_cases hpayloads : (items.all fun scene => safePayload rules
          (urlByScene (mediaTasks.getD []) (textField "scene_id" scene)) scene) = false
      · rw [if_pos hpayloads] at h
        cases h
      rw [if_neg hpayloads] at h
      obtain ⟨acts, hacts, hlength, hcovers⟩ := covers_of_actionsFit (not_not.mp hdistinct) h
      have hsafe : ∀ scene ∈ items, safeScene cc rules.sceneTypes scene = true :=
        List.all_eq_true.mp (Bool.eq_true_of_not_eq_false hshapes)
      have hids : (sceneIds items).length = items.length :=
        length_sceneIds fun scene hscene => isSome_sceneId (hsafe scene hscene)
      exact ⟨items, acts, rfl, hacts,
        ⟨Nat.le_of_not_lt fun hfew => hcount (Or.inl hfew), hsafe, not_not.mp hdistinct, hvalid,
          List.all_eq_true.mp (Bool.eq_true_of_not_eq_false hpayloads), hlength.trans hids,
          hcovers⟩⟩

end MemoirNodeRunner

end AgentRuntime
