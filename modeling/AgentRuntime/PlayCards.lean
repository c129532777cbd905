import AgentRuntime.SceneMedia
import AgentRuntime.StructuredOutput
import AgentRuntime.CoverageRepair

/-!
# The scenes the media node is given

What the nodes before the media node write is a list of scenes of one shape
(`EarlierScene.entry`), with a payload once the media service has been there
(`PlayCard`). On such scenes, and the actions made for them, nothing in the
reviews raises (`passesReview_returns`).
-/

namespace AgentRuntime

open MemoirNodeRunner MemoirMediaService MemoirPlaybackEvaluator SemanticValidator

/-! ## What the earlier nodes write -/

/-- A scene with a payload, or without. -/
structure PlayCard where
  entry : SceneEntry
  payload : Option Json := none

def PlayCard.fields (card : PlayCard) : JsonFields :=
  card.entry.fields ++ card.payload.toList.map fun payload => ("payload", payload)

/-- A scene of one of the nodes before the media node: generated, from a
template, or collected by the loop and its repair. -/
inductive EarlierScene : JsonFields → Prop
  | generated (entry : SceneEntry) : EarlierScene entry.fields
  | template (index : Nat) (sourceRefs : List String) : EarlierScene (templateScene index sourceRefs)
  | looped {scene : BatchScene} {fields : JsonFields} :
    repairedScene scene = .obj fields → EarlierScene fields

/-- A state as the nodes before the media node leave it; the actions come
before it in some graphs and not in others. -/
structure FromEarlierNodes (state : AgentState) : Prop where
  scenes : ∃ items, state.scenes = some items ∧ ∀ scene ∈ items, EarlierScene scene
  actions : state.actions = none ∨ state.actions = state.scenes.map ruleActions

theorem EarlierScene.entry {scene : JsonFields} (h : EarlierScene scene) :
    ∃ entry : SceneEntry, scene = entry.fields := by
  cases h with
  | generated entry => exact ⟨entry, rfl⟩
  | template index sourceRefs =>
    exact ⟨⟨"scene-" ++ toString index, "summary", sourceRefs,
      some (templateSceneBodies.getD ((index - 1) % templateSceneBodies.length) ""), none⟩, rfl⟩
  | @looped scene _ h =>
    cases h
    refine ⟨⟨scene.sceneId, sceneTypeCode scene.sceneType, scene.sourceRefs, some scene.body,
      scene.titleWord⟩, ?_⟩
    cases scene.titleWord <;> rfl

section

variable (card : PlayCard)

theorem PlayCard.get_sceneId :
    Json.get? "scene_id" card.fields = some (.str card.entry.sceneId) := rfl

theorem PlayCard.get_sceneType :
    Json.get? "scene_type" card.fields = some (.str card.entry.sceneType) := rfl

theorem PlayCard.get_sourceRefs :
    Json.get? "source_refs" card.fields = some (.arr (card.entry.sourceRefs.map .str)) := rfl

theorem PlayCard.get_body :
    Json.get? "body" card.fields = card.entry.body.map .str := by
  obtain ⟨⟨id, sceneType, refs, body, word⟩, payload⟩ := card
  cases body <;> cases word <;> cases payload <;> rfl

theorem PlayCard.get_titleWord :
    Json.get? "title_word" card.fields = card.entry.titleWord.map .str := by
  obtain ⟨⟨id, sceneType, refs, body, word⟩, payload⟩ := card
  cases body <;> cases word <;> cases payload <;> rfl

theorem PlayCard.get_payload : Json.get? "payload" card.fields = card.payload := by
  obtain ⟨⟨id, sceneType, refs, body, word⟩, payload⟩ := card
  cases body <;> cases word <;> cases payload <;> rfl

/-- The keys a scene has. -/
def playKeys : List String :=
  ["scene_id", "scene_type", "source_refs", "body", "title_word", "payload"]

/-- A key no scene has. -/
theorem PlayCard.get_other {key : String} (h : key ∉ playKeys) :
    Json.get? key card.fields = none := by
  have hkeys : (card.fields.all fun field => decide (field.1 ∈ playKeys)) = true := by
    obtain ⟨⟨id, sceneType, refs, body, word⟩, payload⟩ := card
    cases body <;> cases word <;> cases payload <;> rfl
  refine List.lookup_eq_none_iff.mpr fun field hfield => ?_
  have hknown := of_decide_eq_true (List.all_eq_true.mp hkeys field hfield)
  refine bne_iff_ne.mpr fun hsame => h ?_
  rw [hsame]
  exact hknown

theorem PlayCard.uncontained : Uncontained card.fields :=
  ⟨card.get_other (by decide), card.get_other (by decide)⟩

end

/-- A scene with its payload left out, or that lost its image. -/
theorem withoutImage_fields (entry : SceneEntry) :
    withoutImage entry.fields = PlayCard.fields
      ⟨{ entry with
          sceneType := if entry.sceneType = "image" then "summary" else entry.sceneType
          titleWord := none }, none⟩ := by
  obtain ⟨id, sceneType, refs, body, word⟩ := entry
  have himage : ∀ fields : JsonFields, isImage (("scene_id", .str id) ::
      ("scene_type", .str sceneType) :: fields) = decide (sceneType = "image") := by
    intro fields
    show decide (some sceneType = some "image") = _
    simp
  unfold withoutImage
  rw [show SceneEntry.fields ⟨id, sceneType, refs, body, word⟩ = ("scene_id", .str id) ::
    ("scene_type", .str sceneType) :: (SceneEntry.fields ⟨id, sceneType, refs, body, word⟩).drop 2
    from rfl, himage]
  by_cases hsame : sceneType = "image"
  · rw [if_pos (decide_eq_true hsame)]
    cases body <;> cases word <;> simp [PlayCard.fields, SceneEntry.fields, hsame]
  · rw [if_neg (by simpa using hsame)]
    cases body <;> cases word <;> simp [PlayCard.fields, SceneEntry.fields, hsame]

/-- The title word in the payload of an image. -/
def titlePayload (entry : SceneEntry) : JsonFields :=
  match entry.titleWord with
  | some word => if word = "" then [] else [("title_word", .str word)]
  | none => []

/-- A scene after its image. -/
def illustratedCard (entry : SceneEntry) (url : Json) : PlayCard :=
  ⟨{ entry with titleWord := none }, some (.obj (("image_url", url) :: titlePayload entry))⟩

/-- A scene without its image. -/
def degradedCard (keepType : Bool) (entry : SceneEntry) : PlayCard :=
  ⟨{ entry with
      sceneType := if keepType = true ∧ isImage entry.fields = false then entry.sceneType
        else "summary"
      titleWord := none }, none⟩

theorem sceneAfterMedia_some (entry : SceneEntry) (e : JsonFields) (keepType : Bool) :
    sceneAfterMedia entry.fields (some e) keepType =
      .ok (illustratedCard entry (Json.getOr "url" e)).fields := by
  obtain ⟨id, sceneType, refs, body, word⟩ := entry
  cases body <;> cases word <;> rfl

theorem sceneAfterMedia_none (entry : SceneEntry) (keepType : Bool) :
    sceneAfterMedia entry.fields none keepType = .ok (degradedCard keepType entry).fields := by
  have htype : (if keepType = true ∧ isImage entry.fields = false then
      Json.getOr "scene_type" entry.fields else .str "summary") =
      .str (degradedCard keepType entry).entry.sceneType := by
    unfold degradedCard
    by_cases hkeep : keepType = true ∧ isImage entry.fields = false
    · rw [if_pos hkeep, if_pos hkeep]
      rfl
    · rw [if_neg hkeep, if_neg hkeep]
  unfold sceneAfterMedia
  dsimp only
  rw [htype]
  obtain ⟨id, sceneType, refs, body, word⟩ := entry
  cases body <;> cases word <;> rfl

/-! ## The nodes return -/

/-- Nothing is raised. -/
def Returns {α : Type} (x : Result α) : Prop := ∃ a, x = .ok a

theorem Returns.pure {α : Type} (a : α) : Returns (Pure.pure a : Result α) := ⟨a, rfl⟩

theorem Returns.bind {α β : Type} {x : Result α} {f : α → Result β} (hx : Returns x)
    (hf : ∀ a, x = .ok a → Returns (f a)) : Returns (x >>= f) := by
  obtain ⟨a, rfl⟩ := hx
  exact hf a rfl

theorem returns_memberOf (names : List String) (name : String) :
    Returns ((Json.str name).memberOf names) := ⟨_, rfl⟩

/-- An action whose fields can be looked up. -/
structure PlainAction (action : JsonFields) : Prop where
  uncontained : Uncontained action
  sceneId : ∃ id, Json.getOr "scene_id" action = .str id
  actionType : ∃ name, Json.getOr "action_type" action = .str name

theorem plainAction_ruleAction {index : Nat} {scene action : JsonFields}
    (h : ruleAction index scene = some action) : PlainAction action := by
  unfold ruleAction at h
  obtain ⟨id, -, rfl⟩ := Option.map_eq_some_iff.mp h
  exact ⟨⟨rfl, rfl⟩, ⟨_, rfl⟩, ⟨_, rfl⟩⟩

theorem plainAction_ruleActionsFrom {scenes : List JsonFields} :
    ∀ {index : Nat}, ∀ action ∈ ruleActionsFrom index scenes, PlainAction action := by
  induction scenes with
  | nil =>
    intro _ action haction
    cases haction
  | cons scene scenes ih =>
    intro index action haction
    rcases List.mem_append.mp haction with hfirst | hrest
    · exact plainAction_ruleAction (Option.mem_toList.mp hfirst)
    · exact ih action hrest

theorem plainAction_baseActions : ∀ action ∈ baseActions, PlainAction action := by
  intro action haction
  obtain ⟨index, -, rfl⟩ := List.mem_map.mp haction
  exact ⟨⟨rfl, rfl⟩, ⟨_, rfl⟩, ⟨_, rfl⟩⟩

/-- The base scenes are scenes. -/
theorem exists_baseScenes : ∃ cards : List PlayCard, baseScenes = cards.map PlayCard.fields :=
  ⟨[1, 2, 3].map fun index => ⟨⟨"scene-" ++ toString index, "summary", [],
    some (templateSceneBodies.getD ((index - 1) % templateSceneBodies.length) ""), none⟩, none⟩, rfl⟩

section

variable {cc : CharClasses} {lib : MediaLibrary} {trustedRefs enabledCapabilities : List String}

theorem validate_returns {value : JsonFields} (h : Uncontained value) :
    Returns (validate trustedRefs (.obj value)) := by
  obtain ⟨result, hresult, -⟩ := validate_uncontained h
  exact ⟨result, hresult⟩

theorem sceneReasons_returns (seen : List String) (card : PlayCard) :
    Returns (sceneReasons cc trustedRefs seen card.fields) := by
  unfold sceneReasons
  refine (validate_returns card.uncontained).bind fun semantic _ => ?_
  refine (returns_memberOf _ card.entry.sceneType).bind fun typed _ => ?_
  rw [card.get_other (by decide)]
  exact (returns_memberOf _ "normal").bind fun safe _ => Returns.pure _

theorem reviewScenes_returns (cards : List PlayCard) :
    ∀ seen : List String, Returns (reviewScenes cc trustedRefs seen (cards.map PlayCard.fields)) := by
  induction cards with
  | nil =>
    intro seen
    exact Returns.pure _
  | cons card cards ih =>
    intro seen
    rw [List.map_cons]
    unfold reviewScenes
    refine (sceneReasons_returns seen card).bind fun reasons _ => ?_
    exact (ih _).bind fun rest _ => Returns.pure _

theorem actionReasons_returns {sceneIds seen : List String} {order : Nat} {action : JsonFields}
    (h : PlainAction action) :
    Returns (actionReasons trustedRefs enabledCapabilities sceneIds seen order action) := by
  obtain ⟨name, hname⟩ := h.actionType
  unfold actionReasons
  refine (validate_returns h.uncontained).bind fun semantic _ => ?_
  rw [hname]
  exact (returns_memberOf _ name).bind fun typed _ => Returns.pure _

theorem reviewActions_returns {sceneIds : List String} {actions : List JsonFields} :
    ∀ {seen : List String} {order : Nat}, (∀ action ∈ actions, PlainAction action) →
      Returns (reviewActions trustedRefs enabledCapabilities sceneIds seen order actions) := by
  induction actions with
  | nil =>
    intro _ _ _
    exact Returns.pure _
  | cons action actions ih =>
    intro seen order h
    unfold reviewActions
    refine (actionReasons_returns (h action List.mem_cons_self)).bind fun reasons _ => ?_
    refine (ih fun other hother => h other (List.mem_cons_of_mem _ hother)).bind fun rest _ => ?_
    exact Returns.pure _

theorem evaluate_returns (cards : List PlayCard) {actions : Option (List JsonFields)}
    (h : ∀ action ∈ actions.getD [], PlainAction action) :
    Returns (evaluate cc trustedRefs enabledCapabilities (some (cards.map PlayCard.fields))
      actions) := by
  unfold evaluate
  refine (reviewScenes_returns cards []).bind fun found _ => ?_
  exact (reviewActions_returns h).bind fun acted _ => Returns.pure _

/-- A manifest entry for a scene, with a URL that can be read. -/
structure ReadableEntry (lib : MediaLibrary) (entry : JsonFields) : Prop where
  sceneId : ∃ id, Json.getOr "scene_id" entry = .str id
  url : ∀ url, textField "url" entry = some url → (lib.urlparse url).isSome = true

theorem mediaManifestValid_returns {imagePrefix : String} {ids : List String}
    {manifest : List JsonFields} : ∀ {seen : List String},
      (∀ entry ∈ manifest, ReadableEntry lib entry) →
      Returns (mediaManifestValid lib imagePrefix ids seen manifest) := by
  induction manifest with
  | nil =>
    intro _ _
    exact Returns.pure _
  | cons entry manifest ih =>
    intro seen h
    obtain ⟨⟨id, hid⟩, hurl⟩ := h entry List.mem_cons_self
    have hrest := fun other hother => h other (List.mem_cons_of_mem _ hother)
    unfold mediaManifestValid
    split
    next objectKey url _ htext =>
      obtain ⟨parsed, hparsed⟩ := Option.isSome_iff_exists.mp (hurl url htext)
      dsimp only
      rw [hparsed, hid]
      dsimp only
      -- the checks of the entry, one after the other
      split
      · exact Returns.pure _
      split
      · exact Returns.pure _
      split
      · exact Returns.pure _
      split
      · exact Returns.pure _
      split
      · exact Returns.pure _
      split
      · exact Returns.pure _
      split
      · exact Returns.pure _
      refine (returns_memberOf _ id).bind fun known _ => ?_
      split
      · exact ih hrest
      · exact Returns.pure _
    next => exact Returns.pure _

theorem safeActions_returns {ids : List String} {actions : List JsonFields}
    (h : ∀ action ∈ actions, PlainAction action) : Returns (safeActions ids actions) := by
  induction actions with
  | nil => exact Returns.pure _
  | cons action actions ih =>
    have hsafe : Returns (safeAction ids action) := by
      obtain ⟨id, hid⟩ := (h action List.mem_cons_self).sceneId
      unfold safeAction
      rw [hid]
      split
      · exact Returns.pure _
      · exact (returns_memberOf _ id).bind fun known _ => Returns.pure _
    unfold safeActions
    refine hsafe.bind fun safe _ => ?_
    split
    · exact ih fun other hother => h other (List.mem_cons_of_mem _ hother)
    · exact Returns.pure _

theorem isSafePlayback_returns {rules : PlaybackRules} {scenes : List JsonFields}
    {actions mediaTasks : Option (List JsonFields)}
    (h : ∀ action ∈ actions.getD [], PlainAction action)
    (hmanifest : ∀ entry ∈ mediaTasks.getD [], ReadableEntry lib entry) :
    Returns (isSafePlayback cc lib rules (some scenes) actions mediaTasks) := by
  have hactions : Returns (actionsFit (sceneIds scenes) actions) := by
    cases actions with
    | none => exact Returns.pure _
    | some items =>
      unfold actionsFit
      dsimp only
      split
      · exact Returns.pure _
      · exact (safeActions_returns h).bind fun safe _ => Returns.pure _
  unfold isSafePlayback
  dsimp only
  split
  · exact Returns.pure _
  split
  · exact Returns.pure _
  split
  · exact Returns.pure _
  split
  · exact Returns.pure _
  refine (mediaManifestValid_returns hmanifest).bind fun valid _ => ?_
  split
  · exact Returns.pure _
  split
  · exact Returns.pure _
  exact hactions

theorem passesReview_returns {rules : PlaybackRules} (cards : List PlayCard)
    {actions mediaTasks : Option (List JsonFields)}
    (h : ∀ action ∈ actions.getD [], PlainAction action)
    (hmanifest : ∀ entry ∈ mediaTasks.getD [], ReadableEntry lib entry) :
    Returns (passesReview cc lib rules trustedRefs (some (cards.map PlayCard.fields)) actions
      mediaTasks) := by
  unfold passesReview
  refine (evaluate_returns cards h).bind fun evaluation _ => ?_
  split
  · exact isSafePlayback_returns h hmanifest
  · exact Returns.pure _

theorem chapterRefs_cards (cards : List PlayCard) :
    ∃ refs, chapterRefs ((cards.map PlayCard.fields).map .obj) = some refs := by
  induction cards with
  | nil => exact ⟨[], rfl⟩
  | cons card cards ih =>
    obtain ⟨rest, hrest⟩ := ih
    rw [List.map_cons, List.map_cons, chapterRefs_cons_obj, card.get_sourceRefs, hrest]
    exact ⟨_, rfl⟩

theorem trustedSourceRefs_returns (state : AgentState) (agentVersion : String)
    (cards : List PlayCard) :
    Returns (trustedSourceRefs state agentVersion (cards.map PlayCard.fields)) := by
  unfold trustedSourceRefs
  split
  · exact Returns.pure _
  · obtain ⟨refs, hrefs⟩ := chapterRefs_cards cards
    unfold playbackSourceRefs
    rw [hrefs]
    exact Returns.pure _

end

end AgentRuntime
