import AgentRuntime.PlayCards

/-!
# What is published

After the media node and the safety review the document of a run is either
well formed (`WellPublished`: at least three scenes with their own ids, an
action for each, a manifest that is the list of the images the scenes show,
trusted references, clean texts) or the three base cards
(`published_structure`).

All of it but the manifest is what the review itself has seen. That the
manifest holds nothing else than the images follows the media service from
scene to scene (`illustrate_images`): an entry is made exactly where a
payload is.
-/

namespace AgentRuntime

open MemoirNodeRunner MemoirMediaService MemoirPlaybackEvaluator SemanticValidator

/-! ## Images -/

/-- The `image_url` a scene carries. -/
def imageUrl (scene : JsonFields) : Option Json :=
  match Json.get? "payload" scene with
  | some (.obj payload) => (Json.getOr "image_url" payload).given
  | _ => none

/-- A scene with an image: its id and the URL. -/
def sceneImage (scene : JsonFields) : Option (Option Json × Option Json) :=
  (imageUrl scene).map fun url => (Json.get? "scene_id" scene, some url)

/-- The id and the URL of a manifest entry. -/
def entryImage (entry : JsonFields) : Option Json × Option Json :=
  (Json.get? "scene_id" entry, Json.get? "url" entry)

/-- A document as it should be published. -/
structure WellPublished (cc : CharClasses) (trustedRefs : List String)
    (scenes actions manifest : List JsonFields) : Prop where
  enough : 3 ≤ scenes.length
  named : (sceneIds scenes).length = scenes.length
  distinct : (sceneIds scenes).Nodup
  oneEach : actions.length = scenes.length
  covers : (sceneIds actions).Perm (sceneIds scenes)
  images : manifest.map entryImage = scenes.filterMap sceneImage
  refs : ∀ scene ∈ scenes, ∃ refs : List String,
    Json.get? "source_refs" scene = some (.arr (refs.map .str)) ∧ ∀ ref ∈ refs, ref ∈ trustedRefs
  bodies : ∀ scene ∈ scenes, MemoirGuardrails.violations cc (Json.getOr "body" scene) = []

/-- Without a payload there is no image. -/
theorem imageUrl_of_noPayload {scene : JsonFields}
    (h : noPayload (Json.getOr "payload" scene) = true) : imageUrl scene = none := by
  unfold imageUrl
  unfold Json.getOr at h
  cases hpayload : Json.get? "payload" scene with
  | none => rfl
  | some payload =>
    rw [hpayload] at h
    unfold noPayload at h
    split at h
    next hnull =>
      rw [show payload = .null from hnull]
    next hempty =>
      rw [show payload = .obj [] from hempty]
      rfl
    next => cases h

/-- A URL that is `None` is no URL. -/
theorem given_of_isUrl_none {value : Json} (h : isUrl none value = true) : value.given = none := by
  cases value with
  | null => rfl
  | _ => cases h

/-- Where no image is expected, a safe scene carries none. -/
theorem imageUrl_of_safePayload {rules : PlaybackRules} {scene : JsonFields}
    (h : safePayload rules none scene = true) : imageUrl scene = none := by
  unfold safePayload at h
  dsimp only at h
  by_cases himage : isImage scene = true
  · rw [if_pos himage] at h
    by_cases hpending : rules.mediaPending = true
    · rw [if_pos hpending] at h
      exact imageUrl_of_noPayload h
    · rw [if_neg hpending] at h
      cases h
  rw [if_neg himage] at h
  by_cases hper : rules.perSceneMedia = true
  · rw [if_pos hper] at h
    by_cases hpending : rules.mediaPending = true
    · rw [if_pos hpending] at h
      exact imageUrl_of_noPayload h
    rw [if_neg hpending] at h
    split at h
    next field fields hpayload =>
      -- a payload with fields: its URL has to be the one that belongs to the scene, `None`
      unfold payloadFits at h
      rw [Bool.and_eq_true, Bool.and_eq_true] at h
      have hgiven := given_of_isUrl_none h.1.2
      have hvalue : Json.get? "payload" scene = some (.obj (field :: fields)) := by
        unfold Json.getOr at hpayload
        cases hget : Json.get? "payload" scene with
        | none =>
          rw [hget] at hpayload
          cases hpayload
        | some value =>
          rw [hget] at hpayload
          exact congrArg some hpayload
      unfold imageUrl
      rw [hvalue]
      exact hgiven
    next => exact imageUrl_of_noPayload h
  · rw [if_neg hper] at h
    exact imageUrl_of_noPayload h

/-- While the images are pending no scene has a payload. -/
theorem noPayload_of_pending {rules : PlaybackRules} {url : Option String} {scene : JsonFields}
    (hpending : rules.mediaPending = true) (h : safePayload rules url scene = true) :
    noPayload (Json.getOr "payload" scene) = true := by
  unfold safePayload at h
  dsimp only at h
  rw [if_pos hpending] at h
  by_cases himage : isImage scene = true
  · rw [if_pos himage] at h
    exact h
  rw [if_neg himage] at h
  by_cases hper : rules.perSceneMedia = true
  · rw [if_pos hper, if_pos hpending] at h
    exact h
  · rw [if_neg hper] at h
    exact h

/-! ## The media service -/

/-- An entry names its scene and carries a URL. -/
theorem entryImage_generateOne {lib : MediaLibrary} {config : MemoirMediaConfig} {turn : ImageTurn}
    {sceneId : String} {entry : JsonFields} (h : generateOne lib config turn sceneId = some entry) :
    ∃ url, turn.uploaded = some url ∧ (lib.urlparse url).isSome = true ∧
      Json.getOr "url" entry = .str url ∧ entryImage entry = (some (.str sceneId), some (.str url)) := by
  unfold generateOne at h
  obtain ⟨data, -, h⟩ := Option.bind_eq_some_iff.mp h
  obtain ⟨⟨mime, extension⟩, -, h⟩ := Option.bind_eq_some_iff.mp h
  obtain ⟨url, hurl, h⟩ := Option.bind_eq_some_iff.mp h
  by_cases hcontract : isContractUrl lib config url = true
  · rw [if_pos hcontract] at h
    cases h
    refine ⟨url, hurl, ?_, rfl, rfl⟩
    unfold isContractUrl at hcontract
    split at hcontract
    next => cases hcontract
    next parsed hparsed =>
      rw [hparsed]
      rfl
  · rw [if_neg hcontract] at h
    cases h

theorem sceneName_some {scene : JsonFields} {id : String} (h : sceneName scene = some id) :
    Json.get? "scene_id" scene = some (.str id) := by
  unfold sceneName at h
  obtain ⟨hid, -⟩ := Option.filter_eq_some_iff.mp h
  unfold textField at hid
  obtain ⟨value, hvalue, hstr⟩ := Option.bind_eq_some_iff.mp hid
  cases value with
  | str s =>
    cases hstr
    exact hvalue
  | _ => cases hstr

/-- The body of a scene takes one field or none. -/
theorem bodyField_cases (scene : JsonFields) :
    bodyField scene = [] ∨ ∃ body, bodyField scene = [("body", .str body)] := by
  unfold bodyField
  split
  next body _ => exact Or.inr ⟨body, rfl⟩
  next => exact Or.inl rfl

/-- A scene that has been rewritten shows the image of its entry, and none
without one. -/
theorem sceneImage_sceneAfterMedia {scene updated : JsonFields} {entry : Option JsonFields}
    {keepType : Bool} (h : sceneAfterMedia scene entry keepType = .ok updated)
    (hentry : ∀ e, entry = some e → ∃ id url, Json.get? "scene_id" scene = some (.str id) ∧
      Json.getOr "url" e = .str url ∧ entryImage e = (some (.str id), some (.str url))) :
    sceneImage updated = entry.map entryImage := by
  unfold sceneAfterMedia at h
  obtain ⟨refs, -, h⟩ := bind_ok.mp h
  cases entry with
  | none =>
    cases h
    rcases bodyField_cases scene with hbody | ⟨body, hbody⟩ <;> rw [hbody] <;> rfl
  | some e =>
    obtain ⟨id, url, hid, hurl, himage⟩ := hentry e rfl
    cases h
    have hname : Json.getOr "scene_id" scene = .str id := by
      unfold Json.getOr
      rw [hid]
      rfl
    rw [Option.map_some, himage, hurl, hname]
    rcases bodyField_cases scene with hbody | ⟨body, hbody⟩ <;> rw [hbody] <;> rfl

/-- The manifest is the list of the images of the scenes. -/
theorem illustrate_images {lib : MediaLibrary} {config : MemoirMediaConfig} {deadline : Int}
    {illustrateAll : Bool} {turns : Nat → ImageTurn} {scenes : List JsonFields} :
    ∀ {index : Nat} {lost : Bool} {tasks updated : List JsonFields},
      illustrate lib config deadline illustrateAll turns index lost scenes = .ok (tasks, updated) →
      (∀ scene ∈ scenes, noPayload (Json.getOr "payload" scene) = true) →
      tasks.map entryImage = updated.filterMap sceneImage := by
  induction scenes with
  | nil =>
    intro _ _ tasks updated h _
    cases h
    rfl
  | cons scene scenes ih =>
    intro index lost tasks updated h hplain
    have hrest := fun other hother => hplain other (List.mem_cons_of_mem _ hother)
    unfold illustrate at h
    by_cases hcandidate : (illustrateAll || isImage scene) = true
    · rw [if_pos hcandidate] at h
      obtain ⟨card, hcard, h⟩ := bind_ok.mp h
      obtain ⟨rest, hillustrated, h⟩ := bind_ok.mp h
      cases h
      have hmore := ih hillustrated hrest
      have himage := sceneImage_sceneAfterMedia hcard (by
        intro e he
        unfold entryFor at he
        by_cases htried : isTried deadline lost (turns index) scene = true
        · rw [if_pos htried] at he
          obtain ⟨id, hname, hone⟩ := Option.bind_eq_some_iff.mp he
          obtain ⟨url, -, -, hurl, hpair⟩ := entryImage_generateOne hone
          exact ⟨id, url, sceneName_some hname, hurl, hpair⟩
        · rw [if_neg htried] at he
          cases he)
      cases hentry : entryFor lib config deadline lost (turns index) scene with
      | none =>
        rw [hentry] at himage
        rw [List.filterMap_cons_none himage]
        exact hmore
      | some e =>
        rw [hentry] at himage
        rw [List.filterMap_cons_some himage]
        show entryImage e :: rest.1.map entryImage = _
        rw [hmore]
    · rw [if_neg hcandidate] at h
      obtain ⟨rest, hillustrated, h⟩ := bind_ok.mp h
      cases h
      have hnone : sceneImage scene = none := by
        unfold sceneImage
        rw [imageUrl_of_noPayload (hplain scene List.mem_cons_self)]
        rfl
      rw [List.filterMap_cons_none hnone]
      exact ih hillustrated hrest

/-! ## The review -/

/-- The reference list of a safe scene. -/
theorem refs_of_safeScene {cc : CharClasses} {sceneTypes trustedRefs : List String}
    {scene : JsonFields} (h : safeScene cc sceneTypes scene = true)
    (htrusted : areTrusted trustedRefs ((Json.get? "source_refs" scene).getD (.arr [])) = true) :
    ∃ refs : List String, Json.get? "source_refs" scene = some (.arr (refs.map .str)) ∧
      ∀ ref ∈ refs, ref ∈ trustedRefs := by
  unfold safeScene at h
  rw [Bool.and_eq_true, Bool.and_eq_true, Bool.and_eq_true, Bool.and_eq_true] at h
  have htexts := h.1.1.2
  unfold Json.getOr areTexts at htexts
  cases hrefs : Json.get? "source_refs" scene with
  | none =>
    rw [hrefs] at htexts
    cases htexts
  | some value =>
    rw [hrefs] at htexts htrusted
    cases value with
    | arr refs =>
      obtain ⟨names, hnames, hall⟩ := areTrusted_arr htrusted
      exact ⟨names, by rw [hnames], hall⟩
    | _ => cases htexts

/-- What passes the review is well formed, where its manifest is empty or the
list of its images. -/
theorem wellPublished_of_passes {cc : CharClasses} {lib : MediaLibrary} {rules : PlaybackRules}
    {trustedRefs : List String} {scenes actions mediaTasks : Option (List JsonFields)}
    (h : passesReview cc lib rules trustedRefs scenes actions mediaTasks = .ok true)
    (himages : mediaTasks.getD [] = [] ∨
      (mediaTasks.getD []).map entryImage = (scenes.getD []).filterMap sceneImage) :
    ∃ items acts, scenes = some items ∧ actions = some acts ∧
      WellPublished cc trustedRefs items acts (mediaTasks.getD []) := by
  unfold passesReview at h
  obtain ⟨evaluation, hevaluation, h⟩ := bind_ok.mp h
  by_cases hpass : evaluation.passes = true
  · rw [if_pos hpass] at h
    obtain ⟨items, acts, rfl, rfl, hsafe⟩ := safePlayback_of_true h
    have hreviewed := reviewed_of_passes hevaluation hpass
    refine ⟨items, acts, rfl, rfl, ⟨hsafe.enough, ?_, hsafe.distinct, hsafe.length, hsafe.covers,
      ?_, fun scene hscene => ?_, hreviewed.bodies⟩⟩
    · exact length_sceneIds fun scene hscene => isSome_sceneId (hsafe.shapes scene hscene)
    · rcases himages with hempty | himages
      · -- without a manifest no URL belongs to any scene
        have hnone : ∀ scene ∈ items, sceneImage scene = none := by
          intro scene hscene
          have hpayload := hsafe.payloads scene hscene
          have hurl : urlByScene (mediaTasks.getD []) (textField "scene_id" scene) = none := by
            rw [hempty]
            cases textField "scene_id" scene <;> rfl
          rw [hurl] at hpayload
          unfold sceneImage
          rw [imageUrl_of_safePayload hpayload]
          rfl
        rw [hempty, List.filterMap_eq_nil_iff.mpr hnone]
        rfl
      · exact himages
    · exact refs_of_safeScene (hsafe.shapes scene hscene) (hreviewed.refs scene hscene)
  · rw [if_neg hpass] at h
    cases h

/-! ## The media node -/

/-- What the media node leaves: the materials as they were, and a manifest
that is empty or the list of the images. -/
structure Illustrated (state state' : AgentState) : Prop where
  material : state'.sanitizedMaterial = state.sanitizedMaterial
  images : state'.mediaTasks.getD [] = [] ∨
    (state'.mediaTasks.getD []).map entryImage = (state'.scenes.getD []).filterMap sceneImage

/-- While the images are pending, what passes the review has no payload. -/
theorem noPayload_of_mayIllustrate {cc : CharClasses} {lib : MediaLibrary} {agentVersion : String}
    {state : AgentState} {scenes : List JsonFields}
    (h : mayIllustrate cc lib agentVersion state scenes = .ok true) :
    ∀ scene ∈ scenes, noPayload (Json.getOr "payload" scene) = true := by
  unfold mayIllustrate passesReview at h
  obtain ⟨trustedRefs, -, h⟩ := bind_ok.mp h
  obtain ⟨evaluation, -, h⟩ := bind_ok.mp h
  by_cases hpass : evaluation.passes = true
  · rw [if_pos hpass] at h
    obtain ⟨items, acts, hitems, -, hsafe⟩ := safePlayback_of_true h
    cases hitems
    intro scene hscene
    exact noPayload_of_pending (show (egressRules agentVersion).mediaPending = true from rfl)
      (hsafe.payloads scene hscene)
  · rw [if_neg hpass] at h
    cases h

theorem illustrated_enqueueMediaTasks {cc : CharClasses} {lib : MediaLibrary}
    {mediaService : Option MediaService} {agentVersion : String} {state state' : AgentState}
    {result : MediaNodeResult}
    (h : enqueueMediaTasks cc lib mediaService agentVersion state = .ok (result, state')) :
    Illustrated state state' := by
  unfold enqueueMediaTasks at h
  dsimp only at h
  split at h
  next =>
    -- the capability is off
    split at h
    · cases h
      exact ⟨rfl, Or.inl rfl⟩
    · cases h
      exact ⟨rfl, Or.inl rfl⟩
  next service _ =>
    split at h
    · cases h
      exact ⟨rfl, Or.inl rfl⟩
    · obtain ⟨safe, hsafe, h⟩ := bind_ok.mp h
      cases safe with
      | true =>
        rw [if_pos rfl] at h
        obtain ⟨⟨tasks, updated⟩, hmedia, h⟩ := bind_ok.mp h
        cases h
        refine ⟨rfl, Or.inr ?_⟩
        exact illustrate_images hmedia (noPayload_of_mayIllustrate hsafe)
      | false =>
        -- the base cards, before anything has left
        rw [if_neg Bool.false_ne_true] at h
        cases h
        exact ⟨rfl, Or.inl rfl⟩

/-- The review of any state the media node leaves. -/
theorem reviewed_cases {cc : CharClasses} {lib : MediaLibrary} {config : Option MemoirMediaConfig}
    {agentVersion : String} {state before state' : AgentState} {passed : Bool}
    (hbefore : Illustrated before state)
    (h : safetyReview cc lib config agentVersion state = .ok (passed, state')) :
    (passed = true ∧ ∃ scenes actions manifest trustedRefs,
      state'.playbackDocument =
        some (playbackDocument agentVersion (some scenes) (some actions) (some manifest)) ∧
      trustedSourceRefs before agentVersion scenes = .ok trustedRefs ∧
      WellPublished cc trustedRefs scenes actions manifest) ∨
    (passed = false ∧ state'.playbackDocument =
      some (playbackDocument agentVersion (some baseScenes) (some baseActions) (some []))) := by
  unfold safetyReview at h
  obtain ⟨trustedRefs, htrusted, h⟩ := bind_ok.mp h
  obtain ⟨decision, hdecision, h⟩ := bind_ok.mp h
  cases h
  cases passed with
  | true =>
    obtain ⟨scenes, actions, hscenes, hactions, hpublished⟩ :=
      wellPublished_of_passes hdecision hbefore.images
    refine Or.inl ⟨rfl, scenes, actions, state.mediaTasks.getD [], trustedRefs, ?_, ?_, hpublished⟩
    · show some (playbackDocument agentVersion state.scenes state.actions state.mediaTasks) = _
      rw [hscenes, hactions]
      rfl
    · rw [hscenes] at htrusted
      unfold trustedSourceRefs at htrusted ⊢
      rw [← hbefore.material]
      exact htrusted
  | false => exact Or.inr ⟨rfl, rfl⟩

/-! ## The nodes in a row -/

section

variable {cc : CharClasses} {lib : MediaLibrary}

/-- The entries of the manifest can be read: their URLs have been parsed. -/
theorem readableEntry_generateOne {config : MemoirMediaConfig} {turn : ImageTurn} {sceneId : String}
    {entry : JsonFields} (h : generateOne lib config turn sceneId = some entry) :
    ReadableEntry lib entry := by
  obtain ⟨url, -, hparsed, hurl, himage⟩ := entryImage_generateOne h
  refine ⟨⟨sceneId, ?_⟩, fun other hother => ?_⟩
  · have hid : Json.get? "scene_id" entry = some (.str sceneId) := congrArg Prod.fst himage
    unfold Json.getOr
    rw [hid]
    rfl
  · rw [textField_of_getOr hurl] at hother
    cases hother
    exact hparsed

/-- The scenes of the media service are scenes again. -/
theorem illustrate_returns {config : MemoirMediaConfig} {deadline : Int} {illustrateAll : Bool}
    {turns : Nat → ImageTurn} (entries : List SceneEntry) :
    ∀ (index : Nat) (lost : Bool), ∃ (tasks : List JsonFields) (cards : List PlayCard),
      illustrate lib config deadline illustrateAll turns index lost (entries.map SceneEntry.fields) =
        .ok (tasks, cards.map PlayCard.fields) ∧ ∀ task ∈ tasks, ReadableEntry lib task := by
  induction entries with
  | nil =>
    intro _ _
    exact ⟨[], [], rfl, fun task htask => by cases htask⟩
  | cons entry entries ih =>
    intro index lost
    rw [List.map_cons]
    unfold illustrate
    by_cases hcandidate : (illustrateAll || isImage entry.fields) = true
    · rw [if_pos hcandidate]
      obtain ⟨tasks, cards, hrest, hreadable⟩ := ih (index + 1)
        (if isTried deadline lost (turns index) entry.fields then !(turns index).heartbeat else lost)
      cases hentry : entryFor lib config deadline lost (turns index) entry.fields with
      | none =>
        refine ⟨tasks, degradedCard illustrateAll entry :: cards, ?_, hreadable⟩
        dsimp only
        rw [hentry, sceneAfterMedia_none]
        show (illustrate _ _ _ _ _ _ _ _ >>= _) = _
        rw [hrest]
        rfl
      | some e =>
        refine ⟨e :: tasks, illustratedCard entry (Json.getOr "url" e) :: cards, ?_, ?_⟩
        · dsimp only
          rw [hentry, sceneAfterMedia_some]
          show (illustrate _ _ _ _ _ _ _ _ >>= _) = _
          rw [hrest]
          rfl
        · intro task htask
          rcases List.mem_cons.mp htask with rfl | htask
          · unfold entryFor at hentry
            by_cases htried : isTried deadline lost (turns index) entry.fields = true
            · rw [if_pos htried] at hentry
              obtain ⟨id, -, hone⟩ := Option.bind_eq_some_iff.mp hentry
              exact readableEntry_generateOne hone
            · rw [if_neg htried] at hentry
              cases hentry
          · exact hreadable task htask
    · rw [if_neg hcandidate]
      obtain ⟨tasks, cards, hrest, hreadable⟩ := ih (index + 1) lost
      refine ⟨tasks, ⟨entry, none⟩ :: cards, ?_, hreadable⟩
      rw [hrest]
      show Except.ok (tasks, entry.fields :: cards.map PlayCard.fields) = _
      rw [List.map_cons, show PlayCard.fields ⟨entry, none⟩ = entry.fields ++ [] from rfl,
        List.append_nil]

/-- A state that the review can read. -/
structure Readable (lib : MediaLibrary) (state : AgentState) : Prop where
  scenes : ∃ cards : List PlayCard, state.scenes = some (cards.map PlayCard.fields)
  actions : ∀ action ∈ state.actions.getD [], PlainAction action
  manifest : ∀ entry ∈ state.mediaTasks.getD [], ReadableEntry lib entry

theorem safetyReview_returns {config : Option MemoirMediaConfig} {agentVersion : String}
    {state : AgentState} (h : Readable lib state) :
    Returns (safetyReview cc lib config agentVersion state) := by
  obtain ⟨⟨cards, hcards⟩, hplain, hmanifest⟩ := h
  unfold safetyReview
  rw [hcards]
  refine (trustedSourceRefs_returns state agentVersion cards).bind fun trustedRefs _ => ?_
  refine (passesReview_returns cards hplain hmanifest).bind fun passed _ => ?_
  exact Returns.pure _

/-- The scenes of a state before the media node. -/
theorem FromEarlierNodes.entries {state : AgentState} (h : FromEarlierNodes state) :
    ∃ entries : List SceneEntry, state.scenes = some (entries.map SceneEntry.fields) := by
  obtain ⟨items, hitems, hscenes⟩ := h.scenes
  have hlist : ∃ entries : List SceneEntry, items = entries.map SceneEntry.fields := by
    clear hitems
    induction items with
    | nil => exact ⟨[], rfl⟩
    | cons scene items ih =>
      obtain ⟨entry, rfl⟩ := (hscenes scene List.mem_cons_self).entry
      obtain ⟨entries, rfl⟩ := ih fun other hother => hscenes other (List.mem_cons_of_mem _ hother)
      exact ⟨entry :: entries, rfl⟩
  obtain ⟨entries, rfl⟩ := hlist
  exact ⟨entries, hitems⟩

theorem FromEarlierNodes.plain {state : AgentState} (h : FromEarlierNodes state) :
    ∀ action ∈ state.actions.getD [], PlainAction action := by
  obtain ⟨items, hitems, -⟩ := h.scenes
  rcases h.actions with hnone | hrules
  · rw [hnone]
    intro action haction
    cases haction
  · rw [hrules, hitems]
    exact plainAction_ruleActionsFrom

/-- An entry is a card without a payload. -/
theorem map_fields (entries : List SceneEntry) :
    entries.map SceneEntry.fields =
      (entries.map fun entry => (⟨entry, none⟩ : PlayCard)).map PlayCard.fields := by
  rw [List.map_map]
  refine List.map_congr_left fun entry _ => ?_
  show entry.fields = entry.fields ++ []
  rw [List.append_nil]

/-- Whether the scenes may leave comes out without an exception. -/
theorem mayIllustrate_returns {agentVersion : String} {state : AgentState}
    (entries : List SceneEntry) (h : ∀ action ∈ state.actions.getD [], PlainAction action) :
    Returns (mayIllustrate cc lib agentVersion state (entries.map SceneEntry.fields)) := by
  unfold mayIllustrate
  rw [map_fields entries]
  refine (trustedSourceRefs_returns state agentVersion _).bind fun trustedRefs _ => ?_
  refine passesReview_returns _ ?_ fun entry hentry => by cases hentry
  cases hactions : state.actions with
  | none => exact plainAction_ruleActionsFrom
  | some items =>
    rw [hactions] at h
    exact h

/-- The media node returns, and what it leaves can be read. -/
theorem enqueueMediaTasks_returns {mediaService : Option MediaService} {agentVersion : String}
    {state : AgentState} (h : FromEarlierNodes state) :
    ∃ result state', enqueueMediaTasks cc lib mediaService agentVersion state =
      .ok (result, state') ∧ Readable lib state' := by
  obtain ⟨entries, hentries⟩ := h.entries
  have hscenes : state.scenes.getD [] = entries.map SceneEntry.fields := by rw [hentries]; rfl
  have hcards := hentries.trans (congrArg some (map_fields entries))
  have hempty : ∀ entry ∈ (some []).getD [], ReadableEntry lib entry :=
    fun entry hentry => by cases hentry
  unfold enqueueMediaTasks
  dsimp only
  rw [hscenes]
  split
  next =>
    split
    · -- every scene loses its image
      refine ⟨_, _, rfl, ⟨?_, plainAction_ruleActionsFrom, hempty⟩⟩
      refine ⟨entries.map fun entry => ⟨{ entry with
        sceneType := if entry.sceneType = "image" then "summary" else entry.sceneType
        titleWord := none }, none⟩, ?_⟩
      rw [List.map_map, List.map_map]
      exact congrArg some (List.map_congr_left fun entry _ => withoutImage_fields entry)
    · exact ⟨_, _, rfl, ⟨_, hcards⟩, h.plain, hempty⟩
  next service _ =>
    split
    · exact ⟨_, _, rfl, ⟨_, hcards⟩, h.plain, hempty⟩
    · obtain ⟨safe, hsafe⟩ := @mayIllustrate_returns cc lib agentVersion state entries h.plain
      rw [hsafe]
      cases safe with
      | false =>
        obtain ⟨cards, hbase⟩ := exists_baseScenes
        exact ⟨_, _, rfl, ⟨cards, congrArg some hbase⟩, plainAction_baseActions, hempty⟩
      | true =>
        obtain ⟨tasks, cards, hmedia, hreadable⟩ := @illustrate_returns lib service.config
          (service.started + service.config.nodeBudgetSeconds) (perSceneMediaEnabled agentVersion)
          service.turns entries 0 false
        have hgenerate : service.generate lib (entries.map SceneEntry.fields)
            (perSceneMediaEnabled agentVersion) = .ok (tasks, cards.map PlayCard.fields) := hmedia
        show ∃ result state', (service.generate lib (entries.map SceneEntry.fields)
          (perSceneMediaEnabled agentVersion) >>= _) = Except.ok (result, state') ∧ _
        rw [hgenerate]
        exact ⟨_, _, rfl, ⟨cards, rfl⟩, plainAction_ruleActionsFrom, hreadable⟩

/-- The two nodes return. -/
theorem mediaThenReview_returns {mediaService : Option MediaService} {agentVersion : String}
    {state : AgentState} (h : FromEarlierNodes state) :
    Returns (mediaThenReview cc lib mediaService agentVersion state) := by
  obtain ⟨result, state', hmedia, hreadable⟩ :=
    @enqueueMediaTasks_returns cc lib mediaService agentVersion state h
  unfold mediaThenReview
  rw [hmedia]
  exact safetyReview_returns hreadable

end

/-- After the media node and the safety review, the document is well formed
or it is the three base cards; on the scenes and actions of the earlier nodes
the two nodes do come to an end. -/
theorem published_structure (cc : CharClasses) (lib : MediaLibrary)
    (mediaService : Option MediaService) (agentVersion : String) (state : AgentState) :
    (FromEarlierNodes state →
      ∃ passed state', mediaThenReview cc lib mediaService agentVersion state = .ok (passed, state')) ∧
    ∀ passed state', mediaThenReview cc lib mediaService agentVersion state = .ok (passed, state') →
      (passed = true ∧ ∃ scenes actions manifest trustedRefs,
        state'.playbackDocument =
          some (playbackDocument agentVersion (some scenes) (some actions) (some manifest)) ∧
        trustedSourceRefs state agentVersion scenes = .ok trustedRefs ∧
        WellPublished cc trustedRefs scenes actions manifest) ∨
      (passed = false ∧ state'.playbackDocument =
        some (playbackDocument agentVersion (some baseScenes) (some baseActions) (some []))) := by
  constructor
  · intro h
    obtain ⟨⟨passed, state'⟩, hreview⟩ :=
      @mediaThenReview_returns cc lib mediaService agentVersion state h
    exact ⟨passed, state', hreview⟩
  · intro passed state' h
    unfold mediaThenReview at h
    obtain ⟨⟨result, illustrated⟩, hmedia, hreview⟩ := bind_ok.mp h
    exact reviewed_cases (illustrated_enqueueMediaTasks hmedia) hreview

/-! ## A run -/

/-- `urlparse` and `uuid.UUID`, for URLs without a query and for plain ids. -/
def plainMediaLibrary : MediaLibrary where
  urlparse url :=
    if startsWith "https://" url then
      let rest := url.toList.drop 8
      some ⟨"https", String.ofList (rest.takeWhile fun c => decide (c ≠ '/')),
        String.ofList (rest.dropWhile fun c => decide (c ≠ '/'))⟩
    else some ⟨"", "", url⟩
  isUuid text :=
    let digits := text.toList.filter fun c => decide (c ≠ '-')
    decide (digits.length = 32) && digits.all fun c => c.isDigit || decide ('a' ≤ c ∧ c ≤ 'f')

/-- Each image comes out; the lease is held as long as the heart beats. -/
def imageService (beats : Nat → Bool) : MediaService where
  config := memoirMediaConfig "m" [] 60
  started := 0
  turns index :=
    { clock := 0
      image := some [0xff, 0xd8, 0xff]
      keyId := "12345678-1234-4234-8234-123456789abc"
      mediaId := "87654321-1234-4234-8234-123456789abc"
      uploaded := some "https://a.aliyuncs.com/m/12345678-1234-4234-8234-123456789abc.jpg"
      heartbeat := beats index }

/-- A scene about a diary, as the model writes it. -/
def diaryScene (id : String) (titleWord : Json) : Json :=
  .obj [("scene_id", .str id), ("scene_type", .str "stats"),
    ("source_refs", .arr [.str "diary:1"]), ("body", .str "好"), ("title_word", titleWord)]

/-- What the state keeps of three scenes, the first with this title word. -/
def titledScenes (word : String) : List JsonFields :=
  ((parseBatchOutput "1.0.5" (.mapping [("scenes", .arr [diaryScene "s0-1" (.str word),
    diaryScene "s0-2" .null, diaryScene "s0-3" .null])]) ["diary:1"] true true).getD []).filterMap
      fun scene => MemoirModelGatewayAdapter.mapping (repairedScene scene)

def titledState (word : String) : AgentState :=
  { sanitizedMaterial := some [("materials",
      .arr [.obj [("source_ref", .str "diary:1"), ("sensitive", .bool false)]])]
    scenes := some (titledScenes word)
    actions := some (ruleActions (titledScenes word)) }

theorem fromEarlierNodes_titledState (word : String) : FromEarlierNodes (titledState word) := by
  refine ⟨⟨titledScenes word, rfl, fun scene hscene => ?_⟩, Or.inr rfl⟩
  obtain ⟨batch, -, hbatch⟩ := List.mem_filterMap.mp hscene
  cases hjson : repairedScene batch with
  | obj fields =>
    rw [hjson] at hbatch
    cases hbatch
    exact .looped hjson
  | _ =>
    rw [hjson] at hbatch
    cases hbatch

/-- Whether the document passes, with a state that meets the test. -/
def passesWith (test : AgentState → Bool) (result : Result (Bool × AgentState)) : Bool :=
  match result with
  | .ok (true, state) => test state
  | _ => false

theorem exists_of_passesWith {test : AgentState → Bool} {result : Result (Bool × AgentState)}
    (h : passesWith test result = true) : ∃ state, result = .ok (true, state) ∧ test state = true := by
  unfold passesWith at h
  split at h
  next state => exact ⟨state, rfl, h⟩
  next => cases h

/-- A run that loses its lease after the first image. -/
theorem first_image_published : ∃ state' scenes actions manifest trustedRefs,
    mediaThenReview asciiClasses plainMediaLibrary (some (imageService fun _ => false)) "1.0.5"
      (titledState "海边") = .ok (true, state') ∧
    (state'.mediaTasks.getD []).length = 1 ∧
    state'.playbackDocument =
      some (playbackDocument "1.0.5" (some scenes) (some actions) (some manifest)) ∧
    WellPublished asciiClasses trustedRefs scenes actions manifest := by
  obtain ⟨state', hrun, hone⟩ := exists_of_passesWith
    (show passesWith (fun state => decide ((state.mediaTasks.getD []).length = 1))
      (mediaThenReview asciiClasses plainMediaLibrary (some (imageService fun _ => false)) "1.0.5"
        (titledState "海边")) = true by decide +kernel)
  rcases (published_structure asciiClasses plainMediaLibrary
    (some (imageService fun _ => false)) "1.0.5" (titledState "海边")).2 true state' hrun with
    ⟨-, scenes, actions, manifest, trustedRefs, hdocument, -, hpublished⟩ | ⟨hfallback, -⟩
  · exact ⟨state', scenes, actions, manifest, trustedRefs, hrun, of_decide_eq_true hone, hdocument,
      hpublished⟩
  · cases hfallback

end AgentRuntime
