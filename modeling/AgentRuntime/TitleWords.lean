import AgentRuntime.PublishedPlayback

/-!
# The texts of a published document

A reader of the document sees the body of each scene and the title word in
its payload. The bodies are held against the guardrails twice. The title
words are not: the parsers and the review look at their length only, and the
media service moves them from the scene into the payload. So the texts are
clean exactly if the title words are of the scenes whose image is delivered
(`title_words_clean_iff`).
-/

namespace AgentRuntime

open MemoirNodeRunner MemoirMediaService MemoirPlaybackEvaluator SemanticValidator

/-- The title word that is shown with an image. -/
def payloadTitle (scene : JsonFields) : Json :=
  match Json.get? "payload" scene with
  | some (.obj payload) => Json.getOr "title_word" payload
  | _ => .null

/-- Every text a reader sees is without a violation. -/
def TextsClean (cc : CharClasses) (scenes : List JsonFields) : Prop :=
  ∀ scene ∈ scenes, MemoirGuardrails.violations cc (Json.getOr "body" scene) = [] ∧
    MemoirGuardrails.violations cc (payloadTitle scene) = []

/-! ## Which images are delivered -/

/-- The scene is one the service would illustrate, before the time is up. -/
def InTime (service : MediaService) (illustrateAll : Bool) (index : Nat) (scene : JsonFields) :
    Prop :=
  (illustrateAll || isImage scene) = true ∧ (sceneName scene).isSome = true ∧
    (service.turns index).clock < service.started + service.config.nodeBudgetSeconds

/-- The image for the scene at this place is delivered: it is asked for in
time, the lease has outlived the images before it, and nothing fails. -/
structure ImageDelivered (lib : MediaLibrary) (service : MediaService) (illustrateAll : Bool)
    (scenes : List JsonFields) (index : Nat) (scene : JsonFields) : Prop where
  inTime : InTime service illustrateAll index scene
  leased : ∀ i < index, ∀ earlier, scenes[i]? = some earlier →
    InTime service illustrateAll i earlier → (service.turns i).heartbeat = true
  made : ∃ name, sceneName scene = some name ∧
    (generateOne lib service.config (service.turns index) name).isSome = true

/-- The same from the scene with the number `start` on, where the lease may
have been lost before. -/
def DeliveredFrom (lib : MediaLibrary) (service : MediaService) (illustrateAll : Bool)
    (start : Nat) (lost : Bool) (scenes : List JsonFields) (k : Nat) (scene : JsonFields) : Prop :=
  lost = false ∧ InTime service illustrateAll (start + k) scene ∧
    (∀ i < k, ∀ earlier, scenes[i]? = some earlier →
      InTime service illustrateAll (start + i) earlier → (service.turns (start + i)).heartbeat = true) ∧
    ∃ name, sceneName scene = some name ∧
      (generateOne lib service.config (service.turns (start + k)) name).isSome = true

theorem imageDelivered_iff {lib : MediaLibrary} {service : MediaService} {illustrateAll : Bool}
    {scenes : List JsonFields} {index : Nat} {scene : JsonFields} :
    ImageDelivered lib service illustrateAll scenes index scene ↔
      DeliveredFrom lib service illustrateAll 0 false scenes index scene := by
  unfold DeliveredFrom
  constructor
  · intro h
    refine ⟨rfl, ?_, fun i hi earlier hearlier => ?_, ?_⟩
    · rw [Nat.zero_add]
      exact h.inTime
    · rw [Nat.zero_add]
      exact h.leased i hi earlier hearlier
    · rw [Nat.zero_add]
      exact h.made
  · rintro ⟨-, hintime, hleased, hmade⟩
    rw [Nat.zero_add] at hintime hmade
    refine ⟨hintime, fun i hi earlier hearlier => ?_, hmade⟩
    have hbeat := hleased i hi earlier hearlier
    rw [Nat.zero_add] at hbeat
    exact hbeat

/-- Whether the lease is lost after a scene that is a candidate. -/
theorem lost_after_iff {service : MediaService} {start : Nat} {lost : Bool} {scene : JsonFields}
    {illustrateAll : Bool} (hcandidate : (illustrateAll || isImage scene) = true) :
    (if isTried (service.started + service.config.nodeBudgetSeconds) lost (service.turns start) scene
      then !(service.turns start).heartbeat else lost) = false ↔
    lost = false ∧ (InTime service illustrateAll start scene →
      (service.turns start).heartbeat = true) := by
  unfold InTime isTried
  by_cases hlost : lost = true
  · subst hlost
    simp
  · have hfalse := Bool.eq_false_of_not_eq_true hlost
    subst hfalse
    by_cases hname : (sceneName scene).isSome = true
    · by_cases hclock : (service.turns start).clock <
          service.started + service.config.nodeBudgetSeconds
      · simp [hcandidate, hname, hclock]
      · simp [hname, hclock]
    · simp [hname]

/-- What is delivered after the first scene. -/
theorem deliveredFrom_succ {lib : MediaLibrary} {service : MediaService} {illustrateAll : Bool}
    {start : Nat} {lost lost' : Bool} {first scene : JsonFields} {scenes : List JsonFields} {k : Nat}
    (hlost : lost' = false ↔ lost = false ∧ (InTime service illustrateAll start first →
      (service.turns start).heartbeat = true)) :
    DeliveredFrom lib service illustrateAll start lost (first :: scenes) (k + 1) scene ↔
      DeliveredFrom lib service illustrateAll (start + 1) lost' scenes k scene := by
  unfold DeliveredFrom
  rw [hlost, show start + (k + 1) = start + 1 + k by omega]
  constructor
  · rintro ⟨hkept, hintime, hleased, hmade⟩
    refine ⟨⟨hkept, fun hfirst => hleased 0 (Nat.succ_pos k) first rfl hfirst⟩, hintime, ?_, hmade⟩
    intro i hi earlier hearlier hearly
    have hbeat := hleased (i + 1) (Nat.succ_lt_succ hi) earlier hearlier
    rw [show start + (i + 1) = start + 1 + i by omega] at hbeat
    exact hbeat hearly
  · rintro ⟨⟨hkept, hfirst⟩, hintime, hleased, hmade⟩
    refine ⟨hkept, hintime, ?_, hmade⟩
    intro i hi earlier hearlier hearly
    cases i with
    | zero =>
      cases hearlier
      exact hfirst hearly
    | succ i =>
      rw [show start + (i + 1) = start + 1 + i by omega] at hearly ⊢
      exact hleased i (Nat.lt_of_succ_lt_succ hi) earlier hearlier hearly

/-- An entry is made for the first scene exactly if its image is delivered. -/
theorem entryFor_isSome_iff {lib : MediaLibrary} {service : MediaService} {illustrateAll : Bool}
    {start : Nat} {lost : Bool} {scene : JsonFields} {scenes : List JsonFields}
    (hcandidate : (illustrateAll || isImage scene) = true) :
    (entryFor lib service.config (service.started + service.config.nodeBudgetSeconds) lost
      (service.turns start) scene).isSome = true ↔
      DeliveredFrom lib service illustrateAll start lost (scene :: scenes) 0 scene := by
  unfold entryFor DeliveredFrom InTime isTried
  constructor
  · intro h
    by_cases htried : ((sceneName scene).isSome && decide ((service.turns start).clock <
        service.started + service.config.nodeBudgetSeconds) && !lost) = true
    · rw [if_pos htried] at h
      rw [Bool.and_eq_true, Bool.and_eq_true] at htried
      obtain ⟨entry, hentry⟩ := Option.isSome_iff_exists.mp h
      obtain ⟨name, hname, hone⟩ := Option.bind_eq_some_iff.mp hentry
      refine ⟨by simpa using htried.2, ⟨hcandidate, htried.1.1, of_decide_eq_true htried.1.2⟩,
        fun i hi => absurd hi (Nat.not_lt_zero i), name, hname, ?_⟩
      rw [Nat.add_zero, hone]
      rfl
    · rw [if_neg htried] at h
      cases h
  · rintro ⟨rfl, ⟨-, hnamed, hclock⟩, -, name, hname, hmade⟩
    rw [Nat.add_zero] at hclock hmade
    rw [hnamed, decide_eq_true hclock, if_pos (show (true && true && !false) = true from rfl), hname]
    exact hmade

/-! ## Where the title words go -/

/-- A text without characters has no violation. -/
theorem violations_empty (cc : CharClasses) : MemoirGuardrails.violations cc (.str "") = [] := rfl

/-- A scene that has been generated is a card without a payload. -/
theorem fields_of_entry (entry : SceneEntry) : entry.fields = PlayCard.fields ⟨entry, none⟩ :=
  (List.append_nil _).symm

/-- The title word of a scene is shown with its image. -/
theorem title_illustratedCard (cc : CharClasses) (entry : SceneEntry) (url : Json) :
    MemoirGuardrails.violations cc (payloadTitle (illustratedCard entry url).fields) = [] ↔
      MemoirGuardrails.violations cc (Json.getOr "title_word" entry.fields) = [] := by
  have hshown : payloadTitle (illustratedCard entry url).fields =
      Json.getOr "title_word" (("image_url", url) :: titlePayload entry) := by
    unfold payloadTitle
    rw [PlayCard.get_payload]
    rfl
  have hword : Json.getOr "title_word" entry.fields = optionalText entry.titleWord := by
    unfold Json.getOr
    rw [fields_of_entry, PlayCard.get_titleWord]
    cases entry.titleWord <;> rfl
  rw [hshown, hword]
  unfold titlePayload
  cases entry.titleWord with
  | none => exact Iff.rfl
  | some word =>
    by_cases hempty : word = ""
    · subst hempty
      exact iff_of_true rfl (violations_empty cc)
    · dsimp only
      rw [if_neg hempty]
      exact Iff.rfl

/-- A scene without a payload shows no title word. -/
theorem title_of_card (cc : CharClasses) (entry : SceneEntry) :
    MemoirGuardrails.violations cc (payloadTitle (PlayCard.fields ⟨entry, none⟩)) = [] := by
  unfold payloadTitle
  rw [PlayCard.get_payload]
  rfl

theorem title_of_entry (cc : CharClasses) (entry : SceneEntry) :
    MemoirGuardrails.violations cc (payloadTitle entry.fields) = [] := by
  rw [fields_of_entry]
  exact title_of_card cc entry

theorem forall_getElem?_cons {α : Type} {P : Nat → α → Prop} {a : α} {l : List α} :
    (∀ k b, (a :: l)[k]? = some b → P k b) ↔ P 0 a ∧ ∀ k b, l[k]? = some b → P (k + 1) b := by
  constructor
  · intro h
    exact ⟨h 0 a rfl, fun k b hb => h (k + 1) b hb⟩
  · rintro ⟨hfirst, hrest⟩ k b hb
    cases k with
    | zero =>
      cases hb
      exact hfirst
    | succ k => exact hrest k b hb

/-- The title words that are shown are those of the delivered images. -/
theorem illustrate_titles {cc : CharClasses} {lib : MediaLibrary} {service : MediaService}
    {illustrateAll : Bool} (entries : List SceneEntry) :
    ∀ {start : Nat} {lost : Bool} {tasks updated : List JsonFields},
      illustrate lib service.config (service.started + service.config.nodeBudgetSeconds)
        illustrateAll service.turns start lost (entries.map SceneEntry.fields) =
          .ok (tasks, updated) →
      ((∀ scene ∈ updated, MemoirGuardrails.violations cc (payloadTitle scene) = []) ↔
        ∀ k scene, (entries.map SceneEntry.fields)[k]? = some scene →
          DeliveredFrom lib service illustrateAll start lost (entries.map SceneEntry.fields) k scene →
          MemoirGuardrails.violations cc (Json.getOr "title_word" scene) = []) := by
  induction entries with
  | nil =>
    intro start lost tasks updated h
    cases h
    exact iff_of_true (fun scene hscene => by cases hscene) fun k scene hscene => by
      simp at hscene
  | cons entry entries ih =>
    intro start lost tasks updated h
    rw [List.map_cons] at h ⊢
    unfold illustrate at h
    by_cases hcandidate : (illustrateAll || isImage entry.fields) = true
    · rw [if_pos hcandidate] at h
      obtain ⟨card, hcard, h⟩ := bind_ok.mp h
      obtain ⟨rest, hrest, h⟩ := bind_ok.mp h
      cases h
      have hmade := @entryFor_isSome_iff lib service illustrateAll start lost entry.fields
        (entries.map SceneEntry.fields) hcandidate
      rw [List.forall_mem_cons, forall_getElem?_cons, ih hrest]
      refine and_congr ?_ (forall_congr' fun k => forall_congr' fun scene =>
        imp_congr_right fun _ => imp_congr_left
          (deliveredFrom_succ (lost_after_iff hcandidate)).symm)
      cases hentry : entryFor lib service.config
          (service.started + service.config.nodeBudgetSeconds) lost (service.turns start)
          entry.fields with
      | none =>
        -- no image: the card shows no title word, and nothing is asked of it
        rw [hentry] at hcard hmade
        rw [sceneAfterMedia_none] at hcard
        cases hcard
        exact iff_of_true (title_of_card cc _)
          fun hdelivered => absurd (hmade.mpr hdelivered) Bool.false_ne_true
      | some e =>
        rw [hentry] at hcard hmade
        rw [sceneAfterMedia_some] at hcard
        cases hcard
        rw [title_illustratedCard]
        exact ⟨fun hclean _ => hclean, fun hclean => hclean (hmade.mp rfl)⟩
    · rw [if_neg hcandidate] at h
      obtain ⟨rest, hrest, h⟩ := bind_ok.mp h
      cases h
      have hnever : ∀ i, ¬ InTime service illustrateAll i entry.fields := fun i h => hcandidate h.1
      rw [List.forall_mem_cons, forall_getElem?_cons, ih hrest]
      refine and_congr ?_ (forall_congr' fun k => forall_congr' fun scene =>
        imp_congr_right fun _ => imp_congr_left (deliveredFrom_succ ?_).symm)
      · refine iff_of_true ?_ fun hdelivered => absurd hdelivered.2.1 (hnever _)
        exact title_of_entry cc entry
      · exact ⟨fun hlost => ⟨hlost, fun h => absurd h (hnever _)⟩, fun h => h.1⟩

/-! ## The two nodes -/

/-- The image of the scene is delivered: images are on, the scenes may leave,
and the service delivers it. -/
def Delivered (cc : CharClasses) (lib : MediaLibrary) (mediaService : Option MediaService)
    (agentVersion : String) (state : AgentState) (index : Nat) (scene : JsonFields) : Prop :=
  ∃ service, mediaService = some service ∧ mediaVersionEnabled agentVersion = true ∧
    mayIllustrate cc lib agentVersion state (state.scenes.getD []) = .ok true ∧
    ImageDelivered lib service (perSceneMediaEnabled agentVersion) (state.scenes.getD []) index scene

/-- Scenes without a payload show no title word. -/
theorem titles_of_cards (cc : CharClasses) {scenes : List JsonFields} {entries : List SceneEntry}
    (h : scenes = entries.map SceneEntry.fields) :
    ∀ scene ∈ scenes, MemoirGuardrails.violations cc (payloadTitle scene) = [] := by
  intro scene hscene
  rw [h] at hscene
  obtain ⟨entry, -, rfl⟩ := List.mem_map.mp hscene
  exact title_of_entry cc entry

/-- The title words after the media node. -/
theorem enqueueMediaTasks_titles {cc : CharClasses} {lib : MediaLibrary}
    {mediaService : Option MediaService} {agentVersion : String} {state state' : AgentState}
    {result : MediaNodeResult} (hstate : FromEarlierNodes state)
    (h : enqueueMediaTasks cc lib mediaService agentVersion state = .ok (result, state')) :
    (∀ scene ∈ state'.scenes.getD [], MemoirGuardrails.violations cc (payloadTitle scene) = []) ↔
      ∀ index scene, (state.scenes.getD [])[index]? = some scene →
        Delivered cc lib mediaService agentVersion state index scene →
        MemoirGuardrails.violations cc (Json.getOr "title_word" scene) = [] := by
  obtain ⟨entries, hentries⟩ := hstate.entries
  have hscenes : state.scenes.getD [] = entries.map SceneEntry.fields := by rw [hentries]; rfl
  -- where nothing is delivered, no payload holds a title word
  have hnothing : (∀ index scene, (state.scenes.getD [])[index]? = some scene →
        ¬ Delivered cc lib mediaService agentVersion state index scene) →
      (∀ scene ∈ state'.scenes.getD [],
        MemoirGuardrails.violations cc (payloadTitle scene) = []) →
      ((∀ scene ∈ state'.scenes.getD [],
          MemoirGuardrails.violations cc (payloadTitle scene) = []) ↔
        ∀ index scene, (state.scenes.getD [])[index]? = some scene →
          Delivered cc lib mediaService agentVersion state index scene →
          MemoirGuardrails.violations cc (Json.getOr "title_word" scene) = []) :=
    fun hnone hclean => iff_of_true hclean
      fun index scene hscene h => absurd h (hnone index scene hscene)
  unfold enqueueMediaTasks at h
  dsimp only at h
  split at h
  next hoff =>
    have hnone : ∀ index scene, (state.scenes.getD [])[index]? = some scene →
        ¬ Delivered cc lib mediaService agentVersion state index scene := by
      rintro index scene - ⟨service, hservice, hversion, -⟩
      rw [hversion, if_pos rfl, hservice] at hoff
      cases hoff
    split at h
    · cases h
      refine hnothing hnone fun scene hscene => ?_
      obtain ⟨before, hbefore, rfl⟩ := List.mem_map.mp hscene
      rw [hscenes] at hbefore
      obtain ⟨entry, -, rfl⟩ := List.mem_map.mp hbefore
      rw [withoutImage_fields]
      exact title_of_card cc _
    · cases h
      exact hnothing hnone (titles_of_cards cc hscenes)
  next service hon =>
    split at h
    next hidle =>
      cases h
      refine hnothing ?_ (titles_of_cards cc hscenes)
      rintro index scene hscene ⟨_, -, -, -, hdelivered⟩
      have hcandidate := hdelivered.inTime.1
      rw [hidle.2, Bool.false_or] at hcandidate
      have hnone := List.any_eq_false.mp hidle.1 scene (List.mem_of_getElem? hscene)
      exact hnone hcandidate
    next =>
      obtain ⟨safe, hsafe, h⟩ := bind_ok.mp h
      cases safe with
      | false =>
        rw [if_neg Bool.false_ne_true] at h
        cases h
        refine hnothing ?_ ?_
        · rintro index scene - ⟨_, -, -, hmay, -⟩
          rw [hsafe] at hmay
          cases hmay
        · intro scene hscene
          obtain ⟨number, -, rfl⟩ := List.mem_map.mp hscene
          rfl
      | true =>
        rw [if_pos rfl] at h
        obtain ⟨⟨tasks, updated⟩, hmedia, h⟩ := bind_ok.mp h
        cases h
        have hservice : mediaVersionEnabled agentVersion = true ∧ mediaService = some service := by
          by_cases hversion : mediaVersionEnabled agentVersion = true
          · rw [if_pos hversion] at hon
            exact ⟨hversion, hon⟩
          · rw [if_neg hversion] at hon
            cases hon
        rw [hscenes] at hmedia
        refine (illustrate_titles entries hmedia).trans ?_
        rw [← hscenes]
        refine forall_congr' fun index => forall_congr' fun scene => imp_congr_right fun _ =>
          imp_congr_left (imageDelivered_iff.symm.trans ?_)
        constructor
        · intro hdelivered
          exact ⟨service, hservice.2, hservice.1, hsafe, hdelivered⟩
        · rintro ⟨other, hother, -, -, hdelivered⟩
          rw [hservice.2] at hother
          cases hother
          exact hdelivered

/-- A document that has passed is that of the state, and its bodies are clean. -/
theorem document_of_passed {cc : CharClasses} {lib : MediaLibrary}
    {config : Option MemoirMediaConfig} {agentVersion : String} {state state' : AgentState}
    (h : safetyReview cc lib config agentVersion state = .ok (true, state')) :
    state'.scenes = state.scenes ∧
      state'.playbackDocument =
        some (playbackDocument agentVersion state'.scenes state'.actions state'.mediaTasks) ∧
      ∀ scene ∈ state.scenes.getD [],
        MemoirGuardrails.violations cc (Json.getOr "body" scene) = [] := by
  unfold safetyReview at h
  obtain ⟨trustedRefs, -, h⟩ := bind_ok.mp h
  obtain ⟨decision, hdecision, h⟩ := bind_ok.mp h
  cases h
  refine ⟨rfl, rfl, ?_⟩
  unfold passesReview at hdecision
  obtain ⟨evaluation, hevaluation, hdecision⟩ := bind_ok.mp hdecision
  by_cases hpass : evaluation.passes = true
  · exact (reviewed_of_passes hevaluation hpass).bodies
  · rw [if_neg hpass] at hdecision
    cases hdecision

/-- A document that has passed shows clean texts exactly if the title word of
each scene whose image is delivered is clean. -/
theorem title_words_clean_iff {cc : CharClasses} {lib : MediaLibrary}
    {mediaService : Option MediaService} {agentVersion : String} {state state' : AgentState}
    (hstate : FromEarlierNodes state)
    (h : mediaThenReview cc lib mediaService agentVersion state = .ok (true, state')) :
    state'.playbackDocument =
        some (playbackDocument agentVersion state'.scenes state'.actions state'.mediaTasks) ∧
      (TextsClean cc (state'.scenes.getD []) ↔
        ∀ index scene, (state.scenes.getD [])[index]? = some scene →
          Delivered cc lib mediaService agentVersion state index scene →
          MemoirGuardrails.violations cc (Json.getOr "title_word" scene) = []) := by
  unfold mediaThenReview at h
  obtain ⟨⟨result, illustrated⟩, hmedia, hreview⟩ := bind_ok.mp h
  obtain ⟨hsame, hdocument, hbodies⟩ := document_of_passed hreview
  refine ⟨hdocument, ?_⟩
  rw [← enqueueMediaTasks_titles hstate hmedia, hsame]
  unfold TextsClean
  constructor
  · intro hclean scene hscene
    exact (hclean scene hscene).2
  · intro hclean scene hscene
    exact ⟨hbodies scene hscene, hclean scene hscene⟩

/-! ## Two answers of the model -/

/-- A run whose image shows a word that is clean. -/
theorem plain_title_published : ∃ state',
    mediaThenReview asciiClasses plainMediaLibrary (some (imageService fun _ => true)) "1.0.5"
      (titledState "海边") = .ok (true, state') ∧
    (TextsClean asciiClasses (state'.scenes.getD []) ↔
      ∀ index scene, (titledScenes "海边")[index]? = some scene →
        Delivered asciiClasses plainMediaLibrary (some (imageService fun _ => true)) "1.0.5" (titledState "海边")
          index scene →
        MemoirGuardrails.violations asciiClasses (Json.getOr "title_word" scene) = []) := by
  obtain ⟨state', hrun, -⟩ := exists_of_passesWith
    (show passesWith (fun _ => true) (mediaThenReview asciiClasses plainMediaLibrary
      (some (imageService fun _ => true)) "1.0.5" (titledState "海边")) = true by decide +kernel)
  exact ⟨state', hrun, (title_words_clean_iff (fromEarlierNodes_titledState "海边") hrun).2⟩

/-- The model writes a title word that puts the blame on the reader, and the
document passes with it. -/
theorem blaming_title_published : ∃ state',
    FromEarlierNodes (titledState "都怪你") ∧
    mediaThenReview asciiClasses plainMediaLibrary (some (imageService fun _ => true)) "1.0.5"
      (titledState "都怪你") = .ok (true, state') ∧
    state'.playbackDocument =
      some (playbackDocument "1.0.5" state'.scenes state'.actions state'.mediaTasks) ∧
    ¬ TextsClean asciiClasses (state'.scenes.getD []) := by
  obtain ⟨state', hrun, hblamed⟩ := exists_of_passesWith
    (show passesWith (fun state => (state.scenes.getD []).any fun scene =>
        !(MemoirGuardrails.violations asciiClasses (payloadTitle scene)).isEmpty)
      (mediaThenReview asciiClasses plainMediaLibrary (some (imageService fun _ => true)) "1.0.5"
        (titledState "都怪你")) = true by decide +kernel)
  refine ⟨state', fromEarlierNodes_titledState "都怪你", hrun, ?_, fun hclean => ?_⟩
  · unfold mediaThenReview at hrun
    obtain ⟨illustrated, -, hreview⟩ := bind_ok.mp hrun
    exact (document_of_passed hreview).2.1
  · obtain ⟨scene, hscene, hword⟩ := List.any_eq_true.mp hblamed
    rw [(hclean scene hscene).2] at hword
    cases hword

end AgentRuntime
