import AgentRuntime.LoopStructure
import AgentRuntime.MaterialView

/-!
# The repair of the coverage

After the loop `_repair_coverage_gaps` looks which of the available types no
scene refers to, and asks the model once for scenes about them. Whatever the
model answers, the scenes are either left as they are or get all that was
missing at once (`coverage_repair_all_or_nothing`): the answer is accepted as
a whole, looked through for what is still missing, and only then spliced in
before the summary.
-/

namespace AgentRuntime

open Keyed MemoirNodeRunner

/-- What is asked of the model. -/
structure CoverageRequest where
  missingMaterialTypes : List String
  sourceRefs : List String
  materials : List LoopMaterial
  deriving DecidableEq, Repr

/-- `_model_data`, for the repair. -/
abbrev CoverageModel := CoverageRequest → Option ModelData

/-- What the node returns. -/
structure CoverageResult where
  repaired : Bool
  addedSceneCount : Nat
  deriving DecidableEq, Repr

/-- `zip_longest`, a row for each position. -/
def zipLongest {α : Type} (queues : List (List α)) : List (List (Option α)) :=
  (List.range ((queues.map List.length).foldr max 0)).map fun i => queues.map (·[i]?)

namespace MemoirNodeRunner

/-! ## Types -/

/-- The type of a material, `ref.split(":", 1)[0]`. -/
def refType (ref : String) : String :=
  String.ofList (ref.toList.takeWhile (· ≠ ':'))

/-- `_covered_material_types`; none where it raises. -/
def coveredMaterialTypes (scenes : List Json) : Option (List String) :=
  (chapterRefs scenes).map fun refs => refs.map refType

/-- Whether the type of the item cannot be looked up in a `dict`. -/
def unhashableType : Json → Bool
  | .obj item =>
    match Json.get? "type" item with
    | some (.arr _) | some (.obj _) => true
    | _ => false
  | _ => false

/-- `_missing_type_materials`. -/
def missingTypeMaterials (sanitizedMaterial : Json) (missingTypes : List String) :
    Except String (Option (List LoopMaterial)) :=
  match sanitizedMaterial with
  | .obj fields =>
    match Json.get? "materials" fields with
    | some (.arr items) =>
      if items.any unhashableType then .error "TypeError"
      else
        let queues := missingTypes.map fun t => items.filterMap (safeMaterial t)
        if queues.any List.isEmpty then .ok none
        else .ok (some (((zipLongest queues).flatten.filterMap id).take 8))
    | _ => .ok none
  | _ => .ok none

/-! ## Reading what the model answers -/

/-- `_CoverageRepairSceneOutput.model_validate`. -/
def coverageRepairSceneOutput (value : Json) : Option BatchScene :=
  (batchSceneOutput value).filter fun scene =>
    decide (scene.sceneType ∈ [SceneType.stats, .diaryHighlight, .betHighlight, .milestone])

/-- `_CoverageRepairOutput.model_validate`. -/
def coverageRepairOutput : Json → Option (List BatchScene)
  | .obj fields =>
    if fields.all (fun f => decide (f.1 = "scenes")) then
      match Json.get? "scenes" fields with
      | some (.arr scenes) => scenes.mapM coverageRepairSceneOutput
      | _ => none
    else none
  | _ => none

/-- One scene of the answer; `taken` are the ids of the scenes there are and
of those before it. -/
def acceptRepairScene (allowedRefs taken : List String) (scene : BatchScene) : Option BatchScene :=
  if ['r', '1', '-'].isPrefixOf scene.sceneId.toList = false then none
  else if scene.sceneId ∈ taken then none
  else if semanticErrorCodes allowedRefs scene ≠ [] then none
  else if scene.sourceRefs = [] ∨ isBlank scene.body = true then none
  else if ∃ word ∈ scene.titleWord, word = "" ∨ 6 < word.length then none
  else some scene.entry

def acceptRepairScenes (allowedRefs : List String) :
    List String → List BatchScene → Option (List BatchScene)
  | _, [] => some []
  | taken, scene :: rest => do
    let entry ← acceptRepairScene allowedRefs taken scene
    let entries ← acceptRepairScenes allowedRefs (scene.sceneId :: taken) rest
    pure (entry :: entries)

/-- `_parse_coverage_repair_output`. -/
def parseCoverageRepairOutput (data : ModelData) (allowedRefs existingSceneIds : List String) :
    Option (List BatchScene) := do
  let value ← data.value
  let output ← coverageRepairOutput value
  acceptRepairScenes allowedRefs existingSceneIds output

/-! ## The repair -/

/-- The id of a scene of the state. -/
def sceneIdOf : Json → Option String
  | .obj scene => (Json.get? "scene_id" scene).bind Json.str?
  | _ => none

/-- Whether a scene of the state is a summary. -/
def isSummaryScene : Json → Bool
  | .obj scene =>
    match Json.get? "scene_type" scene with
    | some (.str sceneType) => decide (sceneType = "summary")
    | _ => false
  | _ => false

/-- An accepted scene as the state keeps it. -/
def repairedScene (scene : BatchScene) : Json :=
  .obj (sceneFields scene ++
    match scene.titleWord with
    | some word => [("title_word", .str word)]
    | none => [])

/-- The scenes with the repaired ones in front of a summary at the end. -/
def spliceScenes (scenes repairScenes : List Json) : List Json :=
  match scenes.getLast? with
  | some last =>
    if isSummaryScene last then scenes.dropLast ++ repairScenes ++ [last]
    else scenes ++ repairScenes
  | none => scenes ++ repairScenes

/-- `_repair_coverage_gaps`, and the scenes of the state after it. -/
def repairCoverageGaps (model : CoverageModel) (view : MaterialView) (scenes : List Json) :
    Except String CoverageResult × List Json :=
  match coveredMaterialTypes scenes with
  | none => (.error "TypeError", scenes)
  | some covered =>
    let available := availableMaterialTypes view
    let missing := available.filter fun t => decide (t ∉ covered)
    if missing = [] then (.ok { repaired := false, addedSceneCount := 0 }, scenes)
    else
      match missingTypeMaterials view.sanitizedMaterial missing with
      | .error code => (.error code, scenes)
      | .ok none => (.error "COVERAGE_TEXT_DIGEST_MISSING", scenes)
      | .ok (some materials) =>
        let sourceRefs := materials.map (·.sourceRef)
        match model {
          missingMaterialTypes := missing
          sourceRefs := sourceRefs
          materials := materials } with
        | none => (.error "COVERAGE_REPAIR_MODEL_UNAVAILABLE", scenes)
        | some data =>
          match parseCoverageRepairOutput data sourceRefs (scenes.filterMap sceneIdOf) with
          | none => (.error "COVERAGE_REPAIR_OUTPUT_INVALID", scenes)
          | some repairs =>
            let repairScenes := repairs.map repairedScene
            match coveredMaterialTypes repairScenes with
            | none => (.error "TypeError", scenes)
            | some added =>
              if available.any fun t => decide (t ∉ covered ++ added) then
                (.error "COVERAGE_REPAIR_INCOMPLETE", scenes)
              else
                -- the scenes are written as a whole, or not at all
                match applyToolOutput (.arr (spliceScenes scenes repairScenes)) with
                | .error code => (.error code, scenes)
                | .ok _ =>
                  (.ok { repaired := true, addedSceneCount := repairs.length },
                    spliceScenes scenes repairScenes)

/-! ## What is covered -/

theorem chapterRefs_cons_obj (chapter : JsonFields) (chapters : List Json) :
    chapterRefs (.obj chapter :: chapters)
      = (((Json.get? "source_refs" chapter).getD (.arr [])).iterate).bind fun refs =>
        (chapterRefs chapters).map (stringsOf refs ++ ·) := by
  rw [chapterRefs]
  cases ((Json.get? "source_refs" chapter).getD (.arr [])).iterate with
  | none => rfl
  | some refs => cases chapterRefs chapters <;> rfl

/-- The references of two runs of scenes are those of the first and then of
the second. -/
theorem chapterRefs_append : ∀ xs ys : List Json, chapterRefs (xs ++ ys)
    = (chapterRefs xs).bind fun refs => (chapterRefs ys).map (refs ++ ·)
  | [], ys => by
    show chapterRefs ys = (some []).bind _
    rw [Option.bind_some]
    cases chapterRefs ys <;> rfl
  | .obj chapter :: xs, ys => by
    rw [List.cons_append, chapterRefs_cons_obj, chapterRefs_cons_obj, chapterRefs_append xs ys]
    cases ((Json.get? "source_refs" chapter).getD (.arr [])).iterate with
    | none => rfl
    | some refs =>
      cases chapterRefs xs with
      | none => rfl
      | some first =>
        cases chapterRefs ys with
        | none => rfl
        | some second => simp only [Option.bind_some, Option.map_some, List.append_assoc]
  | .null :: xs, ys => chapterRefs_append xs ys
  | .bool _ :: xs, ys => chapterRefs_append xs ys
  | .int _ :: xs, ys => chapterRefs_append xs ys
  | .real _ _ :: xs, ys => chapterRefs_append xs ys
  | .str _ :: xs, ys => chapterRefs_append xs ys
  | .arr _ :: xs, ys => chapterRefs_append xs ys

theorem coveredMaterialTypes_append {xs ys : List Json} {covered added : List String}
    (hxs : coveredMaterialTypes xs = some covered) (hys : coveredMaterialTypes ys = some added) :
    coveredMaterialTypes (xs ++ ys) = some (covered ++ added) := by
  obtain ⟨refs, hrefs, rfl⟩ := Option.map_eq_some_iff.mp hxs
  obtain ⟨refs', hrefs', rfl⟩ := Option.map_eq_some_iff.mp hys
  unfold coveredMaterialTypes
  rw [chapterRefs_append, hrefs, hrefs', Option.bind_some, Option.map_some, Option.map_some,
    List.map_append]

/-- What two runs of scenes cover, each of them covers its part of. -/
theorem coveredMaterialTypes_of_append {xs ys : List Json} {covered : List String}
    (h : coveredMaterialTypes (xs ++ ys) = some covered) : ∃ first second,
      coveredMaterialTypes xs = some first ∧ coveredMaterialTypes ys = some second ∧
        covered = first ++ second := by
  obtain ⟨refs, hrefs, rfl⟩ := Option.map_eq_some_iff.mp h
  rw [chapterRefs_append] at hrefs
  obtain ⟨first, hfirst, hrest⟩ := Option.bind_eq_some_iff.mp hrefs
  obtain ⟨second, hsecond, rfl⟩ := Option.map_eq_some_iff.mp hrest
  unfold coveredMaterialTypes
  exact ⟨_, _, congrArg (Option.map _) hfirst, congrArg (Option.map _) hsecond,
    List.map_append⟩

/-! ## The splice -/

/-- The repaired scenes go in as one piece, in front of a summary at the
end. -/
theorem spliceScenes_eq (scenes repairScenes : List Json) : ∃ front back,
    scenes = front ++ back ∧ spliceScenes scenes repairScenes = front ++ repairScenes ++ back ∧
      ∀ last, scenes.getLast? = some last → isSummaryScene last = true → back = [last] := by
  unfold spliceScenes
  split
  next last hlast =>
    split
    next hsummary =>
      refine ⟨scenes.dropLast, [last], ?_, rfl, fun last' hlast' _ => ?_⟩
      · exact (List.dropLast_append_getLast? last hlast).symm
      · rw [hlast] at hlast'
        cases hlast'
        rfl
    next hother =>
      refine ⟨scenes, [], (List.append_nil _).symm, (List.append_nil _).symm,
        fun last' hlast' hsummary => ?_⟩
      rw [hlast] at hlast'
      cases hlast'
      exact absurd hsummary hother
  next hnone =>
    refine ⟨scenes, [], (List.append_nil _).symm, (List.append_nil _).symm, fun last' hlast' => ?_⟩
    rw [hnone] at hlast'
    cases hlast'

/-! ## The accepted scenes -/

/-- The accepted scenes have ids of their own. -/
theorem acceptRepairScenes_ids {allowedRefs : List String} :
    ∀ {scenes entries : List BatchScene} {taken : List String},
      acceptRepairScenes allowedRefs taken scenes = some entries →
      Unseen (·.sceneId) taken entries
  | [], _, _, h => by
    cases h
    exact Unseen.nil
  | scene :: rest, _, taken, h => by
    obtain ⟨entry, hentry, h⟩ := Option.bind_eq_some_iff.mp h
    obtain ⟨entries, hentries, h⟩ := Option.bind_eq_some_iff.mp h
    cases h
    have hrest := acceptRepairScenes_ids hentries
    have hid : entry.sceneId = scene.sceneId ∧ scene.sceneId ∉ taken := by
      unfold acceptRepairScene at hentry
      split at hentry
      · cases hentry
      split at hentry
      · cases hentry
      next hnew =>
      split at hentry
      · cases hentry
      split at hentry
      · cases hentry
      split at hentry
      · cases hentry
      · cases hentry
        exact ⟨rfl, hnew⟩
    rw [← hid.1] at hrest
    exact hrest.cons (hid.1.symm ▸ hid.2)

/-! ## What is handed to the model -/

theorem le_longest {α : Type} : ∀ {queues : List (List α)} {queue : List α}, queue ∈ queues →
    queue.length ≤ (queues.map List.length).foldr max 0
  | q :: queues, queue, hmem => by
    rw [List.map_cons, List.foldr_cons]
    rcases List.mem_cons.mp hmem with rfl | hrest
    · exact Nat.le_max_left _ _
    · exact Nat.le_trans (le_longest hrest) (Nat.le_max_right _ _)

/-- The heads of the queues come first, and so they are among the first `n`
where there are no more queues than that. -/
theorem mem_take_of_head {α : Type} {queues : List (List α)} {x : α} {queue : List α}
    (hmem : x :: queue ∈ queues) {n : Nat} (hn : queues.length ≤ n) :
    x ∈ ((zipLongest queues).flatten.filterMap id).take n := by
  -- a queue with a head gives a first row
  obtain ⟨rows, hrows⟩ : ∃ rows, (queues.map List.length).foldr max 0 = rows + 1 := by
    have hle := le_longest hmem
    rw [List.length_cons] at hle
    exact ⟨_, (Nat.succ_pred_eq_of_pos (Nat.lt_of_lt_of_le (Nat.succ_pos _) hle)).symm⟩
  have hfirst : ∃ more, (zipLongest queues).flatten = queues.map (·[0]?) ++ more := by
    unfold zipLongest
    rw [hrows, List.range_succ_eq_map, List.map_cons, List.flatten_cons]
    exact ⟨_, rfl⟩
  obtain ⟨more, hmore⟩ := hfirst
  have hheads : x ∈ (queues.map (·[0]?)).filterMap id :=
    List.mem_filterMap.mpr ⟨some x, List.mem_map.mpr ⟨x :: queue, hmem, rfl⟩, rfl⟩
  have hfew : ((queues.map (·[0]?)).filterMap id).length ≤ n := by
    refine Nat.le_trans (List.length_filterMap_le _ _) ?_
    rw [List.length_map]
    exact hn
  rw [hmore, List.filterMap_append, List.take_append, List.take_of_length_le hfew]
  exact List.mem_append_left _ hheads

/-- What `_missing_type_materials` makes of the types that are missing. -/
structure HandsOver (view : MaterialView) (missing : List String)
    (answer : Option (List LoopMaterial)) : Prop where
  none_iff : answer = none ↔ ∃ t ∈ missing, ¬ view.HasSafeText t
  represents : ∀ materials, answer = some materials → ∀ t ∈ missing,
    ∃ item ∈ view.items, ∃ material ∈ materials, safeMaterial t item = some material

theorem not_safe_iff {view : MaterialView} {t : String} :
    ¬ view.HasSafeText t ↔ view.items.filterMap (safeMaterial t) = [] := by
  rw [List.filterMap_eq_nil_iff]
  unfold MaterialView.HasSafeText
  refine ⟨fun h item hitem => ?_, fun h ⟨item, hitem, material, hmaterial⟩ => ?_⟩
  · cases hsafe : safeMaterial t item with
    | none => rfl
    | some material => exact absurd ⟨item, hitem, material, hsafe⟩ h
  · rw [h item hitem] at hmaterial
    cases hmaterial

/-- **What is handed over**: a material for every missing type, and nothing
exactly if one of them has none. -/
theorem missingTypeMaterials_spec {view : MaterialView} {fields : JsonFields} {items : List Json}
    (hview : view.sanitizedMaterial = .obj fields)
    (hitems : Json.get? "materials" fields = some (.arr items))
    (htypes : items.any unhashableType = false) {missing : List String}
    (hfew : missing.length ≤ 8) : ∃ answer,
      missingTypeMaterials view.sanitizedMaterial missing = .ok answer ∧
        HandsOver view missing answer := by
  have hsame : view.items = items := by
    unfold MaterialView.items
    rw [hview]
    dsimp only
    rw [hitems]
  unfold missingTypeMaterials
  rw [hview]
  dsimp only
  rw [hitems]
  dsimp only
  rw [if_neg (by rw [htypes]; exact Bool.false_ne_true)]
  by_cases hempty : (missing.map fun t => items.filterMap (safeMaterial t)).any List.isEmpty = true
  · rw [if_pos hempty]
    -- the type of the empty queue has no text
    refine ⟨none, rfl, ⟨fun _ => ?_, fun _ => rfl⟩, fun _ h => (nomatch h)⟩
    obtain ⟨queue, hqueue, hnil⟩ := List.any_eq_true.mp hempty
    obtain ⟨t, ht, rfl⟩ := List.mem_map.mp hqueue
    refine ⟨t, ht, not_safe_iff.mpr ?_⟩
    rw [hsame]
    exact List.isEmpty_iff.mp hnil
  · rw [if_neg hempty]
    have hfull : ∀ t ∈ missing, items.filterMap (safeMaterial t) ≠ [] := fun t ht hnil =>
      hempty (List.any_eq_true.mpr ⟨_, List.mem_map.mpr ⟨t, ht, rfl⟩, List.isEmpty_iff.mpr hnil⟩)
    refine ⟨_, rfl, ⟨fun h => (nomatch h), fun ⟨t, ht, hnone⟩ => ?_⟩, fun materials h t ht => ?_⟩
    · rw [not_safe_iff, hsame] at hnone
      exact absurd hnone (hfull t ht)
    · cases h
      obtain ⟨material, queue, hqueue⟩ := List.exists_cons_of_ne_nil (hfull t ht)
      have hhead : material ∈ items.filterMap (safeMaterial t) := by
        rw [hqueue]
        exact List.mem_cons_self
      obtain ⟨item, hitem, hsafe⟩ := List.mem_filterMap.mp hhead
      refine ⟨item, hsame ▸ hitem, material, ?_, hsafe⟩
      refine mem_take_of_head (List.mem_map.mpr ⟨t, ht, hqueue⟩) ?_
      rw [List.length_map]
      exact hfew

/-! ## All or nothing -/

/-- The types no scene refers to. -/
def missingTypes (view : MaterialView) (covered : List String) : List String :=
  (availableMaterialTypes view).filter fun t => decide (t ∉ covered)

/-- The scenes have got all that was missing: every type with a text that may
be shown is covered, the scenes there were are as they were and a summary at
their end is still the end, and those that are new came in with ids of their
own. -/
structure RepairApplied (view : MaterialView) (scenes scenes' : List Json) : Prop where
  covers : ∃ types, coveredMaterialTypes scenes' = some types ∧
    ∀ t ∈ materialTypeOrder, view.HasSafeText t → t ∈ types
  kept : scenes.Sublist scenes'
  last : ∀ last, scenes.getLast? = some last → isSummaryScene last = true →
    scenes'.getLast? = some last
  added : ∃ (front inserted back : List Json) (ids : List String), scenes = front ++ back ∧
    scenes' = front ++ inserted ++ back ∧ inserted.map sceneIdOf = ids.map some ∧ ids.Nodup ∧
    ∀ id ∈ ids, ∀ scene ∈ scenes, sceneIdOf scene ≠ some id

/-- What the repair makes of the scenes, and what it hands to the model. -/
structure AllOrNothing (model : CoverageModel) (view : MaterialView) (scenes : List Json) :
    Prop where
  applied : (repairCoverageGaps model view scenes).2 = scenes ∨
    RepairApplied view scenes (repairCoverageGaps model view scenes).2
  handed : ∀ covered, coveredMaterialTypes scenes = some covered → ∃ answer,
    missingTypeMaterials view.sanitizedMaterial (missingTypes view covered) = .ok answer ∧
      HandsOver view (missingTypes view covered) answer

/-- The scenes are only changed where the repair goes through to its end. -/
theorem repairCoverageGaps_cases (model : CoverageModel) (view : MaterialView)
    (scenes : List Json) :
    (repairCoverageGaps model view scenes).2 = scenes ∨
      ∃ covered data sourceRefs repairs added, coveredMaterialTypes scenes = some covered ∧
        parseCoverageRepairOutput data sourceRefs (scenes.filterMap sceneIdOf) = some repairs ∧
        coveredMaterialTypes (repairs.map repairedScene) = some added ∧
        (∀ t ∈ availableMaterialTypes view, t ∈ covered ++ added) ∧
        (repairCoverageGaps model view scenes).2
          = spliceScenes scenes (repairs.map repairedScene) := by
  unfold repairCoverageGaps
  split
  · exact Or.inl rfl
  next covered hcovered =>
  dsimp only
  split
  · exact Or.inl rfl
  split
  · exact Or.inl rfl
  · exact Or.inl rfl
  next materials _ =>
  split
  · exact Or.inl rfl
  next data _ =>
  split
  · exact Or.inl rfl
  next repairs hrepairs =>
  split
  · exact Or.inl rfl
  next added hadded =>
  split
  · exact Or.inl rfl
  next hcomplete =>
  split
  · exact Or.inl rfl
  · refine Or.inr ⟨covered, data, _, repairs, added, hcovered, hrepairs, hadded, fun t ht => ?_, rfl⟩
    refine Decidable.byContradiction fun hmissing => hcomplete ?_
    exact List.any_eq_true.mpr ⟨t, ht, decide_eq_true hmissing⟩

/-- A splice of accepted scenes that leave nothing missing. -/
theorem repairApplied_of_splice {view : MaterialView} {scenes : List Json}
    {covered sourceRefs added : List String} {data : ModelData} {repairs : List BatchScene}
    (hcovered : coveredMaterialTypes scenes = some covered)
    (hrepairs : parseCoverageRepairOutput data sourceRefs (scenes.filterMap sceneIdOf)
      = some repairs)
    (hadded : coveredMaterialTypes (repairs.map repairedScene) = some added)
    (hall : ∀ t ∈ materialTypeOrder, view.HasSafeText t → t ∈ covered ++ added) :
    RepairApplied view scenes (spliceScenes scenes (repairs.map repairedScene)) := by
  obtain ⟨front, back, hscenes, hsplice, hlast⟩ := spliceScenes_eq scenes (repairs.map repairedScene)
  refine ⟨?_, ?_, fun last hgets hsummary => ?_, ?_⟩
  · rw [hscenes] at hcovered
    obtain ⟨first, second, hfirst, hsecond, rfl⟩ := coveredMaterialTypes_of_append hcovered
    refine ⟨first ++ added ++ second, ?_, fun t ht hsafe => ?_⟩
    · rw [hsplice]
      exact coveredMaterialTypes_append (coveredMaterialTypes_append hfirst hadded) hsecond
    · have hmem := hall t ht hsafe
      simp only [List.mem_append] at hmem ⊢
      rcases hmem with (hmem | hmem) | hmem
      · exact Or.inl (Or.inl hmem)
      · exact Or.inr hmem
      · exact Or.inl (Or.inr hmem)
  · rw [hsplice, List.append_assoc]
    nth_rewrite 1 [hscenes]
    exact (List.Sublist.refl front).append (List.sublist_append_right _ back)
  · rw [hsplice, hlast last hgets hsummary]
    exact List.getLast?_concat
  · obtain ⟨_, _, houtput⟩ := Option.bind_eq_some_iff.mp hrepairs
    obtain ⟨_, _, haccepted⟩ := Option.bind_eq_some_iff.mp houtput
    obtain ⟨hnodup, hapart⟩ := acceptRepairScenes_ids haccepted
    refine ⟨front, repairs.map repairedScene, back, repairs.map (·.sceneId), hscenes, hsplice, ?_,
      hnodup, fun id hid scene hscene hsame => ?_⟩
    · rw [List.map_map, List.map_map]
      rfl
    · obtain ⟨entry, hentry, rfl⟩ := List.mem_map.mp hid
      exact hapart entry hentry (List.mem_filterMap.mpr ⟨scene, hscene, hsame⟩)

/-- What is handed over of the materials of a snapshot. -/
theorem missingTypeMaterials_of_prepared {redact : String → String} {floatText : Json.FloatText}
    {snapshot : Option JsonFields} {view : MaterialView}
    (hview : prepareMaterials redact floatText snapshot = .ok view) (covered : List String) :
    ∃ answer, missingTypeMaterials view.sanitizedMaterial (missingTypes view covered) = .ok answer ∧
      HandsOver view (missingTypes view covered) answer := by
  obtain ⟨hsanitized, htypes⟩ := prepareMaterials_ok hview
  refine missingTypeMaterials_spec hsanitized rfl ?_ ?_
  · refine List.any_eq_false.mpr fun entry hentry => ?_
    cases snapshot with
    | none => cases hentry
    | some snapshot =>
      obtain ⟨ref, materialType, sensitive, more, rfl⟩ := sanitizedItems_entry hentry
      exact Bool.false_ne_true
  · unfold missingTypes
    rw [htypes]
    refine Nat.le_trans (List.length_filter_le _ _) ?_
    refine Nat.le_trans (List.length_filter_le _ _) ?_
    decide

/-- **The repair is all or nothing**, for the materials of any snapshot, any
scenes and any answer of the model; and for every type that is missing it has
handed the model a material, if they all have one. -/
theorem coverage_repair_all_or_nothing (redact : String → String) (floatText : Json.FloatText)
    (snapshot : Option JsonFields) (view : MaterialView) (model : CoverageModel)
    (scenes : List Json) (hview : prepareMaterials redact floatText snapshot = .ok view) :
    AllOrNothing model view scenes := by
  refine ⟨?_, fun covered _ => ?_⟩
  · rcases repairCoverageGaps_cases model view scenes with
      hsame | ⟨covered, data, sourceRefs, repairs, added, hcovered, hrepairs, hadded, hall, hscenes⟩
    · exact Or.inl hsame
    · rw [hscenes]
      exact Or.inr (repairApplied_of_splice hcovered hrepairs hadded fun t ht hsafe =>
        hall t (available_of_safe hview ht hsafe))
  · exact missingTypeMaterials_of_prepared hview covered

/-- A diary entry and a note, both with a text. -/
def twoTypes : JsonFields :=
  let item (ref type text : String) : Json :=
    .obj [("source_ref", .str ref), ("material_type", .str type),
      ("sanitized_payload", .obj [("text_digest", .str text)])]
  [("materials", .arr [item "diary:1" "diary" "雪", item "handbook_note:1" "handbook_note" "茶"])]

/-- A scene about the materials it is asked for. -/
def notedModel : CoverageModel := fun request =>
  some (.mapping [("scenes", .arr [sceneJson {
    sceneId := "r1-1"
    sceneType := .milestone
    sourceRefs := request.sourceRefs
    body := "茶" }])])

def diaryScenes : List Json :=
  [.obj [("scene_id", .str "s1-1"), ("scene_type", .str "cover"),
      ("source_refs", .arr [.str "diary:1"])],
    .obj [("scene_id", .str "s1-2"), ("scene_type", .str "summary"),
      ("source_refs", .arr [.str "diary:1"])]]

/-- The note is missing, and gets its scene before the summary. -/
theorem note_repaired : ∃ view,
    prepareMaterials id (fun _ _ => "") (some twoTypes) = .ok view ∧
      AllOrNothing notedModel view diaryScenes ∧
      (repairCoverageGaps notedModel view diaryScenes).2.map sceneIdOf
        = [some "s1-1", some "r1-1", some "s1-2"] :=
  ⟨_, rfl, coverage_repair_all_or_nothing id (fun _ _ => "") (some twoTypes) _ notedModel
    diaryScenes rfl, by decide +kernel⟩

end MemoirNodeRunner

end AgentRuntime
