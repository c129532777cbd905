import AgentRuntime.LoopBatches
import Mathlib.Data.List.Perm.Basic

/-!
# The scenes a loop ends with

A loop is `complete` with three scenes or more, a cover first and a summary
last. The executor merges the scenes of every turn by their ids, but a card
that repairs one of the two ends is put in after the last merge, under the id
the model gives it. So the scenes of a complete loop have distinct ids exactly
if the cards of its repairs have ids of their own (`finalized_shape_iff`).
-/

namespace AgentRuntime

open Keyed MemoirNodeRunner BoundedLoop

/-- The scenes of a finished loop. -/
structure FinishedScenes (scenes : List BatchScene) : Prop where
  distinct : (scenes.map (·.sceneId)).Nodup
  enough : 3 ≤ scenes.length
  cover : scenes.head?.map (·.sceneType) = some .cover
  summary : scenes.getLast?.map (·.sceneType) = some .summary

/-! ## The turns -/

theorem mergeScenes_unseen : ∀ (scenes : List BatchScene) (seen : List String),
    Unseen (·.sceneId) seen (mergeScenes seen scenes)
  | [], _ => Unseen.nil
  | scene :: scenes, seen => by
    unfold mergeScenes
    split
    · exact mergeScenes_unseen scenes seen
    next hnew => exact (mergeScenes_unseen scenes (scene.sceneId :: seen)).cons hnew

/-- A turn that does not come back adds no scenes. -/
theorem LoopCall.iterate_scenes {agentVersion : String} {c : LoopCall} {loop : MemoirLoop}
    (hfailed : (c.iterate agentVersion loop).1.isOk = false) :
    (c.iterate agentVersion loop).2.scenes = loop.scenes := by
  unfold LoopCall.iterate runLoopIteration at hfailed ⊢
  dsimp only at hfailed ⊢
  split at hfailed
  · cases hfailed
  next hleft =>
  rw [if_neg hleft]
  split at hfailed
  · cases hfailed
  next hbatch =>
  rw [if_neg hbatch]
  split at hfailed
  · rfl
  · split at hfailed
    · rfl
    · cases hfailed

/-- **Turn by turn** the scenes have distinct ids. -/
theorem nodup_afterCalls (agentVersion : String) (calls : List LoopCall) (loop : MemoirLoop)
    (h : (loop.scenes.map (·.sceneId)).Nodup) :
    ((afterCalls agentVersion loop calls).scenes.map (·.sceneId)).Nodup := by
  refine Runs.run_inv (I := fun loop : MemoirLoop => (loop.scenes.map (·.sceneId)).Nodup)
    (fun loop c h => ?_) calls loop h
  show ((c.next agentVersion loop).scenes.map (·.sceneId)).Nodup
  unfold LoopCall.next
  dsimp only
  split
  · exact (mergeScenes_unseen _ []).1
  next hfailed =>
    rw [LoopCall.iterate_scenes (Bool.eq_false_iff.mpr hfailed)]
    exact h

/-! ## The repairs -/

/-- The card the model gives for a missing end, for the batch that was kept;
none where there is no such batch, no answer, or no such card in it. -/
def repairCard (agentVersion : String) (model : LoopModel) (wantSummary : Bool)
    (loop : MemoirLoop) : Option BatchScene := do
  let target : SceneType := if wantSummary then .summary else .cover
  let kept := if wantSummary then loop.finalBatch else loop.firstBatch
  let stash ← kept
  let data ← model {
    batchIndex := nextRepairBatchIndex loop.scenes
    isFirstBatch := !wantSummary
    isFinalBatch := wantSummary
    sourceRefs := stash.batchRefs
    requiredSceneType :=
      if versionAtLeast agentVersion [1, 0, 6] then some target else none
    materials := stash.batch }
  let scenes ← parseBatchOutput agentVersion data stash.batchRefs (!wantSummary) wantSummary
  scenes.find? fun scene => decide (scene.sceneType = target)

/-- The scenes with the card in its place. -/
def withCard (wantSummary : Bool) (card : BatchScene) (scenes : List BatchScene) :
    List BatchScene :=
  if wantSummary then scenes ++ [card] else card :: scenes

/-- The gap a repair can close. -/
def StructureGap.wantsSummary : StructureGap → Option Bool
  | .sceneCountInsufficient => none
  | .coverMissing => some false
  | .summaryMissing => some true

/-- A repair puts its card in its place, if there is one. -/
theorem repairLoopStructure_cases (agentVersion : String) (model : LoopModel) (wantSummary : Bool)
    (loop : MemoirLoop) :
    (repairCard agentVersion model wantSummary loop = none ∧
        (repairLoopStructure agentVersion model wantSummary
          (nextRepairBatchIndex loop.scenes) loop).1 = false ∧
        (repairLoopStructure agentVersion model wantSummary
          (nextRepairBatchIndex loop.scenes) loop).2.scenes = loop.scenes) ∨
      ∃ card, repairCard agentVersion model wantSummary loop = some card ∧
        (repairLoopStructure agentVersion model wantSummary
          (nextRepairBatchIndex loop.scenes) loop).1 = true ∧
        (repairLoopStructure agentVersion model wantSummary
          (nextRepairBatchIndex loop.scenes) loop).2.scenes
            = withCard wantSummary card loop.scenes := by
  unfold repairCard repairLoopStructure
  dsimp only
  -- no batch was kept, no answer, no valid answer, or no card of the type in it
  cases hstash : (if wantSummary = true then loop.finalBatch else loop.firstBatch) with
  | none => exact Or.inl ⟨rfl, rfl, rfl⟩
  | some stash =>
    dsimp only [Option.bind_eq_bind, Option.bind_some]
    cases hdata : model _ with
    | none => exact Or.inl ⟨rfl, rfl, rfl⟩
    | some data =>
      dsimp only [Option.bind_some]
      cases hparsed : parseBatchOutput agentVersion data stash.batchRefs (!wantSummary)
        wantSummary with
      | none => exact Or.inl ⟨rfl, rfl, rfl⟩
      | some scenes =>
        dsimp only [Option.bind_some, Option.getD_some]
        cases hcard : scenes.find? _ with
        | none => exact Or.inl ⟨rfl, rfl, rfl⟩
        | some card => exact Or.inr ⟨card, rfl, rfl, rfl⟩

/-- The cards that the repairs of `finalize_loop` put in, at most `n`. -/
def repairCards (agentVersion : String) (model : LoopModel) : Nat → MemoirLoop → List BatchScene
  | 0, _ => []
  | n + 1, loop =>
    match (loopStructureReason loop.scenes).bind StructureGap.wantsSummary with
    | none => []
    | some wantSummary =>
      match repairCard agentVersion model wantSummary loop with
      | none => []
      | some card =>
        card :: repairCards agentVersion model n
          (repairLoopStructure agentVersion model wantSummary
            (nextRepairBatchIndex loop.scenes) loop).2

/-- The cards have ids that no scene has, and each its own. -/
def OwnIds (cards scenes : List BatchScene) : Prop :=
  (cards.map (·.sceneId)).Nodup ∧
    ∀ card ∈ cards, ∀ scene ∈ scenes, card.sceneId ≠ scene.sceneId

theorem withCard_perm (wantSummary : Bool) (card : BatchScene) (scenes : List BatchScene) :
    (withCard wantSummary card scenes).Perm (scenes ++ [card]) := by
  cases wantSummary with
  | true => exact .refl _
  | false => exact @List.perm_append_comm _ [card] scenes

section

variable {agentVersion : String} {model : LoopModel} {wantSummary : Bool} {loop : MemoirLoop}

/-- Without a card the loop is left as it is, but for the call. -/
theorem repairStructure_of_no_card {n : Nat}
    (hgap : (loopStructureReason loop.scenes).bind StructureGap.wantsSummary = some wantSummary)
    (hcard : repairCard agentVersion model wantSummary loop = none) :
    (repairStructure agentVersion model (n + 1) loop).scenes = loop.scenes := by
  rcases repairLoopStructure_cases agentVersion model wantSummary loop with
    ⟨_, hfalse, hscenes⟩ | ⟨card, hsome, _⟩
  · unfold repairStructure
    dsimp only
    rcases hpair : repairLoopStructure agentVersion model wantSummary
      (nextRepairBatchIndex loop.scenes) loop with ⟨repaired, loop'⟩
    rw [hpair] at hfalse hscenes
    cases hfalse
    cases hreason : loopStructureReason loop.scenes with
    | none => rfl
    | some gap =>
      rw [hreason] at hgap
      cases gap with
      | sceneCountInsufficient => rfl
      | coverMissing =>
        cases hgap
        dsimp only
        rw [hpair]
        exact hscenes
      | summaryMissing =>
        cases hgap
        dsimp only
        rw [hpair]
        exact hscenes
  · rw [hcard] at hsome
    cases hsome

/-- With a card the rest of the repairs look at the scenes with it. -/
theorem repairStructure_of_card {n : Nat} {card : BatchScene}
    (hgap : (loopStructureReason loop.scenes).bind StructureGap.wantsSummary = some wantSummary)
    (hcard : repairCard agentVersion model wantSummary loop = some card) :
    repairStructure agentVersion model (n + 1) loop
      = repairStructure agentVersion model n (repairLoopStructure agentVersion model wantSummary
          (nextRepairBatchIndex loop.scenes) loop).2 := by
  rcases repairLoopStructure_cases agentVersion model wantSummary loop with
    ⟨hnone, _⟩ | ⟨card', _, htrue, _⟩
  · rw [hcard] at hnone
    cases hnone
  · rw [repairStructure]
    rcases hpair : repairLoopStructure agentVersion model wantSummary
      (nextRepairBatchIndex loop.scenes) loop with ⟨repaired, loop'⟩
    rw [hpair] at htrue
    cases htrue
    cases hreason : loopStructureReason loop.scenes with
    | none =>
      rw [hreason] at hgap
      cases hgap
    | some gap =>
      rw [hreason] at hgap
      cases gap with
      | sceneCountInsufficient => cases hgap
      | coverMissing =>
        cases hgap
        dsimp only
        rw [hpair]
      | summaryMissing =>
        cases hgap
        dsimp only
        rw [hpair]

end

/-- **The repairs** put their cards among the scenes, and nothing else. -/
theorem repairStructure_perm (agentVersion : String) (model : LoopModel) :
    ∀ (n : Nat) (loop : MemoirLoop), (repairStructure agentVersion model n loop).scenes.Perm
      (loop.scenes ++ repairCards agentVersion model n loop)
  | 0, loop => .of_eq (List.append_nil _).symm
  | n + 1, loop => by
    rw [repairCards]
    split
    next hgap =>
      have hsame : repairStructure agentVersion model (n + 1) loop = loop := by
        rw [repairStructure]
        cases hreason : loopStructureReason loop.scenes with
        | none => rfl
        | some gap =>
          rw [hreason] at hgap
          cases gap with
          | sceneCountInsufficient => rfl
          | coverMissing => cases hgap
          | summaryMissing => cases hgap
      rw [hsame]
      exact .of_eq (List.append_nil _).symm
    next wantSummary hgap =>
    split
    next hcard =>
      rw [repairStructure_of_no_card hgap hcard]
      exact .of_eq (List.append_nil _).symm
    next card hcard =>
      rw [repairStructure_of_card hgap hcard]
      have hscenes : (repairLoopStructure agentVersion model wantSummary
          (nextRepairBatchIndex loop.scenes) loop).2.scenes.Perm (loop.scenes ++ [card]) := by
        rcases repairLoopStructure_cases agentVersion model wantSummary loop with
          ⟨hnone, _⟩ | ⟨card', hcard', _, hwith⟩
        · rw [hcard] at hnone
          cases hnone
        · rw [hcard] at hcard'
          cases hcard'
          rw [hwith]
          exact withCard_perm wantSummary card loop.scenes
      have hrest := repairStructure_perm agentVersion model n (repairLoopStructure agentVersion
        model wantSummary (nextRepairBatchIndex loop.scenes) loop).2
      refine hrest.trans ((hscenes.append_right _).trans (.of_eq ?_))
      rw [List.append_assoc]
      rfl

/-! ## The end -/

/-- A complete loop has its scenes in place. -/
theorem finalizeLoop_complete {agentVersion : String} {model : LoopModel} {loop : MemoirLoop}
    (hcomplete : (finalizeLoop agentVersion model loop).1.outcome = .complete) :
    (finalizeLoop agentVersion model loop).2 = repairStructure agentVersion model 2 loop ∧
      loopStructureReason (repairStructure agentVersion model 2 loop).scenes = none := by
  unfold finalizeLoop at hcomplete ⊢
  dsimp only at hcomplete ⊢
  split at hcomplete
  · cases hcomplete
  next hreason => exact ⟨rfl, hreason⟩

theorem loopStructureReason_eq_none {scenes : List BatchScene}
    (h : loopStructureReason scenes = none) :
    3 ≤ scenes.length ∧ scenes.head?.map (·.sceneType) = some .cover ∧
      scenes.getLast?.map (·.sceneType) = some .summary := by
  unfold loopStructureReason at h
  split at h
  · cases h
  next hmany =>
  split at h
  · cases h
  next hcover =>
  split at h
  · cases h
  next hsummary => exact ⟨Nat.le_of_not_lt hmany, not_not.mp hcover, not_not.mp hsummary⟩

/-- **The scenes of a complete loop**, whatever the model wrote in its turns
and repairs: three or more, a cover first and a summary last; and the ids are
distinct exactly if the cards of the repairs have their own. -/
theorem finalized_shape_iff (agentVersion : String) (sanitizedMaterial : Json)
    (calls : List LoopCall) (model : LoopModel)
    (hcomplete : (finalizeLoop agentVersion model (afterCalls agentVersion
      { materials := loopMaterialTexts sanitizedMaterial } calls)).1.outcome = .complete) :
    FinishedScenes (finalizeLoop agentVersion model (afterCalls agentVersion
        { materials := loopMaterialTexts sanitizedMaterial } calls)).2.scenes
      ↔ OwnIds (repairCards agentVersion model 2 (afterCalls agentVersion
          { materials := loopMaterialTexts sanitizedMaterial } calls))
        (afterCalls agentVersion
          { materials := loopMaterialTexts sanitizedMaterial } calls).scenes := by
  have hturns := nodup_afterCalls agentVersion calls
    { materials := loopMaterialTexts sanitizedMaterial } List.nodup_nil
  generalize afterCalls agentVersion { materials := loopMaterialTexts sanitizedMaterial } calls
    = loop at hcomplete hturns ⊢
  obtain ⟨hfinal, hreason⟩ := finalizeLoop_complete hcomplete
  obtain ⟨henough, hcover, hsummary⟩ := loopStructureReason_eq_none hreason
  rw [hfinal]
  -- where the cards stand does not matter for the ids
  have hperm := (repairStructure_perm agentVersion model 2 loop).map (·.sceneId)
  have hdistinct : ((repairStructure agentVersion model 2 loop).scenes.map (·.sceneId)).Nodup
      ↔ OwnIds (repairCards agentVersion model 2 loop) loop.scenes := by
    rw [hperm.nodup_iff, List.map_append, List.nodup_append]
    refine ⟨fun ⟨_, hcards, hapart⟩ => ⟨hcards, fun card hcard scene hscene => ?_⟩,
      fun ⟨hcards, hapart⟩ => ⟨hturns, hcards, fun id hid id' hid' => ?_⟩⟩
    · exact (hapart _ (List.mem_map.mpr ⟨scene, hscene, rfl⟩) _
        (List.mem_map.mpr ⟨card, hcard, rfl⟩)).symm
    · obtain ⟨scene, hscene, rfl⟩ := List.mem_map.mp hid
      obtain ⟨card, hcard, rfl⟩ := List.mem_map.mp hid'
      exact (hapart card hcard scene hscene).symm
  exact ⟨fun h => hdistinct.mp h.distinct, fun h => ⟨hdistinct.mpr h, henough, hcover, hsummary⟩⟩

/-- The first batch gets its scenes, the second and final one no answer. -/
def summaryLost : List LoopCall :=
  [⟨1, turnOf 8, plainModel⟩, ⟨2, turnOf 16, fun _ => none⟩]

/-- A summary under an id that the first batch has used. -/
def carelessModel : LoopModel := fun request =>
  some (.mapping [("scenes",
    .arr [sceneJson { plainScene request '1' .summary with sceneId := "s1-1" }])])

/-- A summary numbered as it was asked for. -/
theorem finished_by_repair :
    FinishedScenes (finalizeLoop "1.0.6" plainModel (afterCalls "1.0.6"
      { materials := loopMaterialTexts overLimitTail } summaryLost)).2.scenes :=
  (finalized_shape_iff "1.0.6" overLimitTail summaryLost plainModel (by decide +kernel)).mpr
    ⟨by decide +kernel, by decide +kernel⟩

/-- The repaired loop is complete, with one id twice. -/
theorem repaired_with_used_id :
    (finalizeLoop "1.0.6" carelessModel (afterCalls "1.0.6"
      { materials := loopMaterialTexts overLimitTail } summaryLost)).1.outcome = .complete ∧
    (finalizeLoop "1.0.6" carelessModel (afterCalls "1.0.6"
      { materials := loopMaterialTexts overLimitTail } summaryLost)).2.scenes.map (·.sceneId)
        = ["s1-1", "s1-2", "s1-3", "s1-1"] ∧
    ¬ FinishedScenes (finalizeLoop "1.0.6" carelessModel (afterCalls "1.0.6"
      { materials := loopMaterialTexts overLimitTail } summaryLost)).2.scenes := by
  refine ⟨by decide +kernel, by decide +kernel, fun h => ?_⟩
  have hdistinct := h.distinct
  revert hdistinct
  decide +kernel

end AgentRuntime
