import AgentRuntime.MemoirLoop

/-!
# Where the memoir's loop ends without a summary

From version 1.0.6 on a batch is accepted only if it opens with the cover
where it is the first, and closes with the summary where it is the final
one. So with a model that keeps its contract a loop never lacks the cover.
It lacks the summary exactly where batches have been cut and none of them
reaches the end of the materials: the loop calls a batch final when it is
cut, and does not see that everything behind it will be dropped, or that no
turn is left for it. No batch is kept for the repair then either.
-/

namespace AgentRuntime

open MemoirNodeRunner

/-! ## The contract of a batch -/

/-- What the id of a scene of a batch starts with. -/
def batchPrefix (batchIndex : Nat) : List Char :=
  's' :: (Nat.toDigits 10 batchIndex ++ ['-'])

/-- The scenes the prompt asks for. -/
structure SceneContract (request : BatchRequest) (scenes : List BatchScene) : Prop where
  distinct : (scenes.map (·.sceneId)).Nodup
  numbered : ∀ scene ∈ scenes, batchPrefix request.batchIndex <+: scene.sceneId.toList
  refs : ∀ scene ∈ scenes, scene.sourceRefs ≠ [] ∧ ∀ ref ∈ scene.sourceRefs, ref ∈ request.sourceRefs
  body : ∀ scene ∈ scenes, isBlank scene.body = false
  title : ∀ scene ∈ scenes, ∀ word ∈ scene.titleWord, word ≠ "" ∧ word.length ≤ 6
  cover_first : request.isFirstBatch = true → scenes.head?.map (·.sceneType) = some .cover
  cover_only : ∀ (i : Nat) (scene : BatchScene), scenes[i]? = some scene →
    scene.sceneType = .cover → request.isFirstBatch = true ∧ i = 0
  summary_last : request.isFinalBatch = true → scenes.getLast?.map (·.sceneType) = some .summary
  summary_only : ∀ (i : Nat) (scene : BatchScene), scenes[i]? = some scene →
    scene.sceneType = .summary → request.isFinalBatch = true ∧ i + 1 = scenes.length
  required : ∀ sceneType ∈ request.requiredSceneType, scenes.map (·.sceneType) = [sceneType]

/-- The model call succeeds, with scenes of the form that is asked for. -/
def Answers (model : LoopModel) (request : BatchRequest) (scenes : List BatchScene) : Prop :=
  ∃ data value, model request = some data ∧ data.value = some value ∧
    sceneBatchPlanOutput value = some scenes

/-- The model call succeeds with an output that keeps the contract. -/
def Honours (model : LoopModel) (request : BatchRequest) : Prop :=
  ∃ scenes, Answers model request scenes ∧ SceneContract request scenes

/-- Every model call the loop has made did. -/
def WellBehaved (model : LoopModel) (loop : MemoirLoop) : Prop :=
  ∀ request ∈ loop.requests, Honours model request

/-- The scene as the state keeps it. -/
def BatchScene.entry (scene : BatchScene) : BatchScene :=
  { scene with sourceRefs := scene.sourceRefs.eraseDups }

@[simp] theorem BatchScene.entry_sceneType (scene : BatchScene) :
    scene.entry.sceneType = scene.sceneType := rfl

@[simp] theorem BatchScene.entry_sceneId (scene : BatchScene) :
    scene.entry.sceneId = scene.sceneId := rfl

/-- The parser takes the scenes of the contract from a position on. -/
theorem acceptScenes_of_contract {request : BatchRequest} {scenes : List BatchScene}
    (h : SceneContract request scenes) :
    ∀ (before rest : List BatchScene), scenes = before ++ rest →
      acceptScenes request.sourceRefs request.isFirstBatch request.isFinalBatch scenes.length
        before.length rest = some (rest.map BatchScene.entry)
  | _, [], _ => rfl
  | before, scene :: rest, hsplit => by
    have hmem : scene ∈ scenes := by rw [hsplit]; simp
    have hat : scenes[before.length]? = some scene := by rw [hsplit]; simp
    have hrefs := h.refs scene hmem
    have hrest := acceptScenes_of_contract h (before ++ [scene]) rest (by rw [hsplit]; simp)
    rw [List.length_append, List.length_singleton] at hrest
    have hscene : acceptScene request.sourceRefs request.isFirstBatch request.isFinalBatch
        scenes.length before.length scene = some scene.entry := by
      unfold acceptScene semanticErrorCodes
      rw [if_neg, if_neg, if_neg, if_neg, if_neg]
      · rfl
      · rintro ⟨word, hword, hbad⟩
        obtain ⟨hne, hlen⟩ := h.title scene hmem word hword
        rcases hbad with rfl | hlong
        · exact hne rfl
        · omega
      · rintro ⟨htype, hbad⟩
        obtain ⟨hfinal, hlast⟩ := h.summary_only _ scene hat htype
        rcases hbad with hnot | hpos
        · exact absurd (hnot.symm.trans hfinal) Bool.false_ne_true
        · exact hpos hlast
      · rintro ⟨htype, hbad⟩
        obtain ⟨hfirst, hzero⟩ := h.cover_only _ scene hat htype
        rcases hbad with hnot | hpos
        · exact absurd (hnot.symm.trans hfirst) Bool.false_ne_true
        · exact hpos hzero
      · rintro (hnil | hblank)
        · exact hrefs.1 hnil
        · exact absurd ((h.body scene hmem).symm.trans hblank) Bool.false_ne_true
      · rw [if_pos (List.all_eq_true.mpr fun ref href => decide_eq_true (hrefs.2 ref href))]
        exact fun hne => hne rfl
    rw [acceptScenes, hscene, hrest]
    rfl

/-- What keeps the contract is accepted as it is. -/
theorem parseBatchOutput_of_contract (agentVersion : String) {request : BatchRequest}
    {data : ModelData} {value : Json} {scenes : List BatchScene} (hvalue : data.value = some value)
    (houtput : sceneBatchPlanOutput value = some scenes) (h : SceneContract request scenes) :
    parseBatchOutput agentVersion data request.sourceRefs request.isFirstBatch
      request.isFinalBatch = some (scenes.map BatchScene.entry) := by
  have haccept := acceptScenes_of_contract h [] scenes rfl
  have hhead : ((scenes.map BatchScene.entry).head?.map (·.sceneType))
      = scenes.head?.map (·.sceneType) := by
    rw [List.head?_map, Option.map_map]
    rfl
  have hlast : ((scenes.map BatchScene.entry).getLast?.map (·.sceneType))
      = scenes.getLast?.map (·.sceneType) := by
    rw [List.getLast?_map, Option.map_map]
    rfl
  unfold parseBatchOutput
  rw [hvalue]
  show (sceneBatchPlanOutput value >>= _) = _
  rw [houtput]
  show (acceptScenes _ _ _ _ 0 scenes >>= _) = _
  rw [show acceptScenes request.sourceRefs request.isFirstBatch request.isFinalBatch scenes.length
    0 scenes = some (scenes.map BatchScene.entry) from haccept]
  refine if_neg ?_
  rintro ⟨-, ⟨hfirst, hne⟩ | ⟨hfinal, hne⟩⟩
  · exact hne (hhead.trans (h.cover_first hfirst))
  · exact hne (hlast.trans (h.summary_last hfinal))

/-! ## Scenes of different batches -/

/-- The prefix of an id gives the number of its batch. -/
theorem batchPrefix_inj {m n : Nat} {id : List Char} (hm : batchPrefix m <+: id)
    (hn : batchPrefix n <+: id) : m = n := by
  have digits (k : Nat) (h : batchPrefix k <+: id) :
      id.tail.takeWhile (fun c => decide (c ≠ '-')) = Nat.toDigits 10 k := by
    obtain ⟨rest, rfl⟩ := h
    have hall : ∀ c ∈ Nat.toDigits 10 k, decide (c ≠ '-') = true := fun c hc => by
      have hdigit := Nat.isDigit_of_mem_toDigits (by omega) (by omega) hc
      refine decide_eq_true fun heq => ?_
      rw [heq] at hdigit
      exact absurd hdigit (by decide)
    rw [batchPrefix, List.cons_append, List.tail_cons, List.append_assoc,
      List.takeWhile_append_of_pos hall]
    simp
  have hdigits : Nat.toDigits 10 m = Nat.toDigits 10 n := (digits m hm).symm.trans (digits n hn)
  rw [← Nat.ofDigitChars_ten_toDigits (n := m), hdigits, Nat.ofDigitChars_ten_toDigits]

/-- The scenes collected before turn `index`: no two have one id, each comes
from an earlier turn, and a cover is first. -/
structure Collected (index : Nat) (scenes : List BatchScene) : Prop where
  distinct : (scenes.map (·.sceneId)).Nodup
  numbered : ∀ scene ∈ scenes, ∃ k < index, batchPrefix k <+: scene.sceneId.toList
  covered : ∀ scene ∈ scenes.head?, scene.sceneType = .cover

theorem collected_nil (index : Nat) : Collected index [] :=
  ⟨List.nodup_nil, fun _ h => absurd h List.not_mem_nil, fun _ h => (nomatch h)⟩

theorem Collected.mono {index index' : Nat} {scenes : List BatchScene} (h : Collected index scenes)
    (hle : index ≤ index') : Collected index' scenes :=
  ⟨h.distinct, fun scene hscene =>
    let ⟨k, hk, hpre⟩ := h.numbered scene hscene
    ⟨k, Nat.lt_of_lt_of_le hk hle, hpre⟩, h.covered⟩

/-- A batch joins the scenes collected. -/
theorem Collected.append {request : BatchRequest} {scenes added : List BatchScene}
    (h : Collected request.batchIndex scenes) (hcontract : SceneContract request added)
    (hfirst : request.isFirstBatch = scenes.isEmpty) :
    Collected (request.batchIndex + 1) (scenes ++ added.map BatchScene.entry) where
  distinct := by
    rw [List.map_append, List.map_map]
    refine List.nodup_append.mpr ⟨h.distinct, hcontract.distinct, ?_⟩
    intro a ha b hb heq
    obtain ⟨scene, hscene, rfl⟩ := List.mem_map.mp ha
    obtain ⟨scene', hscene', rfl⟩ := List.mem_map.mp hb
    obtain ⟨k, hk, hpre⟩ := h.numbered scene hscene
    have hpre' := hcontract.numbered scene' hscene'
    rw [show scene.sceneId = scene'.sceneId from heq] at hpre
    exact absurd (batchPrefix_inj hpre hpre') (Nat.ne_of_lt hk)
  numbered := by
    intro scene hscene
    rcases List.mem_append.mp hscene with hold | hnew
    · obtain ⟨k, hk, hpre⟩ := h.numbered scene hold
      exact ⟨k, Nat.lt_succ_of_lt hk, hpre⟩
    · obtain ⟨scene', hscene', rfl⟩ := List.mem_map.mp hnew
      exact ⟨request.batchIndex, Nat.lt_succ_self _, hcontract.numbered scene' hscene'⟩
  covered := by
    cases scenes with
    | cons scene rest => exact h.covered
    | nil =>
      intro scene hscene
      have hcover := hcontract.cover_first hfirst
      rw [List.nil_append, List.head?_map] at hscene
      obtain ⟨scene', hscene', rfl⟩ := Option.mem_map.mp hscene
      rw [Option.mem_def.mp hscene'] at hcover
      exact Option.some.inj hcover

/-- There is nothing to merge in scenes with distinct ids. -/
theorem mergeScenes_of_nodup : ∀ (seen : List String) (scenes : List BatchScene),
    (scenes.map (·.sceneId)).Nodup → (∀ scene ∈ scenes, scene.sceneId ∉ seen) →
    BoundedLoop.mergeScenes seen scenes = scenes
  | _, [], _, _ => rfl
  | seen, scene :: scenes, hnodup, hnew => by
    rw [List.map_cons, List.nodup_cons] at hnodup
    rw [BoundedLoop.mergeScenes, if_neg (hnew scene List.mem_cons_self)]
    refine congrArg (scene :: ·) (mergeScenes_of_nodup _ scenes hnodup.2 fun other hother => ?_)
    rw [List.mem_cons, not_or]
    refine ⟨fun heq => hnodup.1 ?_, hnew other (List.mem_cons_of_mem _ hother)⟩
    exact List.mem_map.mpr ⟨other, hother, heq⟩

theorem Collected.merge {index : Nat} {scenes : List BatchScene} (h : Collected index scenes) :
    BoundedLoop.mergeScenes [] scenes = scenes :=
  mergeScenes_of_nodup [] scenes h.distinct fun _ _ => List.not_mem_nil

/-! ## The batches of a loop -/

/-- The tokens a batch may have in a turn. -/
def LoopTurn.cap (turn : LoopTurn) : Int :=
  loopBatchTokenCap turn.window turn.budget.remainingTokens

/-- The batches cut from the materials behind the cursor, turn after turn. -/
def cutBatches (materials : List LoopMaterial) : Nat → List Int → List BatchScan
  | _, [] => []
  | cursor, cap :: caps =>
    if materials.length ≤ cursor then []
    else
      let scan := nextBatch materials cap cursor
      if scan.batch = [] then cutBatches materials scan.candidateCursor caps
      else scan :: cutBatches materials scan.candidateCursor caps

/-- No batch is cut, or one of them reaches the end of the materials. -/
def BatchesReachEnd (materials : List LoopMaterial) (caps : List Int) : Prop :=
  cutBatches materials 0 caps = [] ∨
    ∃ scan ∈ cutBatches materials 0 caps, materials.length ≤ scan.candidateCursor

section

variable (agentVersion : String) (model : LoopModel)

/-- A turn makes a call for the batch it cuts, and no other. -/
theorem requests_runLoopIteration (turn : LoopTurn) (index : Nat) (loop : MemoirLoop) :
    (runLoopIteration agentVersion model turn.window index turn.budget loop).2.requests =
      loop.requests ++
        if loop.materials.length ≤ loop.cursor ∨
          (nextBatch loop.materials turn.cap loop.cursor).batch = [] then []
        else [batchRequest index loop (nextBatch loop.materials turn.cap loop.cursor)] := by
  unfold LoopTurn.cap
  unfold runLoopIteration
  dsimp only
  by_cases hcursor : loop.materials.length ≤ loop.cursor
  · rw [if_pos hcursor, if_pos (Or.inl hcursor), List.append_nil]
  rw [if_neg hcursor]
  by_cases hbatch : (nextBatch loop.materials
    (loopBatchTokenCap turn.window turn.budget.remainingTokens) loop.cursor).batch = []
  · rw [if_pos hbatch, if_pos (Or.inr hbatch), List.append_nil]
  rw [if_neg hbatch, if_neg (not_or.mpr ⟨hcursor, hbatch⟩)]
  split
  · rfl
  · split <;> rfl

theorem requests_runLoopTurns_cons (turn : LoopTurn) (turns : List LoopTurn) (index : Nat)
    (loop : MemoirLoop)
    (hrest : ∀ loop' : MemoirLoop,
      loop'.requests <+: (runLoopTurns agentVersion model (index + 1) turns loop').requests) :
    (runLoopIteration agentVersion model turn.window index turn.budget loop).2.requests <+:
      (runLoopTurns agentVersion model index (turn :: turns) loop).requests := by
  rw [runLoopTurns]
  rcases runLoopIteration agentVersion model turn.window index turn.budget loop with
    ⟨result, loop'⟩
  cases result with
  | error code => exact hrest loop'
  | ok result =>
    dsimp only
    split
    · exact hrest { loop' with scenes := BoundedLoop.mergeScenes [] loop'.scenes }
    · exact List.prefix_rfl

theorem requests_runLoopTurns : ∀ (turns : List LoopTurn) (index : Nat) (loop : MemoirLoop),
    loop.requests <+: (runLoopTurns agentVersion model index turns loop).requests
  | [], _, _ => List.prefix_rfl
  | turn :: turns, index, loop => by
    refine List.IsPrefix.trans ?_ (requests_runLoopTurns_cons agentVersion model turn turns index
      loop (requests_runLoopTurns turns (index + 1)))
    rw [requests_runLoopIteration]
    exact List.prefix_append _ _

theorem requests_repairLoopStructure (wantSummary : Bool) (index : Nat) (loop : MemoirLoop) :
    loop.requests <+:
      (repairLoopStructure agentVersion model wantSummary index loop).2.requests := by
  unfold repairLoopStructure
  dsimp only
  split
  · exact List.prefix_rfl
  · split
    · exact List.prefix_append _ _
    · split
      · exact List.prefix_append _ _
      · exact List.prefix_append _ _

theorem requests_repairStructure : ∀ (n : Nat) (loop : MemoirLoop),
    loop.requests <+: (repairStructure agentVersion model n loop).requests
  | 0, _ => List.prefix_rfl
  | n + 1, loop => by
    have repaired {wantSummary closed : Bool} {loop' : MemoirLoop}
        (hrun : repairLoopStructure agentVersion model wantSummary
          (nextRepairBatchIndex loop.scenes) loop = (closed, loop')) :
        loop.requests <+: loop'.requests := by
      have hrepair := requests_repairLoopStructure agentVersion model wantSummary
        (nextRepairBatchIndex loop.scenes) loop
      rw [hrun] at hrepair
      exact hrepair
    rw [repairStructure]
    split
    · dsimp only
      split
      next hrun => exact repaired hrun
      next hrun => exact (repaired hrun).trans (requests_repairStructure n _)
    · dsimp only
      split
      next hrun => exact repaired hrun
      next hrun => exact (repaired hrun).trans (requests_repairStructure n _)
    · exact List.prefix_rfl

theorem requests_finalizeLoop (loop : MemoirLoop) :
    loop.requests <+: (finalizeLoop agentVersion model loop).2.requests := by
  unfold finalizeLoop
  dsimp only
  split
  · exact requests_repairStructure agentVersion model 2 loop
  · exact requests_repairStructure agentVersion model 2 loop

end

theorem WellBehaved.of_prefix {model : LoopModel} {loop loop' : MemoirLoop}
    (h : WellBehaved model loop') (hle : loop.requests <+: loop'.requests) :
    WellBehaved model loop :=
  fun request hrequest => h request (hle.subset hrequest)

/-! ## One turn -/

section

variable {model : LoopModel} {turn : LoopTurn} {index : Nat} {loop : MemoirLoop}

theorem runLoopIteration_of_exhausted {agentVersion : String}
    (h : loop.materials.length ≤ loop.cursor) :
    runLoopIteration agentVersion model turn.window index turn.budget loop =
      (.ok { outcome := .complete, reasonCode := some "LOOP_MATERIALS_EXHAUSTED" }, loop) :=
  if_pos h

theorem runLoopIteration_of_dropped {agentVersion : String}
    (hcursor : loop.cursor < loop.materials.length)
    (hbatch : (nextBatch loop.materials turn.cap loop.cursor).batch = []) :
    runLoopIteration agentVersion model turn.window index turn.budget loop =
      (.ok { outcome := .goesOn, reasonCode := some "LOOP_BATCH_ALL_OVER_LIMIT" },
        { loop with
          cursor := (nextBatch loop.materials turn.cap loop.cursor).candidateCursor }) := by
  unfold runLoopIteration
  rw [if_neg (Nat.not_le_of_lt hcursor)]
  exact if_pos hbatch

/-- The loop after a batch whose scenes have been accepted. -/
def batchDone (index : Nat) (loop : MemoirLoop) (scan : BatchScan) (scenes : List BatchScene) :
    MemoirLoop :=
  let request := batchRequest index loop scan
  let stash : LoopBatch := ⟨index, scan.batch, request.sourceRefs⟩
  { loop with
    cursor := scan.candidateCursor
    firstBatch := if request.isFirstBatch then some stash else loop.firstBatch
    finalBatch := if request.isFinalBatch then some stash else loop.finalBatch
    scenes := loop.scenes ++ scenes.map BatchScene.entry
    requests := loop.requests ++ [request] }

/-- A batch whose call is answered by the contract is added, and closes the
loop where it is the final one. -/
theorem runLoopIteration_of_honoured (agentVersion : String)
    (hcursor : loop.cursor < loop.materials.length)
    (hbatch : (nextBatch loop.materials turn.cap loop.cursor).batch ≠ [])
    (h : Honours model (batchRequest index loop (nextBatch loop.materials turn.cap loop.cursor))) :
    ∃ scenes,
      Answers model (batchRequest index loop (nextBatch loop.materials turn.cap loop.cursor))
        scenes ∧
      SceneContract (batchRequest index loop (nextBatch loop.materials turn.cap loop.cursor))
        scenes ∧
      runLoopIteration agentVersion model turn.window index turn.budget loop =
        (.ok (batchResult (decide (loop.materials.length ≤
            (nextBatch loop.materials turn.cap loop.cursor).candidateCursor))
          (scenes.map BatchScene.entry)),
          batchDone index loop (nextBatch loop.materials turn.cap loop.cursor) scenes) := by
  obtain ⟨scenes, ⟨data, value, hdata, hvalue, houtput⟩, hcontract⟩ := h
  have hparse := parseBatchOutput_of_contract agentVersion hvalue houtput hcontract
  refine ⟨scenes, ⟨data, value, hdata, hvalue, houtput⟩, hcontract, ?_⟩
  unfold LoopTurn.cap at hbatch hdata hparse ⊢
  unfold runLoopIteration
  dsimp only
  rw [if_neg (Nat.not_le_of_lt hcursor), if_neg hbatch, hdata]
  dsimp only
  rw [hparse]
  rfl

end

/-! ## All turns -/

/-- What a loop has come to, the batches being the ones it has cut since. -/
structure Ends (model : LoopModel) (loop final : MemoirLoop) (batches : List BatchScan) : Prop where
  covered : ∀ scene ∈ final.scenes.head?, scene.sceneType = .cover
  grown : loop.scenes <+: final.scenes
  idle : batches = [] → final.scenes = loop.scenes
  /-- The scenes begin with what the model answers for the first batch. -/
  opened : batches ≠ [] → loop.scenes = [] → ∃ request scenes, request.isFirstBatch = true ∧
    Answers model request scenes ∧ scenes.map BatchScene.entry <+: final.scenes
  /-- A batch that reaches the end closes the scenes with the summary. -/
  closed : (∃ scan ∈ batches, loop.materials.length ≤ scan.candidateCursor) →
    final.scenes.getLast?.map (·.sceneType) = some .summary
  /-- Without one there is no summary, and nothing to repair it with. -/
  unclosed : (∀ scan ∈ batches, scan.candidateCursor < loop.materials.length) →
    final.finalBatch = loop.finalBatch ∧
      ((∀ scene ∈ loop.scenes, scene.sceneType ≠ .summary) →
        ∀ scene ∈ final.scenes, scene.sceneType ≠ .summary)

theorem Ends.of_idle {model : LoopModel} {loop final : MemoirLoop} (hscenes : final.scenes = loop.scenes)
    (hfinal : final.finalBatch = loop.finalBatch)
    (hcovered : ∀ scene ∈ loop.scenes.head?, scene.sceneType = .cover) : Ends model loop final [] where
  covered := by rw [hscenes]; exact hcovered
  grown := ⟨[], by rw [List.append_nil, hscenes]⟩
  idle := fun _ => hscenes
  opened := fun h => absurd rfl h
  closed := fun ⟨_, hscan, _⟩ => absurd hscan List.not_mem_nil
  unclosed := fun _ => ⟨hfinal, by rw [hscenes]; exact id⟩

theorem cutBatches_of_exhausted {materials : List LoopMaterial} {cursor : Nat}
    (h : materials.length ≤ cursor) : ∀ caps : List Int, cutBatches materials cursor caps = []
  | [] => rfl
  | _ :: _ => if_pos h

/-- The last scene is the last one of a batch that has one. -/
theorem getLast?_append_entry {scenes added : List BatchScene} {sceneType : SceneType}
    (h : added.getLast?.map (·.sceneType) = some sceneType) :
    (scenes ++ added.map BatchScene.entry).getLast?.map (·.sceneType) = some sceneType := by
  obtain ⟨last, hlast, rfl⟩ := Option.map_eq_some_iff.mp h
  rw [List.getLast?_append, List.getLast?_map, hlast]
  rfl

theorem ends_of_turns (agentVersion : String) (model : LoopModel) :
    ∀ (turns : List LoopTurn) (index : Nat) (loop : MemoirLoop), Collected index loop.scenes →
      WellBehaved model (runLoopTurns agentVersion model index turns loop) →
      Ends model loop (runLoopTurns agentVersion model index turns loop)
        (cutBatches loop.materials loop.cursor (turns.map LoopTurn.cap))
  | [], _, loop, hcollected, _ => Ends.of_idle rfl rfl hcollected.covered
  | turn :: turns, index, loop, hcollected, hbehaved => by
    rw [List.map_cons, cutBatches]
    by_cases hexhausted : loop.materials.length ≤ loop.cursor
    · -- the cursor has run past the last batch: the body is done
      rw [if_pos hexhausted]
      have hrun : runLoopTurns agentVersion model index (turn :: turns) loop = loop := by
        rw [runLoopTurns, runLoopIteration_of_exhausted hexhausted]
        show { loop with scenes := BoundedLoop.mergeScenes [] loop.scenes } = loop
        rw [hcollected.merge]
      rw [hrun]
      exact Ends.of_idle rfl rfl hcollected.covered
    rw [if_neg hexhausted]
    have hcursor : loop.cursor < loop.materials.length := Nat.lt_of_not_le hexhausted
    by_cases hbatch : (nextBatch loop.materials turn.cap loop.cursor).batch = []
    · -- everything the turn looked at has been dropped
      have hrun : runLoopTurns agentVersion model index (turn :: turns) loop =
          runLoopTurns agentVersion model (index + 1) turns { loop with
            cursor := (nextBatch loop.materials turn.cap loop.cursor).candidateCursor } := by
        rw [runLoopTurns, runLoopIteration_of_dropped hcursor hbatch]
        show runLoopTurns agentVersion model (index + 1) turns { loop with
          cursor := (nextBatch loop.materials turn.cap loop.cursor).candidateCursor
          scenes := BoundedLoop.mergeScenes [] loop.scenes } = _
        rw [hcollected.merge]
      rw [hrun] at hbehaved ⊢
      dsimp only
      rw [if_pos hbatch]
      have hrest := ends_of_turns agentVersion model turns (index + 1)
        { loop with cursor := (nextBatch loop.materials turn.cap loop.cursor).candidateCursor }
        (hcollected.mono (Nat.le_succ index)) hbehaved
      exact ⟨hrest.covered, hrest.grown, hrest.idle, hrest.opened, hrest.closed, hrest.unclosed⟩
    · -- a batch: its call is among those the hypothesis is about
      have hmade := requests_runLoopTurns_cons agentVersion model turn turns index loop
        (requests_runLoopTurns agentVersion model turns (index + 1))
      rw [requests_runLoopIteration, if_neg (not_or.mpr ⟨hexhausted, hbatch⟩)] at hmade
      have hhonours := hbehaved _ (hmade.subset (List.mem_append_right _ List.mem_cons_self))
      obtain ⟨scenes, hanswers, hcontract, hturn⟩ :=
        runLoopIteration_of_honoured agentVersion hcursor hbatch hhonours
      dsimp only
      rw [if_neg hbatch]
      rw [runLoopTurns, hturn] at hbehaved ⊢
      generalize nextBatch loop.materials turn.cap loop.cursor = scan
        at hanswers hcontract hbehaved ⊢
      have hcollected' : Collected (index + 1) (loop.scenes ++ scenes.map BatchScene.entry) :=
        Collected.append hcollected hcontract rfl
      have hmerge : { batchDone index loop scan scenes with
          scenes := BoundedLoop.mergeScenes [] (batchDone index loop scan scenes).scenes }
          = batchDone index loop scan scenes := by
        show MemoirLoop.mk _ _ _ _ (BoundedLoop.mergeScenes []
          (loop.scenes ++ scenes.map BatchScene.entry)) _ = _
        rw [hcollected'.merge]
        rfl
      dsimp only at hbehaved ⊢
      rw [hmerge] at hbehaved ⊢
      have hfirst (hnil : loop.scenes = []) :
          scenes.map BatchScene.entry = (batchDone index loop scan scenes).scenes := by
        show _ = loop.scenes ++ scenes.map BatchScene.entry
        rw [hnil, List.nil_append]
      by_cases hfinal : loop.materials.length ≤ scan.candidateCursor
      · have houtcome : (batchResult (decide (loop.materials.length ≤ scan.candidateCursor))
            (scenes.map BatchScene.entry)).outcome ≠ .goesOn := by
          simp [batchResult, hfinal]
        rw [if_neg houtcome, cutBatches_of_exhausted hfinal]
        refine ⟨hcollected'.covered, List.prefix_append _ _, fun h => (nomatch h),
          fun _ hnil => ⟨_, scenes, ?_, hanswers, ?_⟩, fun _ => ?_, fun h => ?_⟩
        · exact List.isEmpty_iff.mpr hnil
        · exact ⟨[], by rw [List.append_nil, hfirst hnil]⟩
        · exact getLast?_append_entry (hcontract.summary_last (decide_eq_true hfinal))
        · exact absurd (h scan List.mem_cons_self) (Nat.not_lt_of_le hfinal)
      · have houtcome : (batchResult (decide (loop.materials.length ≤ scan.candidateCursor))
            (scenes.map BatchScene.entry)).outcome = .goesOn := by
          simp [batchResult, hfinal]
        rw [if_pos houtcome] at hbehaved ⊢
        have hrest := ends_of_turns agentVersion model turns (index + 1)
          (batchDone index loop scan scenes) hcollected' hbehaved
        refine ⟨hrest.covered, (List.prefix_append _ _).trans hrest.grown, fun h => (nomatch h),
          fun _ hnil => ⟨_, scenes, ?_, hanswers, ?_⟩, ?_, fun hopen => ?_⟩
        · exact List.isEmpty_iff.mpr hnil
        · rw [hfirst hnil]; exact hrest.grown
        · rintro ⟨other, hother, hend⟩
          rcases List.mem_cons.mp hother with rfl | hlater
          · exact absurd hend hfinal
          · exact hrest.closed ⟨other, hlater, hend⟩
        · obtain ⟨hstash, hsummary⟩ :=
            hrest.unclosed fun other hother => hopen other (List.mem_cons_of_mem _ hother)
          refine ⟨hstash.trans (if_neg (by simp [batchRequest, hfinal])), fun hnone => ?_⟩
          refine hsummary fun scene hscene => ?_
          rcases List.mem_append.mp hscene with hold | hnew
          · exact hnone scene hold
          · obtain ⟨scene', hscene', rfl⟩ := List.mem_map.mp hnew
            obtain ⟨i, hi⟩ := List.mem_iff_getElem?.mp hscene'
            intro htype
            exact absurd (hcontract.summary_only i scene' hi htype).1 (by simp [batchRequest, hfinal])

/-! ## The end -/

/-- `finalize_loop` fails for the missing cover or the missing summary. -/
def MissesEnd (result : LoopIterationResult) : Prop :=
  result.outcome = .failed ∧ (result.reasonCode = some StructureGap.coverMissing.code ∨
    result.reasonCode = some StructureGap.summaryMissing.code)

/-- Scenes with both ends in place are not repaired, and nothing is missing at
their ends. -/
theorem not_missesEnd {agentVersion : String} {model : LoopModel} {loop : MemoirLoop}
    (hcover : loopStructureReason loop.scenes ≠ some .coverMissing)
    (hsummary : loopStructureReason loop.scenes ≠ some .summaryMissing) :
    ¬ MissesEnd (finalizeLoop agentVersion model loop).1 := by
  have hsame : repairStructure agentVersion model 2 loop = loop := by
    rw [repairStructure]
    split
    next h => exact absurd h hcover
    next h => exact absurd h hsummary
    next => rfl
  unfold finalizeLoop
  rw [hsame]
  dsimp only
  rcases hreason : loopStructureReason loop.scenes with _ | gap
  · rintro ⟨houtcome, -⟩
    cases houtcome
  · cases gap with
    | sceneCountInsufficient => simp [MissesEnd, StructureGap.code]
    | coverMissing => exact absurd hreason hcover
    | summaryMissing => exact absurd hreason hsummary

/-- A missing summary stays missing where no final batch has been kept. -/
theorem missesEnd_of_unclosed {agentVersion : String} {model : LoopModel} {loop : MemoirLoop}
    (hreason : loopStructureReason loop.scenes = some .summaryMissing)
    (hfinal : loop.finalBatch = none) :
    MissesEnd (finalizeLoop agentVersion model loop).1 ∧
      (finalizeLoop agentVersion model loop).2 = loop := by
  have hrepair (n : Nat) : repairLoopStructure agentVersion model true n loop = (false, loop) := by
    unfold repairLoopStructure
    rw [hfinal]
    rfl
  have hsame : repairStructure agentVersion model 2 loop = loop := by
    rw [repairStructure, hreason]
    dsimp only
    rw [hrepair]
  unfold finalizeLoop
  rw [hsame]
  dsimp only
  rw [hreason]
  exact ⟨⟨rfl, Or.inr rfl⟩, rfl⟩

theorem loopStructureReason_ne_cover {scenes : List BatchScene}
    (h : ∀ scene ∈ scenes.head?, scene.sceneType = .cover) :
    loopStructureReason scenes ≠ some .coverMissing := by
  unfold loopStructureReason
  cases scenes with
  | nil => simp
  | cons scene rest =>
    have hcover : scene.sceneType = .cover := h scene rfl
    rw [List.head?_cons, Option.map_some, hcover]
    intro hreason
    split at hreason
    · cases hreason
    · split at hreason
      next hne => exact hne rfl
      next => split at hreason <;> cases hreason

theorem loopStructureReason_ne_summary {scenes : List BatchScene}
    (h : scenes = [] ∨ scenes.getLast?.map (·.sceneType) = some .summary) :
    loopStructureReason scenes ≠ some .summaryMissing := by
  unfold loopStructureReason
  intro hreason
  split at hreason
  · cases hreason
  next hmany =>
    split at hreason
    · cases hreason
    · split at hreason
      next hne =>
        rcases h with rfl | hlast
        · exact hmany (by decide)
        · exact hne hlast
      next => cases hreason

theorem loopStructureReason_of_unclosed {scenes : List BatchScene} (hmany : 3 ≤ scenes.length)
    (hcover : ∀ scene ∈ scenes.head?, scene.sceneType = .cover)
    (hsummary : ∀ scene ∈ scenes, scene.sceneType ≠ .summary) :
    loopStructureReason scenes = some .summaryMissing := by
  unfold loopStructureReason
  cases scenes with
  | nil => exact absurd hmany (by decide)
  | cons scene rest =>
    rw [if_neg (Nat.not_lt_of_le hmany), if_neg, if_pos]
    · intro hlast
      obtain ⟨last, hmem, htype⟩ := Option.map_eq_some_iff.mp hlast
      exact hsummary last (List.mem_of_getLast? hmem) htype
    · rw [List.head?_cons, Option.map_some, hcover scene rfl]
      exact fun hne => hne rfl

/-! ## A model that says little -/

def sceneTypeCode : SceneType → String
  | .summary => "summary"
  | .cover => "cover"
  | .stats => "stats"
  | .diaryHighlight => "diary_highlight"
  | .betHighlight => "bet_highlight"
  | .milestone => "milestone"

/-- A scene about all of the batch. -/
def plainScene (request : BatchRequest) (n : Char) (sceneType : SceneType) : BatchScene where
  sceneId := String.ofList (batchPrefix request.batchIndex ++ [n])
  sceneType := sceneType
  sourceRefs := request.sourceRefs
  body := "那年春天"

def plainScenes (request : BatchRequest) : List BatchScene :=
  (if request.isFirstBatch then
    [plainScene request '1' .cover, plainScene request '2' .diaryHighlight] else []) ++
  plainScene request '3' .diaryHighlight ::
  (if request.isFinalBatch then [plainScene request '4' .summary] else [])

/-- A scene as the model writes it, without a title. -/
def sceneFields (scene : BatchScene) : List (String × Json) :=
  [("scene_id", .str scene.sceneId), ("scene_type", .str (sceneTypeCode scene.sceneType)),
    ("source_refs", .arr (scene.sourceRefs.map .str)), ("body", .str scene.body)]

def sceneJson (scene : BatchScene) : Json :=
  .obj (sceneFields scene)

def plainModel : LoopModel := fun request =>
  some (.mapping [("scenes", .arr ((plainScenes request).map sceneJson))])

theorem batchSceneOutput_sceneJson {scene : BatchScene} (h : scene.titleWord = none) :
    batchSceneOutput (sceneJson scene) = some scene := by
  have htype : sceneTypeOf (sceneTypeCode scene.sceneType) = some scene.sceneType := by
    cases scene.sceneType <;> rfl
  have hid : (Json.get? "scene_id" (sceneFields scene)).bind Json.str? = some scene.sceneId := rfl
  have hcode : ((Json.get? "scene_type" (sceneFields scene)).bind Json.str?).bind sceneTypeOf
      = some scene.sceneType := htype
  have hrefs : stringList (Json.get? "source_refs" (sceneFields scene)) = some scene.sourceRefs :=
    mapM_str? scene.sourceRefs
  have hbody : (Json.get? "body" (sceneFields scene)).bind Json.str? = some scene.body := rfl
  have hword : optionalString (Json.get? "title_word" (sceneFields scene)) = some scene.titleWord :=
    congrArg some h.symm
  unfold sceneJson batchSceneOutput
  dsimp only
  rw [if_pos (show (sceneFields scene).all _ = true from rfl), hid, hcode, hrefs, hbody, hword]
  rfl

theorem mapM_sceneJson : ∀ {scenes : List BatchScene}, (∀ scene ∈ scenes, scene.titleWord = none) →
    (scenes.map sceneJson).mapM batchSceneOutput = some scenes
  | [], _ => rfl
  | scene :: scenes, h => by
    rw [List.map_cons, List.mapM_cons, batchSceneOutput_sceneJson (h scene List.mem_cons_self),
      mapM_sceneJson fun other hother => h other (List.mem_cons_of_mem _ hother)]
    rfl

theorem mem_plainScenes {request : BatchRequest} {scene : BatchScene}
    (h : scene ∈ plainScenes request) : ∃ n sceneType, scene = plainScene request n sceneType := by
  have one {n : Char} {sceneType : SceneType} {rest : List BatchScene}
      (hin : scene ∈ plainScene request n sceneType :: rest) :
      (∃ n sceneType, scene = plainScene request n sceneType) ∨ scene ∈ rest :=
    (List.mem_cons.mp hin).imp_left fun heq => ⟨n, sceneType, heq⟩
  unfold plainScenes at h
  rcases List.mem_append.mp h with hopening | hrest
  · split at hopening
    · rcases one hopening with hplain | hnext
      · exact hplain
      · exact (one hnext).resolve_right List.not_mem_nil
    · exact absurd hopening List.not_mem_nil
  · rcases one hrest with hplain | hclosing
    · exact hplain
    · split at hclosing
      · exact (one hclosing).resolve_right List.not_mem_nil
      · exact absurd hclosing List.not_mem_nil

theorem distinct_plainScenes (request : BatchRequest) :
    ((plainScenes request).map (·.sceneId)).Nodup := by
  have hids : (plainScenes request).map (·.sceneId) =
      ((if request.isFirstBatch then ['1', '2'] else []) ++
        '3' :: (if request.isFinalBatch then ['4'] else [])).map
        fun n => String.ofList (batchPrefix request.batchIndex ++ [n]) := by
    unfold plainScenes
    cases request.isFirstBatch <;> cases request.isFinalBatch <;> rfl
  rw [hids]
  refine List.Nodup.map (fun m n heq => ?_) ?_
  · exact List.singleton_inj.mp (List.append_cancel_left (String.ofList_injective heq))
  · cases request.isFirstBatch <;> cases request.isFinalBatch <;> decide

/-- Where the scenes of each type stand. -/
theorem plainScenes_at {request : BatchRequest} {scene : BatchScene} {i : Nat}
    (h : (plainScenes request)[i]? = some scene) :
    (scene.sceneType = .cover → request.isFirstBatch = true ∧ i = 0) ∧
      (scene.sceneType = .summary →
        request.isFinalBatch = true ∧ i + 1 = (plainScenes request).length) := by
  unfold plainScenes at h ⊢
  cases hfirst : request.isFirstBatch <;> cases hfinal : request.isFinalBatch <;>
    simp only [hfirst, hfinal, Bool.false_eq_true, if_false, if_true, List.nil_append,
      List.cons_append] at h ⊢
  all_goals
    match i, h with
    | 0, h => cases h; simp [plainScene]
    | 1, h => cases h <;> simp [plainScene]
    | 2, h => cases h <;> simp [plainScene]
    | 3, h => cases h <;> simp [plainScene]
    | _ + 4, h => cases h

theorem plainModel_answers (request : BatchRequest) :
    Answers plainModel request (plainScenes request) := by
  refine ⟨_, _, rfl, rfl, ?_⟩
  show (plainScenes request).map sceneJson |>.mapM batchSceneOutput |> fun o => o = _
  exact mapM_sceneJson fun scene hscene => by
    obtain ⟨n, sceneType, rfl⟩ := mem_plainScenes hscene
    rfl

theorem plainModel_answers_eq {request : BatchRequest} {scenes : List BatchScene}
    (h : Answers plainModel request scenes) : scenes = plainScenes request := by
  obtain ⟨data, value, hdata, hvalue, houtput⟩ := h
  obtain ⟨data', value', hdata', hvalue', houtput'⟩ := plainModel_answers request
  cases Option.some.inj (hdata.symm.trans hdata')
  cases Option.some.inj (hvalue.symm.trans hvalue')
  exact Option.some.inj (houtput.symm.trans houtput')

/-- It keeps the contract in the turns of the loop. -/
theorem plainModel_honours {request : BatchRequest} (hrefs : request.sourceRefs ≠ [])
    (hrequired : request.requiredSceneType = none) : Honours plainModel request := by
  refine ⟨_, plainModel_answers request, ?_⟩
  have hmem {scene : BatchScene} := @mem_plainScenes request scene
  refine {
    distinct := ?_
    numbered := fun scene hscene => ?_
    refs := fun scene hscene => ?_
    body := fun scene hscene => ?_
    title := fun scene hscene => ?_
    cover_first := fun h => ?_
    cover_only := fun i scene hi htype => ?_
    summary_last := fun h => ?_
    summary_only := fun i scene hi htype => ?_
    required := fun sceneType h => ?_ }
  · exact distinct_plainScenes request
  · obtain ⟨n, sceneType, rfl⟩ := hmem hscene
    rw [plainScene, String.toList_ofList]
    exact List.prefix_append _ _
  · obtain ⟨n, sceneType, rfl⟩ := hmem hscene
    exact ⟨hrefs, fun _ h => h⟩
  · obtain ⟨n, sceneType, rfl⟩ := hmem hscene
    show isBlank "那年春天" = false
    decide
  · obtain ⟨n, sceneType, rfl⟩ := hmem hscene
    exact fun word h => (nomatch h)
  · rw [plainScenes, if_pos h]
    rfl
  · exact (plainScenes_at hi).1 htype
  · rw [plainScenes, if_pos h, List.getLast?_append]
    rfl
  · exact (plainScenes_at hi).2 htype
  · rw [hrequired] at h
    cases h

/-! ## Whole loops -/

/-- The calls of the turns are for batches that have been cut. -/
theorem asked_runLoopTurns (agentVersion : String) (model : LoopModel) :
    ∀ (turns : List LoopTurn) (index : Nat) (loop : MemoirLoop),
      (∀ request ∈ loop.requests,
        request.sourceRefs ≠ [] ∧ request.requiredSceneType = none) →
      ∀ request ∈ (runLoopTurns agentVersion model index turns loop).requests,
        request.sourceRefs ≠ [] ∧ request.requiredSceneType = none
  | [], _, _, h => h
  | turn :: turns, index, loop, h => by
    have hturn : ∀ request ∈
        (runLoopIteration agentVersion model turn.window index turn.budget loop).2.requests,
        request.sourceRefs ≠ [] ∧ request.requiredSceneType = none := by
      rw [requests_runLoopIteration]
      intro request hrequest
      rcases List.mem_append.mp hrequest with hold | hnew
      · exact h request hold
      · split at hnew
        · exact absurd hnew List.not_mem_nil
        next hcut =>
          cases List.mem_singleton.mp hnew
          refine ⟨fun hnil => ?_, rfl⟩
          exact (not_or.mp hcut).2 (List.map_eq_nil_iff.mp hnil)
    rw [runLoopTurns]
    rcases hrun : runLoopIteration agentVersion model turn.window index turn.budget loop with
      ⟨result, loop'⟩
    rw [hrun] at hturn
    cases result with
    | error code => exact asked_runLoopTurns agentVersion model turns (index + 1) loop' hturn
    | ok result =>
      dsimp only
      split
      · exact asked_runLoopTurns agentVersion model turns (index + 1)
          { loop' with scenes := BoundedLoop.mergeScenes [] loop'.scenes } hturn
      · exact hturn

/-- The loop node, where its materials are not missing. -/
theorem runLoopNode_ok {agentVersion : String} {model : LoopModel} {material : Json}
    {turns : List LoopTurn} {result : LoopIterationResult} {final : MemoirLoop} :
    runLoopNode agentVersion model material turns = .ok (result, final) ↔
      loopMaterialTexts material ≠ [] ∧
      finalizeLoop agentVersion model (runLoopTurns agentVersion model 1 turns
        { materials := loopMaterialTexts material }) = (result, final) := by
  unfold runLoopNode beginLoop
  dsimp only
  by_cases hnone : loopMaterialTexts material = []
  · rw [if_pos hnone]
    exact ⟨fun h => (nomatch h), fun h => absurd hnone h.1⟩
  · rw [if_neg hnone]
    exact ⟨fun h => ⟨hnone, Except.ok.inj h⟩, fun h => congrArg Except.ok h.2⟩

/-- A loop whose scenes have the cover and, where there are any, the summary. -/
theorem not_missesEnd_of_reach (agentVersion : String) {model : LoopModel}
    {loop final : MemoirLoop} {batches : List BatchScan} (h : Ends model loop final batches)
    (hempty : loop.scenes = [])
    (hreach : batches = [] ∨ ∃ scan ∈ batches, loop.materials.length ≤ scan.candidateCursor) :
    ¬ MissesEnd (finalizeLoop agentVersion model final).1 := by
  refine not_missesEnd (loopStructureReason_ne_cover h.covered)
    (loopStructureReason_ne_summary ?_)
  rcases hreach with hnone | hend
  · exact Or.inl ((h.idle hnone).trans hempty)
  · exact Or.inr (h.closed hend)

/-- The model that says little shows the gap. -/
theorem missesEnd_of_open (agentVersion : String) {loop final : MemoirLoop}
    {batches : List BatchScan} (h : Ends plainModel loop final batches) (hempty : loop.scenes = [])
    (hnone : loop.finalBatch = none) (hsome : batches ≠ [])
    (hopen : ∀ scan ∈ batches, scan.candidateCursor < loop.materials.length) :
    MissesEnd (finalizeLoop agentVersion plainModel final).1 ∧
      (finalizeLoop agentVersion plainModel final).2 = final := by
  obtain ⟨hfinal, hsummary⟩ := h.unclosed hopen
  obtain ⟨request, scenes, hfirst, hanswers, hprefix⟩ := h.opened hsome hempty
  have hmany : 3 ≤ final.scenes.length := by
    cases plainModel_answers_eq hanswers
    refine Nat.le_trans ?_ hprefix.length_le
    rw [plainScenes, if_pos hfirst]
    simp
  refine missesEnd_of_unclosed (loopStructureReason_of_unclosed hmany h.covered ?_)
    (hfinal.trans hnone)
  refine hsummary fun scene hscene => ?_
  rw [hempty] at hscene
  exact absurd hscene List.not_mem_nil

/-- A loop whose batches all end before the materials do fails for the
summary, with a model that keeps its contract. -/
theorem missed_of_open (agentVersion : String) {material : Json} {turns : List LoopTurn}
    (h : ¬ BatchesReachEnd (loopMaterialTexts material) (turns.map LoopTurn.cap)) :
    ∃ result final, runLoopNode agentVersion plainModel material turns = .ok (result, final) ∧
      WellBehaved plainModel final ∧ MissesEnd result := by
  obtain ⟨hsome, hopen⟩ := not_or.mp h
  have hopen' : ∀ scan ∈ cutBatches (loopMaterialTexts material) 0 (turns.map LoopTurn.cap),
      scan.candidateCursor < (loopMaterialTexts material).length :=
    fun scan hscan => Nat.lt_of_not_le fun hle => hopen ⟨scan, hscan, hle⟩
  have hmaterials : loopMaterialTexts material ≠ [] := fun hnil =>
    hsome (cutBatches_of_exhausted (by rw [hnil]; exact Nat.le_refl 0) _)
  have hbehaved : WellBehaved plainModel (runLoopTurns agentVersion plainModel 1 turns
      { materials := loopMaterialTexts material }) := fun request hrequest => by
    obtain ⟨hrefs, hrequired⟩ := asked_runLoopTurns agentVersion plainModel turns 1
      { materials := loopMaterialTexts material } (fun _ hin => absurd hin List.not_mem_nil)
      request hrequest
    exact plainModel_honours hrefs hrequired
  obtain ⟨hmisses, hsame⟩ := missesEnd_of_open agentVersion
    (ends_of_turns agentVersion plainModel turns 1 { materials := loopMaterialTexts material }
      (collected_nil 1) hbehaved) rfl rfl hsome hopen'
  rcases hfinal : finalizeLoop agentVersion plainModel (runLoopTurns agentVersion plainModel 1 turns
    { materials := loopMaterialTexts material }) with ⟨result, final⟩
  rw [hfinal] at hmisses hsame
  refine ⟨result, final, runLoopNode_ok.mpr ⟨hmaterials, hfinal⟩, ?_, hmisses⟩
  rw [show final = _ from hsame]
  exact hbehaved

/-- For every material and whatever the turns are granted: with a model that
keeps its contract in every call, the end of the loop never fails for the
missing cover or the missing summary, if and only if no batch is cut or one of
them reaches the end of the materials. -/
theorem loop_ends_in_place (agentVersion : String) (material : Json) (turns : List LoopTurn) :
    (∀ (model : LoopModel) (result : LoopIterationResult) (final : MemoirLoop),
      runLoopNode agentVersion model material turns = .ok (result, final) →
      WellBehaved model final → ¬ MissesEnd result) ↔
    BatchesReachEnd (loopMaterialTexts material) (turns.map LoopTurn.cap) := by
  constructor
  · intro h
    by_contra hopen
    obtain ⟨result, final, hrun, hbehaved, hmisses⟩ := missed_of_open agentVersion hopen
    exact h plainModel result final hrun hbehaved hmisses
  · intro hreach model result final hrun hbehaved
    obtain ⟨-, hfinal⟩ := runLoopNode_ok.mp hrun
    have hmade := requests_finalizeLoop agentVersion model
      (runLoopTurns agentVersion model 1 turns { materials := loopMaterialTexts material })
    rw [hfinal] at hmade
    have hends := ends_of_turns agentVersion model turns 1
      { materials := loopMaterialTexts material } (collected_nil 1) (hbehaved.of_prefix hmade)
    have hnot := not_missesEnd_of_reach agentVersion hends rfl hreach
    rw [hfinal] at hnot
    exact hnot

instance (materials : List LoopMaterial) (caps : List Int) :
    Decidable (BatchesReachEnd materials caps) := by
  unfold BatchesReachEnd; infer_instance

/-- Eight short materials, and one too long for a batch of eight tokens. -/
def overLimitTail : Json :=
  let item (ref text : String) : Json :=
    .obj [("sensitive", .bool false), ("source_ref", .str ref), ("text", .str text)]
  .obj [("materials", .arr (
    ["diary:1", "diary:2", "diary:3", "diary:4", "diary:5", "diary:6", "diary:7", "diary:8"].map
        (fun ref => item ref "雪") ++
      [item "diary:9" (String.ofList (List.replicate 33 '江'))]))]

def grantedTurn : LoopTurn where
  budget := {
    maxIterations := 3
    remainingModelCalls := 3
    remainingTokens := 8
    remainingCost := 1
    remainingMs := 600000 }

/-- The first batch takes the eight and is not the final one, the second turn
drops the ninth, and the third finds nothing left: the scenes have no summary. -/
theorem summary_missed :
    ∃ result final, runLoopNode "1.0.6" plainModel overLimitTail
        [grantedTurn, grantedTurn, grantedTurn] = .ok (result, final) ∧
      WellBehaved plainModel final ∧ MissesEnd result :=
  missed_of_open "1.0.6" (by decide +kernel)

end AgentRuntime
