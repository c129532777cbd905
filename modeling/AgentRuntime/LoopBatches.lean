import AgentRuntime.Lib.Packing
import AgentRuntime.Lib.Runs
import AgentRuntime.LoopStructure
import Mathlib.Data.List.Chain

/-!
# What the memoir's loop consumes

From version 1.0.6 on a turn of the loop moves the cursor only once its
scenes are accepted, or where there was nothing to call for. Turn by turn the
materials before the cursor are cut into groups, and the batch of a turn is
its group but for what is larger than the cap of that turn.

The cap follows the tokens that are left, and a call that fails may have used
some. So the turn after a failed one cuts its batch anew from the same
materials, and gets the same one exactly if that is still how the new cap
packs them (`consumed_once_iff`).
-/

namespace AgentRuntime

open Keyed MemoirNodeRunner BoundedLoop Packing

/-! ## Cutting, once more -/

def LoopMaterial.tokens (material : LoopMaterial) : Int :=
  estimateMaterialTokens material.text

theorem LoopMaterial.tokens_nonneg (material : LoopMaterial) : 0 ≤ material.tokens := by
  unfold LoopMaterial.tokens estimateMaterialTokens
  omega

/-- The batch that the materials are packed into. -/
abbrev PacksBatch (cap : Int) (materials batch : List LoopMaterial) : Prop :=
  Packs LoopMaterial.tokens cap loopBatchMaxMaterials materials batch

/-- From a scan on, a group of the materials is passed. -/
theorem scanBatch_spec (cap : Int) : ∀ (rest : List LoopMaterial) (s : BatchScan),
    s.batch.length ≤ loopBatchMaxMaterials → s.usedTokens = total LoopMaterial.tokens s.batch →
    s.usedTokens ≤ cap ∨ s.batch = [] →
    ∃ group behind, rest = group ++ behind ∧
      (scanBatch cap rest s).batch = s.batch ++ within LoopMaterial.tokens cap group ∧
      (scanBatch cap rest s).candidateCursor = s.candidateCursor + group.length ∧
      (scanBatch cap rest s).batch.length ≤ loopBatchMaxMaterials ∧
      (total LoopMaterial.tokens (scanBatch cap rest s).batch ≤ cap ∨
        (scanBatch cap rest s).batch = []) ∧
      ((scanBatch cap rest s).batch.length = loopBatchMaxMaterials ∨
        ∀ x ∈ (within LoopMaterial.tokens cap behind).head?,
          cap < total LoopMaterial.tokens (scanBatch cap rest s).batch + x.tokens)
  | [], s, hfew, hused, hfits =>
    ⟨[], [], rfl, (List.append_nil _).symm, rfl, hfew, hused ▸ hfits, Or.inr fun _ h => (nomatch h)⟩
  | material :: rest, s, hfew, hused, hfits => by
    rw [scanBatch]
    split
    next hfull =>
      exact ⟨[], material :: rest, rfl, (List.append_nil _).symm, rfl, hfew, hused ▸ hfits,
        Or.inl (Nat.le_antisymm hfew hfull)⟩
    next hopen =>
    split
    next hlarge =>
      -- passed over: the group grows, the batch does not
      have hpassed : cap < material.tokens := hlarge
      obtain ⟨group, behind, rfl, hbatch, hcursor, hrest⟩ := scanBatch_spec cap rest
        { s with
          overLimitDropped := s.overLimitDropped + 1
          candidateCursor := s.candidateCursor + 1 } hfew hused hfits
      refine ⟨material :: group, behind, rfl, ?_, ?_, hrest⟩
      · rw [hbatch, within_cons_of_lt hpassed]
      · rw [hcursor, List.length_cons]
        dsimp only
        omega
    next hsmall =>
    have hallowed : material.tokens ≤ cap := Int.not_lt.mp hsmall
    split
    next hnext =>
      -- the first material that is allowed does not fit: the batch is cut here
      refine ⟨[], material :: rest, rfl, (List.append_nil _).symm, rfl, hfew, hused ▸ hfits,
        Or.inr fun x hx => ?_⟩
      rw [within_cons_of_le hallowed] at hx
      cases hx
      rw [← hused]
      exact hnext
    next hroom =>
      have hadded : total LoopMaterial.tokens (s.batch ++ [material])
          = s.usedTokens + material.tokens := by
        rw [total_append, total_cons, total_nil, hused, Int.add_zero]
      obtain ⟨group, behind, rfl, hbatch, hcursor, hrest⟩ := scanBatch_spec cap rest
        { s with
          batch := s.batch ++ [material]
          usedTokens := s.usedTokens + estimateMaterialTokens material.text
          candidateCursor := s.candidateCursor + 1 }
        (by rw [List.length_append]; exact Nat.lt_of_not_le hopen) hadded.symm
        (Or.inl (Int.not_lt.mp hroom))
      refine ⟨material :: group, behind, rfl, ?_, ?_, hrest⟩
      · rw [hbatch, within_cons_of_le hallowed, List.append_assoc]
        rfl
      · rw [hcursor, List.length_cons]
        dsimp only
        omega

theorem loopBatchTokenCap_nonneg (window : Option Int) (remainingTokens : Int) :
    0 ≤ loopBatchTokenCap window remainingTokens := by
  unfold loopBatchTokenCap
  refine Int.le_min.mpr ⟨?_, Int.le_max_right _ _⟩
  cases window with
  | none => decide
  | some value =>
    by_cases hpos : 0 < value
    · simp only [Option.filter_some, hpos, decide_true, if_true, Option.getD_some]
      exact Int.le_of_lt hpos
    · simp only [Option.filter_some, hpos, decide_false, Bool.false_eq_true, if_false,
        Option.getD_none]
      decide

/-- **A cut** passes a group of the materials, and its batch is how the cap
packs what is behind the cursor. -/
theorem nextBatch_spec {materials : List LoopMaterial} {cap : Int} (hcap : 0 ≤ cap) (cursor : Nat) :
    PacksBatch cap (materials.drop cursor) (nextBatch materials cap cursor).batch ∧
      ∃ group, materials.take (nextBatch materials cap cursor).candidateCursor
          = materials.take cursor ++ group ∧
        (nextBatch materials cap cursor).batch = within LoopMaterial.tokens cap group := by
  obtain ⟨group, behind, hrest, hbatch, hcursor, hfew, hfits, hend⟩ :=
    scanBatch_spec cap (materials.drop cursor) { candidateCursor := cursor } (Nat.zero_le _) rfl
      (Or.inr rfl)
  have hbatch' : (nextBatch materials cap cursor).batch = within LoopMaterial.tokens cap group :=
    hbatch
  refine ⟨⟨?_, hfew, within LoopMaterial.tokens cap behind, ?_, hend⟩, group, ?_, hbatch'⟩
  · rcases hfits with hfits | hnone
    · exact hfits
    · show total _ (scanBatch cap _ _).batch ≤ cap
      rw [hnone]
      exact hcap
  · rw [hbatch', ← within_append, ← hrest]
  · have hat : (nextBatch materials cap cursor).candidateCursor = cursor + group.length := hcursor
    rw [hat, List.take_add, hrest, List.take_left]

/-- The batch of a cut is the one that the cap packs. -/
theorem nextBatch_eq_iff {materials batch : List LoopMaterial} {cap : Int} (hcap : 0 ≤ cap)
    (cursor : Nat) : (nextBatch materials cap cursor).batch = batch
      ↔ PacksBatch cap (materials.drop cursor) batch := by
  have hcut := (@nextBatch_spec materials cap hcap cursor).1
  refine ⟨fun h => h ▸ hcut, fun h => hcut.unique LoopMaterial.tokens_nonneg h⟩

/-! ## The turns of a loop -/

/-- A turn, with the model as it answers in it. -/
structure LoopCall where
  iterationIndex : Nat
  turn : LoopTurn
  model : LoopModel

/-- What a turn did: the materials it asked the model for, whether it came
back, and the cursor before and after. -/
structure BatchCall where
  cap : Int
  batch : List LoopMaterial
  accepted : Bool
  cursorBefore : Nat
  cursorAfter : Nat
  deriving DecidableEq, Repr

namespace LoopCall

variable (agentVersion : String) (c : LoopCall) (loop : MemoirLoop)

def iterate : Except String LoopIterationResult × MemoirLoop :=
  runLoopIteration agentVersion c.model c.turn.window c.iterationIndex c.turn.budget loop

/-- The loop after the turn; the executor merges the scenes of one that came
back. -/
def next : MemoirLoop :=
  let iterated := c.iterate agentVersion loop
  if iterated.1.isOk then { iterated.2 with scenes := mergeScenes [] iterated.2.scenes }
  else iterated.2

def record : BatchCall :=
  let iterated := c.iterate agentVersion loop
  { cap := c.turn.cap
    batch := (iterated.2.requests.drop loop.requests.length).flatMap (·.materials)
    accepted := iterated.1.isOk
    cursorBefore := loop.cursor
    cursorAfter := iterated.2.cursor }

end LoopCall

/-- What the turns do, one after the other. -/
def batchCalls (agentVersion : String) : MemoirLoop → List LoopCall → List BatchCall
  | _, [] => []
  | loop, c :: calls =>
    c.record agentVersion loop :: batchCalls agentVersion (c.next agentVersion loop) calls

/-- The loop after the turns. -/
def afterCalls (agentVersion : String) : MemoirLoop → List LoopCall → MemoirLoop :=
  Runs.run fun loop c => c.next agentVersion loop

/-- **No material is lost or used twice.** The materials before the cursor are
the groups of the turns that came back, one after the other, and the batch of
a turn is its group but for what is larger than its cap; no reference is in
two batches; a turn that failed has left the cursor; and the turn after it
asks for the same batch. -/
structure ConsumedOnce (agentVersion : String) (loop : MemoirLoop) (calls : List LoopCall) :
    Prop where
  groups : ∃ groups : List (List LoopMaterial),
    loop.materials.take (afterCalls agentVersion loop calls).cursor = groups.flatten ∧
      List.Forall₂ (fun (group : List LoopMaterial) (call : BatchCall) =>
          call.batch = within LoopMaterial.tokens call.cap group)
        groups ((batchCalls agentVersion loop calls).filter (·.accepted))
  distinct : ((((batchCalls agentVersion loop calls).filter (·.accepted)).flatMap
    (·.batch)).map (·.sourceRef)).Nodup
  materials : (afterCalls agentVersion loop calls).materials = loop.materials
  failed : ∀ call ∈ batchCalls agentVersion loop calls,
    call.accepted = false → call.cursorAfter = call.cursorBefore
  retried : (batchCalls agentVersion loop calls).IsChain fun call call' =>
    call.accepted = false → call'.batch = call.batch

/-- After every turn that failed, its batch is also what the cap of the next
turn packs from the materials behind the cursor. -/
def RepacksAlike (materials : List LoopMaterial) (calls : List BatchCall) : Prop :=
  calls.IsChain fun call call' =>
    call.accepted = false → PacksBatch call'.cap (materials.drop call.cursorBefore) call.batch

section

variable {agentVersion : String}

theorem LoopTurn.cap_nonneg (turn : LoopTurn) : 0 ≤ turn.cap :=
  loopBatchTokenCap_nonneg _ _

/-- A turn asks for the batch that is cut from behind the cursor. -/
theorem LoopCall.record_batch (c : LoopCall) (loop : MemoirLoop) :
    (c.record agentVersion loop).batch
      = (nextBatch loop.materials c.turn.cap loop.cursor).batch := by
  show ((c.iterate agentVersion loop).2.requests.drop loop.requests.length).flatMap _ = _
  unfold LoopCall.iterate
  rw [requests_runLoopIteration, List.drop_left]
  split
  next hnone =>
    rcases hnone with hpast | hempty
    · unfold nextBatch
      rw [List.drop_of_length_le hpast]
      rfl
    · rw [hempty]
      rfl
  · exact List.append_nil _

/-- A turn that comes back has moved the cursor behind its cut, if there was
something to cut; one that does not has left it. -/
theorem LoopCall.iterate_cases (hversion : versionAtLeast agentVersion [1, 0, 6] = true)
    (c : LoopCall) (loop : MemoirLoop) :
    (c.iterate agentVersion loop).1.isOk = false ∧
        (c.iterate agentVersion loop).2.cursor = loop.cursor ∨
      (c.iterate agentVersion loop).1.isOk = true ∧
        (loop.materials.length ≤ loop.cursor ∧
            (c.iterate agentVersion loop).2.cursor = loop.cursor ∨
          (c.iterate agentVersion loop).2.cursor
            = (nextBatch loop.materials c.turn.cap loop.cursor).candidateCursor) := by
  unfold LoopCall.iterate runLoopIteration LoopTurn.cap
  dsimp only
  by_cases hpast : loop.materials.length ≤ loop.cursor
  · rw [if_pos hpast]
    exact Or.inr ⟨rfl, Or.inl ⟨hpast, rfl⟩⟩
  rw [if_neg hpast]
  split
  · exact Or.inr ⟨rfl, Or.inr rfl⟩
  have hleft : ∀ request scan, (callForBatch agentVersion request scan loop).cursor
      = loop.cursor := fun request scan => by
    unfold callForBatch
    exact if_pos hversion
  split
  · exact Or.inl ⟨rfl, hleft _ _⟩
  · split
    · exact Or.inl ⟨rfl, hleft _ _⟩
    · exact Or.inr ⟨rfl, Or.inr rfl⟩

theorem LoopCall.next_cursor (c : LoopCall) (loop : MemoirLoop) :
    (c.next agentVersion loop).cursor = (c.record agentVersion loop).cursorAfter := by
  unfold LoopCall.next LoopCall.record
  dsimp only
  split <;> rfl

theorem LoopCall.iterate_materials (c : LoopCall) (loop : MemoirLoop) :
    (c.iterate agentVersion loop).2.materials = loop.materials := by
  unfold LoopCall.iterate runLoopIteration
  dsimp only
  split
  · rfl
  split
  · rfl
  split
  · rfl
  · split <;> rfl

theorem LoopCall.next_materials (c : LoopCall) (loop : MemoirLoop) :
    (c.next agentVersion loop).materials = loop.materials := by
  refine Eq.trans ?_ (@iterate_materials agentVersion c loop)
  unfold LoopCall.next
  dsimp only
  split <;> rfl

theorem LoopCall.record_failed (hversion : versionAtLeast agentVersion [1, 0, 6] = true)
    {c : LoopCall} {loop : MemoirLoop} (hfailed : (c.record agentVersion loop).accepted = false) :
    (c.record agentVersion loop).cursorAfter = loop.cursor := by
  rcases c.iterate_cases hversion loop with ⟨_, hcursor⟩ | ⟨hok, _⟩
  · exact hcursor
  · have hcontra := hfailed.symm.trans hok
    cases hcontra

/-- The group of a turn that came back. -/
theorem LoopCall.record_accepted (hversion : versionAtLeast agentVersion [1, 0, 6] = true)
    {c : LoopCall} {loop : MemoirLoop} (hok : (c.record agentVersion loop).accepted = true) :
    ∃ group, loop.materials.take (c.record agentVersion loop).cursorAfter
        = loop.materials.take loop.cursor ++ group ∧
      (c.record agentVersion loop).batch = within LoopMaterial.tokens c.turn.cap group := by
  have hbatch := @record_batch agentVersion c loop
  obtain ⟨_, group, htake, hwithin⟩ :=
    @nextBatch_spec loop.materials c.turn.cap c.turn.cap_nonneg loop.cursor
  rcases c.iterate_cases hversion loop with ⟨hfailed, _⟩ | ⟨_, ⟨hpast, hcursor⟩ | hcursor⟩
  · have hcontra := hfailed.symm.trans hok
    cases hcontra
  · -- nothing is left, and the group is empty
    have hafter : (c.record agentVersion loop).cursorAfter = loop.cursor := hcursor
    refine ⟨[], by rw [hafter, List.append_nil], hbatch.trans ?_⟩
    unfold nextBatch
    rw [List.drop_of_length_le hpast]
    rfl
  · have hafter : (c.record agentVersion loop).cursorAfter
        = (nextBatch loop.materials c.turn.cap loop.cursor).candidateCursor := hcursor
    exact ⟨group, by rw [hafter, htake], hbatch.trans hwithin⟩

/-! ## All the turns -/

/-- From wherever the cursor is, the turns pass groups of the materials. -/
theorem groups_of_calls (hversion : versionAtLeast agentVersion [1, 0, 6] = true) :
    ∀ (calls : List LoopCall) (loop : MemoirLoop), ∃ groups : List (List LoopMaterial),
      loop.materials.take (afterCalls agentVersion loop calls).cursor
          = loop.materials.take loop.cursor ++ groups.flatten ∧
        List.Forall₂ (fun (group : List LoopMaterial) (call : BatchCall) =>
            call.batch = within LoopMaterial.tokens call.cap group)
          groups ((batchCalls agentVersion loop calls).filter (·.accepted))
  | [], loop => ⟨[], (List.append_nil _).symm, .nil⟩
  | c :: calls, loop => by
    obtain ⟨groups, htake, hall⟩ := groups_of_calls hversion calls (c.next agentVersion loop)
    rw [c.next_materials, c.next_cursor] at htake
    unfold batchCalls
    cases hok : (c.record agentVersion loop).accepted with
    | false =>
      rw [LoopCall.record_failed hversion hok] at htake
      rw [List.filter_cons_of_neg (by rw [hok]; exact Bool.false_ne_true)]
      exact ⟨groups, htake, hall⟩
    | true =>
      obtain ⟨group, hgroup, hbatch⟩ := LoopCall.record_accepted hversion hok
      rw [hgroup, List.append_assoc] at htake
      rw [List.filter_cons_of_pos hok]
      exact ⟨group :: groups, htake, .cons hbatch hall⟩

theorem materials_afterCalls (calls : List LoopCall) (loop : MemoirLoop) :
    (afterCalls agentVersion loop calls).materials = loop.materials :=
  Runs.run_inv (I := fun loop' : MemoirLoop => loop'.materials = loop.materials)
    (fun loop' c h => (c.next_materials loop').trans h) calls loop rfl

theorem failed_of_calls (hversion : versionAtLeast agentVersion [1, 0, 6] = true) :
    ∀ (calls : List LoopCall) (loop : MemoirLoop), ∀ call ∈ batchCalls agentVersion loop calls,
      call.accepted = false → call.cursorAfter = call.cursorBefore
  | [], _, _, hcall => by cases hcall
  | c :: calls, loop, call, hcall => fun hfailed => by
    rcases List.mem_cons.mp hcall with rfl | hrest
    · exact LoopCall.record_failed hversion hfailed
    · exact failed_of_calls hversion calls _ call hrest hfailed

/-- The turn after a failed one cuts from the same materials, and gets the
batch that its cap packs. -/
theorem retried_iff (hversion : versionAtLeast agentVersion [1, 0, 6] = true)
    (calls : List LoopCall) (loop : MemoirLoop) :
    ((batchCalls agentVersion loop calls).IsChain fun call call' =>
        call.accepted = false → call'.batch = call.batch)
      ↔ RepacksAlike loop.materials (batchCalls agentVersion loop calls) := by
  unfold RepacksAlike
  induction calls generalizing loop with
  | nil => exact ⟨fun _ => .nil, fun _ => .nil⟩
  | cons c calls ih =>
    cases calls with
    | nil => exact ⟨fun _ => .singleton _, fun _ => .singleton _⟩
    | cons c' calls =>
      have hrest := ih (c.next agentVersion loop)
      rw [c.next_materials] at hrest
      simp only [batchCalls, List.isChain_cons_cons] at hrest ⊢
      -- the failed turn has left the cursor, so the next cuts from the same place
      refine and_congr ?_ hrest
      refine forall_congr' fun hfailed => ?_
      rw [c'.record_batch, c.next_materials, c.next_cursor,
        LoopCall.record_failed hversion hfailed]
      exact nextBatch_eq_iff c'.turn.cap_nonneg loop.cursor

/-- No reference is in two of the batches. -/
theorem distinct_of_groups {materials : List LoopMaterial} {groups : List (List LoopMaterial)}
    {calls : List BatchCall} {n : Nat} (hdistinct : (materials.map (·.sourceRef)).Nodup)
    (htake : materials.take n = groups.flatten)
    (hall : List.Forall₂ (fun (group : List LoopMaterial) (call : BatchCall) =>
      call.batch = within LoopMaterial.tokens call.cap group) groups calls) :
    ((calls.flatMap (·.batch)).map (·.sourceRef)).Nodup := by
  -- the batches leave materials out, and never change their order
  have hsub : (calls.flatMap (·.batch)).Sublist groups.flatten := by
    clear htake
    induction hall with
    | nil => exact .slnil
    | cons hbatch _ ih =>
      rw [List.flatMap_cons, List.flatten_cons, hbatch]
      exact List.filter_sublist.append ih
  have hmaterials : groups.flatten.Sublist materials := htake ▸ List.take_sublist n materials
  exact hdistinct.sublist ((hsub.trans hmaterials).map _)

end

/-- The materials of a loop have their references apart. -/
theorem distinctMaterials_unseen : ∀ (items : List Json) (seen : List String),
    Unseen (·.sourceRef) seen (distinctMaterials seen items)
  | [], _ => Unseen.nil
  | item :: items, seen => by
    unfold distinctMaterials
    split
    · exact distinctMaterials_unseen items seen
    next material _ =>
    split
    · exact distinctMaterials_unseen items seen
    next hnew => exact (distinctMaterials_unseen items (material.sourceRef :: seen)).cons hnew

theorem loopMaterialTexts_nodup (sanitizedMaterial : Json) :
    ((loopMaterialTexts sanitizedMaterial).map (·.sourceRef)).Nodup := by
  unfold loopMaterialTexts
  split
  · split
    · exact (distinctMaterials_unseen _ []).1
    · exact List.nodup_nil
  · exact List.nodup_nil

/-- **What the loop consumes.** From 1.0.6 on, no material is lost or used
twice, exactly if every batch that failed is packed alike by the next cap. -/
theorem consumed_once_iff {agentVersion : String}
    (hversion : versionAtLeast agentVersion [1, 0, 6] = true) (sanitizedMaterial : Json)
    (calls : List LoopCall) :
    ConsumedOnce agentVersion { materials := loopMaterialTexts sanitizedMaterial } calls
      ↔ RepacksAlike (loopMaterialTexts sanitizedMaterial)
        (batchCalls agentVersion { materials := loopMaterialTexts sanitizedMaterial } calls) := by
  have hretried := retried_iff hversion calls { materials := loopMaterialTexts sanitizedMaterial }
  obtain ⟨groups, htake, hall⟩ :=
    groups_of_calls hversion calls { materials := loopMaterialTexts sanitizedMaterial }
  rw [List.take_zero, List.nil_append] at htake
  refine ⟨fun h => hretried.mp h.retried, fun h => ?_⟩
  exact {
    groups := ⟨groups, htake, hall⟩
    distinct := distinct_of_groups (loopMaterialTexts_nodup sanitizedMaterial) htake hall
    materials := materials_afterCalls calls _
    failed := failed_of_calls hversion calls _
    retried := hretried.mpr h }

/-- A turn that may have this many tokens. -/
def turnOf (remainingTokens : Int) : LoopTurn :=
  { grantedTurn with budget := { grantedTurn.budget with remainingTokens := remainingTokens } }

/-- What the model writes in the first turn is no JSON, in the second it
answers; `left` are the tokens that the first call has left. -/
def failsOnce (left : Int) : List LoopCall :=
  [⟨1, turnOf 8, fun _ => some (.text none)⟩, ⟨2, turnOf left, plainModel⟩]

/-- A call that used no tokens is made again for the same batch. -/
theorem consumed_once_of_unused_tokens :
    ConsumedOnce "1.0.6" { materials := loopMaterialTexts overLimitTail } (failsOnce 8) := by
  refine (consumed_once_iff (by decide +kernel) overLimitTail (failsOnce 8)).mpr ?_
  refine .cons_cons (fun _ => ?_) (.singleton _)
  exact (nextBatch_eq_iff (LoopTurn.cap_nonneg _) 0).mp (by decide +kernel)

/-- A call that used half of the tokens is made again for half of the
batch. -/
theorem retried_with_less :
    ¬ ConsumedOnce "1.0.6" { materials := loopMaterialTexts overLimitTail } (failsOnce 4) ∧
    (batchCalls "1.0.6" { materials := loopMaterialTexts overLimitTail } (failsOnce 4)).map
      (fun call => (call.batch.map (·.sourceRef))) =
        [["diary:1", "diary:2", "diary:3", "diary:4", "diary:5", "diary:6", "diary:7", "diary:8"],
          ["diary:1", "diary:2", "diary:3", "diary:4"]] := by
  refine ⟨fun h => ?_, by decide +kernel⟩
  have hretried := h.retried
  rw [failsOnce, batchCalls, batchCalls, List.isChain_cons_cons] at hretried
  have hsame := hretried.1 (by decide +kernel)
  revert hsame
  decide +kernel

end AgentRuntime
