import AgentRuntime.Lib.Firsts
import AgentRuntime.MemoirLoop
import AgentRuntime.SafetyReview

/-!
# The merge of the scenes of a loop

After every turn of a loop `merge_unique_scenes` goes over the scenes in the
state: of the scenes with one id it keeps the first. Nothing is known of the
scenes, which a body of the loop has put there: one may have no id, or an id
that is not a text, or not be an object at all, and is then kept.

`mergeUniqueScenes_firsts` is the contract of the merge. The merges of the
executor and of the memoir loop, which see the ids only, are the same one
(`mergeUniqueScenes_eq_keepFirst`, `mergeScenes_eq_keepFirst`).
-/

namespace AgentRuntime

open Firsts

namespace SceneMerge

/-- The id by which a scene is merged, if it has one. -/
def mergeKey : Json → Option String
  | .obj scene => MemoirNodeRunner.textField "scene_id" scene
  | _ => none

/-- The loop of `merge_unique_scenes`, with what it has `seen` and `merged`. -/
def mergeFrom (seen : List String) (merged : List Json) : List Json → List Json
  | [] => merged
  | scene :: scenes =>
    match mergeKey scene with
    | none => mergeFrom seen (merged ++ [scene]) scenes
    | some key =>
      if key ∈ seen then mergeFrom seen merged scenes
      else mergeFrom (key :: seen) (merged ++ [scene]) scenes

/-- `merge_unique_scenes`: the scenes it leaves in the state, and the number of
those it has dropped. -/
def mergeUniqueScenes : Option (List Json) → Option (List Json) × Nat
  | none => (none, 0)
  | some [] => (some [], 0)
  | some scenes =>
    let merged := mergeFrom [] [] scenes
    let removed := scenes.length - merged.length
    (if removed = 0 then some scenes else some merged, removed)

/-- What was merged before stays in front, and the rest is kept by key. -/
theorem mergeFrom_eq (scenes : List Json) : ∀ seen merged,
    mergeFrom seen merged scenes = merged ++ keepFirst mergeKey seen scenes := by
  induction scenes with
  | nil => intro seen merged; exact (List.append_nil merged).symm
  | cons scene scenes ih =>
    intro seen merged
    unfold mergeFrom
    cases hkey : mergeKey scene with
    | none =>
      show mergeFrom seen (merged ++ [scene]) scenes = _
      rw [ih, keepFirst_none hkey, List.append_assoc, List.singleton_append]
    | some key =>
      show (if key ∈ seen then mergeFrom seen merged scenes
        else mergeFrom (key :: seen) (merged ++ [scene]) scenes) = _
      by_cases hseen : key ∈ seen
      · rw [if_pos hseen, ih, keepFirst_seen hkey hseen]
      · rw [if_neg hseen, ih, keepFirst_new hkey hseen, List.append_assoc, List.singleton_append]

/-- Where nothing is dropped the state is not written to, and holds what it
would hold. -/
theorem mergeUniqueScenes_eq (scenes : Option (List Json)) :
    mergeUniqueScenes scenes =
      (scenes.map (keepFirst mergeKey []),
        (scenes.getD []).length - (keepFirst mergeKey [] (scenes.getD [])).length) := by
  match scenes with
  | none => rfl
  | some [] => rfl
  | some (scene :: scenes) =>
    have hsub : (keepFirst mergeKey [] (scene :: scenes)).Sublist (scene :: scenes) :=
      keepFirst_sublist _ []
    show (if (scene :: scenes).length - (mergeFrom [] [] (scene :: scenes)).length = 0
        then some (scene :: scenes) else some (mergeFrom [] [] (scene :: scenes)),
      (scene :: scenes).length - (mergeFrom [] [] (scene :: scenes)).length) = _
    rw [mergeFrom_eq, List.nil_append]
    refine congrArg (·, _) ?_
    split
    next hnone =>
      exact congrArg some (hsub.eq_of_length_le (by omega)).symm
    next => rfl

/-- What is left is a sublist, in which the first scene of every id and every
scene without one stand in their places; no scene without an id is lost, no id
is left twice, the number returned is the number of scenes dropped, and a second
merge drops none. -/
theorem mergeUniqueScenes_firsts (scenes : Option (List Json)) :
    let before := scenes.getD []
    let after := (mergeUniqueScenes scenes).1.getD []
    after.Sublist before
      ∧ (∀ earlier scene later, before = earlier ++ scene :: later →
        (∀ id, mergeKey scene = some id → id ∉ earlier.filterMap mergeKey) →
        ∃ front back, after = front ++ scene :: back
          ∧ front.Sublist earlier ∧ back.Sublist later)
      ∧ after.filter (keyless mergeKey) = before.filter (keyless mergeKey)
      ∧ (after.filterMap mergeKey).Nodup
      ∧ after.length + (mergeUniqueScenes scenes).2 = before.length
      ∧ mergeUniqueScenes (mergeUniqueScenes scenes).1 = ((mergeUniqueScenes scenes).1, 0) := by
  have hafter : (scenes.map (keepFirst mergeKey [])).getD []
      = keepFirst mergeKey [] (scenes.getD []) := by cases scenes <;> rfl
  have hsub : (keepFirst mergeKey [] (scenes.getD [])).Sublist (scenes.getD []) :=
    keepFirst_sublist _ []
  simp only [mergeUniqueScenes_eq, hafter]
  refine ⟨hsub, fun earlier scene later hbefore hfirst => ?_, filter_keepFirst _ [],
    (nodup_keepFirst _ []).1, ?_, ?_⟩
  · rw [hbefore]
    exact keepFirst_split hfirst
  · exact Nat.add_sub_cancel' hsub.length_le
  · rw [keepFirst_keepFirst, Nat.sub_self, Option.map_map]
    refine congrArg (·, 0) (Option.map_congr fun l _ => ?_)
    exact keepFirst_keepFirst l

end SceneMerge

/-! ## The merges of the models of the loop -/

/-- The merge of the executor. -/
theorem mergeUniqueScenes_eq_keepFirst (scenes : List Scene) : ∀ seen,
    BoundedLoop.mergeUniqueScenes seen scenes = keepFirst Scene.sceneId seen scenes := by
  induction scenes with
  | nil => intro seen; rfl
  | cons scene scenes ih =>
    intro seen
    unfold BoundedLoop.mergeUniqueScenes keepFirst
    cases scene.sceneId with
    | none => exact congrArg (scene :: ·) (ih seen)
    | some key =>
      by_cases hseen : key ∈ seen
      · simp only [if_pos hseen, ih]
      · simp only [if_neg hseen, ih]

/-- It drops the same scenes, of which it sees the ids. -/
theorem mergeUniqueScenes_ids (scenes : List Json) :
    (keepFirst SceneMerge.mergeKey [] scenes).map (Scene.mk ∘ SceneMerge.mergeKey)
      = BoundedLoop.mergeUniqueScenes [] (scenes.map (Scene.mk ∘ SceneMerge.mergeKey)) := by
  have hkey : ∀ scene, (Scene.mk (SceneMerge.mergeKey scene)).sceneId
      = SceneMerge.mergeKey scene := fun _ => rfl
  rw [mergeUniqueScenes_eq_keepFirst]
  exact map_keepFirst hkey scenes []

/-- The merge of the memoir loop, all of whose scenes have an id. -/
theorem mergeScenes_eq_keepFirst (scenes : List BatchScene) : ∀ seen,
    BoundedLoop.mergeScenes seen scenes
      = keepFirst (fun scene : BatchScene => some scene.sceneId) seen scenes := by
  induction scenes with
  | nil => intro seen; rfl
  | cons scene scenes ih =>
    intro seen
    unfold BoundedLoop.mergeScenes keepFirst
    by_cases hseen : scene.sceneId ∈ seen
    · simp only [if_pos hseen, ih]
    · simp only [if_neg hseen, ih]

end AgentRuntime
