import AgentRuntime.PlaybackDocument
import AgentRuntime.ToolResults

/-!
# The semantic validator

`SemanticValidator.validate` goes through a value that has met its schema: no
key of the control plane at any depth, only trusted references, and, where the
value holds scenes, actions or stats, that these fit together. What it finds
comes out as error codes; `validate_uncontained` says when it finds nothing in a
value that holds none of the three.

A membership test raises a `TypeError` for a value that cannot be hashed.
-/

namespace AgentRuntime

open PlaybackDocument

/-- `dict.get(key)`, where what is not there is `None`. -/
def Json.getOr (key : String) (fields : JsonFields) : Json :=
  (Json.get? key fields).getD .null

/-- A value that is not `None`. -/
def Json.given : Json → Option Json
  | .null => none
  | value => some value

/-- `a == b`, of two sets given by their members. -/
def sameMembers (a b : List String) : Bool :=
  a.all (fun s => decide (s ∈ b)) && b.all fun s => decide (s ∈ a)

/-- `SemanticValidationResult`. -/
structure SemanticResult where
  errorCodes : List String
  sourceRefCount : Nat := 0
  normalizedValue : Option JsonFields := none

def SemanticResult.valid (result : SemanticResult) : Bool := result.errorCodes.isEmpty

namespace SemanticValidator

/-- `_FORBIDDEN_CONTROL_FIELDS`. -/
def forbiddenControlFields : List String :=
  ["url", "endpoint", "connector", "connector_id", "permission", "callback_target",
   "authorization", "authorization_version", "privacy", "privacy_version", "generation",
   "generation_epoch", "fencing_token", "execution_attempt", "run_id", "package_digest",
   "contract_version", "secret", "token", "access_token", "api_key", "password",
   "owner_id", "owner_scope", "tenant_id", "user_id"]

/-- `_STAT_KEYS`. -/
def statKeys : List String := ["diary_count", "bet_count", "has_material"]

/-- A key of the control plane, in an object. -/
def hasForbiddenKey : Json → Bool
  | .obj fields => fields.any fun field => decide (lowerKey field.1 ∈ forbiddenControlFields)
  | _ => false

/-- `_contains_forbidden_control_field`. -/
def containsForbiddenControlField (value : Json) : Bool := value.anyInside hasForbiddenKey

/-- Whether the value is one of the references. -/
def isTrusted (trustedRefs : List String) : Json → Bool
  | .str ref => decide (ref ∈ trustedRefs)
  | _ => false

/-- Whether the value is a list of trusted references. -/
def areTrusted (trustedRefs : List String) : Json → Bool
  | .arr refs => refs.all (isTrusted trustedRefs)
  | _ => false

/-- What a list of references has to say about itself. -/
def refErrors (trustedRefs : List String) (fields : JsonFields) : List String :=
  if areTrusted trustedRefs ((Json.get? "source_refs" fields).getD (.arr [])) then []
  else ["UNKNOWN_SOURCE_REF"]

/-- The id under a key, where it is a text of its own; `seen` are the ids before. -/
def freshId (key : String) (seen : List String) (fields : JsonFields) : Option String :=
  match Json.get? key fields with
  | some (.str id) => if id = "" ∨ id ∈ seen then none else some id
  | _ => none

/-- The scenes of a container: their ids, and the errors. -/
def containedScenes (trustedRefs : List String) :
    List String → List Json → List String × List String
  | seen, [] => (seen, [])
  | seen, .obj scene :: scenes =>
    match freshId "scene_id" seen scene with
    | some id =>
      let rest := containedScenes trustedRefs (seen ++ [id]) scenes
      (rest.1, refErrors trustedRefs scene ++ rest.2)
    | none =>
      let rest := containedScenes trustedRefs seen scenes
      (rest.1, ["SCENE_ID_INVALID"] ++ refErrors trustedRefs scene ++ rest.2)
  | seen, _ :: scenes =>
    let rest := containedScenes trustedRefs seen scenes
    (rest.1, "SCENE_INVALID" :: rest.2)

/-- The scene an action of a container is about. -/
def actionScene (sceneIds : List String) (action : JsonFields) : Option String :=
  match Json.get? "scene_id" action with
  | some (.str id) => if id ∈ sceneIds then some id else none
  | _ => none

/-- The actions of a container: the scenes they cover, and the errors. -/
def containedActions (sceneIds : List String) : List Json → Result (List String × List String)
  | [] => pure ([], [])
  | .obj action :: actions => do
    let typed ← (Json.getOr "action_type" action).memberOf actionTypes
    let rest ← containedActions sceneIds actions
    let scene := actionScene sceneIds action
    pure (scene.toList ++ rest.1,
      (if scene.isNone then ["ACTION_SCENE_REF_INVALID"] else []) ++
        (if typed then [] else ["ACTION_TYPE_INVALID"]) ++
        (if (positiveInt (Json.getOr "duration_ms" action)).isNone then ["INVALID_DURATION"]
          else []) ++ rest.2)
  | _ :: actions => do
    let rest ← containedActions sceneIds actions
    pure (rest.1, "ACTION_INVALID" :: rest.2)

/-- The actions next to `count` scenes with these ids. -/
def actionErrors (count : Nat) (sceneIds : List String) (actions : Json) :
    Result (List String) := do
  let items := match actions with
    | .arr items => if items.length = count then some items else none
    | _ => none
  let covered ← containedActions sceneIds (items.getD [])
  pure ((if items.isNone then ["ACTION_COMPLETENESS_INVALID"] else []) ++ covered.2 ++
    if sameMembers covered.1 sceneIds then [] else ["ACTION_COMPLETENESS_INVALID"])

/-- The scenes of a container and the actions next to them. -/
def sceneErrors (trustedRefs : List String) (value : JsonFields) (scenes : Json) :
    Result (List String) := do
  let items := match scenes with
    | .arr items => if 3 ≤ items.length then some items else none
    | _ => none
  let found := containedScenes trustedRefs [] (items.getD [])
  let errors := (if items.isNone then ["SCENE_COUNT_INVALID"] else []) ++ found.2
  match (Json.getOr "actions" value).given with
  | none => pure errors
  | some actions => do
    let more ← actionErrors (items.getD []).length found.1 actions
    pure (errors ++ more)

/-- A count of the stats. -/
def isCount : Json → Bool
  | .int n => decide (0 ≤ n)
  | _ => false

def isFlag : Json → Bool
  | .bool _ => true
  | _ => false

def statErrors : Json → List String
  | .obj stats =>
    if stats.all fun field => decide (field.1 ∈ statKeys) then
      (["diary_count", "bet_count"].flatMap fun key =>
        if isCount (Json.getOr key stats) then [] else ["INVALID_STAT_COUNT"]) ++
        if isFlag (Json.getOr "has_material" stats) then [] else ["INVALID_STATS"]
    else ["INVALID_STATS"]
  | _ => ["INVALID_STATS"]

/-- `_validate_container`. -/
def validateContainer (trustedRefs : List String) (value : JsonFields) : Result (List String) := do
  let scenes ← match (Json.getOr "scenes" value).given with
    | none => pure []
    | some scenes => sceneErrors trustedRefs value scenes
  pure (scenes ++
    match (Json.getOr "stats" value).given with
    | none => []
    | some stats => statErrors stats)

/-- What a value says of itself, without the containers in it. -/
def ownErrors (trustedRefs : List String) (value : JsonFields) : List String :=
  (if containsForbiddenControlField (.obj value) then ["FORBIDDEN_CONTROL_FIELD"] else []) ++
    (if (Json.get? "tool_params" value).isSome then ["TOOL_PARAMETERS_FORBIDDEN"] else []) ++
    refErrors trustedRefs value ++
    match (Json.getOr "duration_ms" value).given with
    | none => []
    | some duration => if (positiveInt duration).isNone then ["INVALID_DURATION"] else []

/-- How many references a value has. -/
def sourceRefCount (value : JsonFields) : Nat :=
  match Json.get? "source_refs" value with
  | some (.arr refs) => refs.length
  | _ => 0

/-- `validate`. -/
def validate (trustedRefs : List String) : Json → Result SemanticResult
  | .obj value => do
    let container ← validateContainer trustedRefs value
    let errors := (ownErrors trustedRefs value ++ container).eraseDups
    pure ⟨errors, sourceRefCount value, if errors = [] then some value else none⟩
  | _ => pure ⟨["SEMANTIC_VALUE_INVALID"], 0, none⟩

/-! ## What it finds -/

theorem eraseDups_eq_nil {l : List String} : l.eraseDups = [] ↔ l = [] := by
  cases l with
  | nil => exact iff_of_true rfl rfl
  | cons a l =>
    rw [List.eraseDups_cons]
    exact iff_of_false (List.cons_ne_nil _ _) (List.cons_ne_nil _ _)

theorem refErrors_eq_nil {trustedRefs : List String} {fields : JsonFields} :
    refErrors trustedRefs fields = [] ↔
      areTrusted trustedRefs ((Json.get? "source_refs" fields).getD (.arr [])) = true := by
  unfold refErrors
  by_cases h : areTrusted trustedRefs ((Json.get? "source_refs" fields).getD (.arr [])) = true
  · rw [if_pos h]
    exact iff_of_true rfl h
  · rw [if_neg h]
    exact iff_of_false (List.cons_ne_nil _ _) h

/-- A list of trusted references, as strings. -/
theorem areTrusted_arr {trustedRefs : List String} : ∀ {refs : List Json},
    areTrusted trustedRefs (.arr refs) = true →
      ∃ names : List String, refs = names.map .str ∧ ∀ ref ∈ names, ref ∈ trustedRefs
  | [], _ => ⟨[], rfl, fun ref href => by cases href⟩
  | value :: refs, h => by
    have hall : (isTrusted trustedRefs value && refs.all (isTrusted trustedRefs)) = true := h
    rw [Bool.and_eq_true] at hall
    obtain ⟨names, hnames, htrusted⟩ := @areTrusted_arr trustedRefs refs hall.2
    cases value with
    | str ref =>
      refine ⟨ref :: names, by rw [hnames, List.map_cons], fun other hother => ?_⟩
      rcases List.mem_cons.mp hother with hsame | hother
      · rw [hsame]
        exact of_decide_eq_true hall.1
      · exact htrusted other hother
    | _ => cases hall.1

/-- A value that holds no scenes and no stats. -/
structure Uncontained (value : JsonFields) : Prop where
  scenes : Json.get? "scenes" value = none
  stats : Json.get? "stats" value = none

theorem validateContainer_uncontained {trustedRefs : List String} {value : JsonFields}
    (h : Uncontained value) : validateContainer trustedRefs value = .ok [] := by
  unfold validateContainer Json.getOr
  rw [h.scenes, h.stats]
  rfl

/-- Such a value is checked for what it says of itself. -/
theorem validate_uncontained {trustedRefs : List String} {value : JsonFields}
    (h : Uncontained value) :
    ∃ result, validate trustedRefs (.obj value) = .ok result ∧
      result.errorCodes = (ownErrors trustedRefs value).eraseDups := by
  unfold validate
  dsimp only
  rw [validateContainer_uncontained h]
  refine ⟨_, rfl, ?_⟩
  show (ownErrors trustedRefs value ++ []).eraseDups = _
  rw [List.append_nil]

/-- A value in which nothing is found has trusted references only. -/
theorem refs_of_valid {trustedRefs : List String} {value : JsonFields} {result : SemanticResult}
    (h : validate trustedRefs (.obj value) = .ok result) (hvalid : result.errorCodes = []) :
    areTrusted trustedRefs ((Json.get? "source_refs" value).getD (.arr [])) = true := by
  unfold validate at h
  obtain ⟨container, -, h⟩ := bind_ok.mp h
  cases h
  have hnone := eraseDups_eq_nil.mp hvalid
  have hown := (List.append_eq_nil_iff.mp hnone).1
  unfold ownErrors at hown
  have hrefs := (List.append_eq_nil_iff.mp (List.append_eq_nil_iff.mp hown).1).2
  exact refErrors_eq_nil.mp hrefs

end SemanticValidator

end AgentRuntime
