import AgentRuntime.Lease
import AgentRuntime.MemoirGateway
import AgentRuntime.TextPatterns

/-!
# The results of tools

`ToolGateway.apply_result` is where the output of a business tool comes into
the state of a run: the lease, the schema of the manifest, the texts, the
field and the keys are looked at in this order, and the value is assigned
last. What comes through is confined (`apply_result_confined`): one field
has changed, and nothing inside the value is a key or a text that the checks
are for.

Both of the recursive checks ask whether something is inside of a value
(`anyInside_iff`), whatever it is nested in.

Mirroring notes:
- A value that is nested too deeply for Python raises `RecursionError` in one
  of the checks, before anything is assigned.
- The logs are left out.
-/

namespace AgentRuntime

open Regex

/-! ## Inside a value -/

/-- `part` is the value, or inside of it at any depth. -/
inductive Json.Inside (part : Json) : Json → Prop
  | self : Inside part part
  | field {key : String} {value : Json} {fields : JsonFields} :
    (key, value) ∈ fields → Inside part value → Inside part (.obj fields)
  | item {value : Json} {items : List Json} :
    value ∈ items → Inside part value → Inside part (.arr items)

mutual

/-- Whether something inside of the value meets the test. -/
def Json.anyInside (test : Json → Bool) : Json → Bool
  | .obj fields => test (.obj fields) || Json.anyInsideFields test fields
  | .arr items => test (.arr items) || Json.anyInsideItems test items
  | .null => test .null
  | .bool b => test (.bool b)
  | .int n => test (.int n)
  | .real mantissa scale => test (.real mantissa scale)
  | .str s => test (.str s)

def Json.anyInsideFields (test : Json → Bool) : JsonFields → Bool
  | [] => false
  | (_, value) :: fields => Json.anyInside test value || Json.anyInsideFields test fields

def Json.anyInsideItems (test : Json → Bool) : List Json → Bool
  | [] => false
  | value :: items => Json.anyInside test value || Json.anyInsideItems test items

end

/-- A value without parts meets the test, or nothing inside of it does. -/
theorem anyInside_leaf {test : Json → Bool} {value : Json}
    (h : ∀ part : Json, part.Inside value → part = value) :
    test value = true ↔ ∃ part : Json, part.Inside value ∧ test part = true := by
  constructor
  · intro htest
    exact ⟨value, .self, htest⟩
  · rintro ⟨part, hpart, htest⟩
    exact h part hpart ▸ htest

mutual

theorem anyInside_iff {test : Json → Bool} : ∀ {value : Json},
    value.anyInside test = true ↔ ∃ part, part.Inside value ∧ test part = true
  | .obj fields => by
    rw [Json.anyInside, Bool.or_eq_true, anyInsideFields_iff]
    constructor
    · rintro (hself | ⟨key, value, hmem, part, hpart, htest⟩)
      · exact ⟨_, .self, hself⟩
      · exact ⟨part, .field hmem hpart, htest⟩
    · rintro ⟨part, hpart, htest⟩
      cases hpart with
      | self => exact Or.inl htest
      | field hmem hpart => exact Or.inr ⟨_, _, hmem, part, hpart, htest⟩
  | .arr items => by
    rw [Json.anyInside, Bool.or_eq_true, anyInsideItems_iff]
    constructor
    · rintro (hself | ⟨value, hmem, part, hpart, htest⟩)
      · exact ⟨_, .self, hself⟩
      · exact ⟨part, .item hmem hpart, htest⟩
    · rintro ⟨part, hpart, htest⟩
      cases hpart with
      | self => exact Or.inl htest
      | item hmem hpart => exact Or.inr ⟨_, hmem, part, hpart, htest⟩
  | .null => by
    rw [Json.anyInside]
    refine anyInside_leaf fun part hpart => ?_
    cases hpart
    rfl
  | .bool _ => by
    rw [Json.anyInside]
    refine anyInside_leaf fun part hpart => ?_
    cases hpart
    rfl
  | .int _ => by
    rw [Json.anyInside]
    refine anyInside_leaf fun part hpart => ?_
    cases hpart
    rfl
  | .real _ _ => by
    rw [Json.anyInside]
    refine anyInside_leaf fun part hpart => ?_
    cases hpart
    rfl
  | .str _ => by
    rw [Json.anyInside]
    refine anyInside_leaf fun part hpart => ?_
    cases hpart
    rfl

theorem anyInsideFields_iff {test : Json → Bool} : ∀ {fields : JsonFields},
    Json.anyInsideFields test fields = true ↔ ∃ key value, (key, value) ∈ fields ∧
      ∃ part, part.Inside value ∧ test part = true
  | [] => by
    refine iff_of_false Bool.false_ne_true ?_
    rintro ⟨_, _, hmem, -⟩
    cases hmem
  | (key, value) :: fields => by
    rw [Json.anyInsideFields, Bool.or_eq_true, anyInside_iff, anyInsideFields_iff]
    constructor
    · rintro (hfirst | ⟨key', value', hmem, hrest⟩)
      · exact ⟨key, value, List.mem_cons_self, hfirst⟩
      · exact ⟨key', value', List.mem_cons_of_mem _ hmem, hrest⟩
    · rintro ⟨key', value', hmem, hinside⟩
      rcases List.mem_cons.mp hmem with hsame | hmem
      · cases hsame
        exact Or.inl hinside
      · exact Or.inr ⟨key', value', hmem, hinside⟩

theorem anyInsideItems_iff {test : Json → Bool} : ∀ {items : List Json},
    Json.anyInsideItems test items = true ↔ ∃ value ∈ items,
      ∃ part, part.Inside value ∧ test part = true
  | [] => by
    refine iff_of_false Bool.false_ne_true ?_
    rintro ⟨_, hmem, -⟩
    cases hmem
  | value :: items => by
    rw [Json.anyInsideItems, Bool.or_eq_true, anyInside_iff, anyInsideItems_iff,
      List.exists_mem_cons_iff]

end

/-- A key that a tool may not write, in an object. -/
def hasSensitiveKey : Json → Bool
  | .obj fields => fields.any fun field => decide (lowerKey field.1 ∈ sensitiveToolOutputKeys)
  | _ => false

mutual

theorem containsSensitiveToolKey_eq : ∀ value : Json,
    containsSensitiveToolKey value = value.anyInside hasSensitiveKey
  | .obj fields => by
    rw [containsSensitiveToolKey, Json.anyInside, anySensitiveField_eq]
  | .arr items => by
    have hlist : hasSensitiveKey (.arr items) = false := rfl
    rw [containsSensitiveToolKey, Json.anyInside, anySensitiveItem_eq, hlist, Bool.false_or]
  | .null => rfl
  | .bool _ => rfl
  | .int _ => rfl
  | .real _ _ => rfl
  | .str _ => rfl

theorem anySensitiveField_eq : ∀ fields : JsonFields,
    anySensitiveField fields =
      (hasSensitiveKey (.obj fields) || Json.anyInsideFields hasSensitiveKey fields)
  | [] => rfl
  | (key, value) :: fields => by
    have hkeys : hasSensitiveKey (.obj ((key, value) :: fields))
        = (decide (lowerKey key ∈ sensitiveToolOutputKeys) || hasSensitiveKey (.obj fields)) := rfl
    rw [anySensitiveField, Json.anyInsideFields, containsSensitiveToolKey_eq, anySensitiveField_eq,
      hkeys]
    -- the first key, the first value, the other keys, the other values
    cases decide (lowerKey key ∈ sensitiveToolOutputKeys) <;>
      cases value.anyInside hasSensitiveKey <;> cases hasSensitiveKey (.obj fields) <;> rfl

theorem anySensitiveItem_eq : ∀ items : List Json,
    anySensitiveItem items = Json.anyInsideItems hasSensitiveKey items
  | [] => rfl
  | value :: items => by
    rw [anySensitiveItem, Json.anyInsideItems, containsSensitiveToolKey_eq, anySensitiveItem_eq]

end

/-! ## The texts -/

/-- A text in which `_TOOL_OUTPUT_SENSITIVE` finds something. -/
def isSensitiveText (cc : CharClasses) : Json → Bool
  | .str s => search (sensitiveIdentifier cc) none s.toList
  | _ => false

mutual

/-- `walk`, of `_validate_output`. -/
def walk (cc : CharClasses) : Json → Except String Unit
  | .str s => if isSensitiveText cc (.str s) then .error "TOOL_OUTPUT_SENSITIVE" else .ok ()
  | .null => .ok ()
  | .bool _ => .ok ()
  | .int _ => .ok ()
  | .real _ _ => .ok ()
  | .arr items => walkItems cc items
  | .obj fields => walkValues cc fields

def walkItems (cc : CharClasses) : List Json → Except String Unit
  | [] => .ok ()
  | item :: items => do
    walk cc item
    walkItems cc items

def walkValues (cc : CharClasses) : JsonFields → Except String Unit
  | [] => .ok ()
  | (_, item) :: fields => do
    walk cc item
    walkValues cc fields

end

mutual

/-- A walk comes to its end where nothing inside is a sensitive text. -/
theorem walk_ok (cc : CharClasses) : ∀ {value : Json}, walk cc value = .ok () →
    value.anyInside (isSensitiveText cc) = false
  | .str s, h => by
    rw [walk] at h
    split at h
    · cases h
    next hclean => exact Bool.eq_false_iff.mpr hclean
  | .null, _ => rfl
  | .bool _, _ => rfl
  | .int _, _ => rfl
  | .real _ _, _ => rfl
  | .arr items, h => by
    rw [walk] at h
    have hself : isSensitiveText cc (.arr items) = false := rfl
    rw [Json.anyInside, hself, Bool.false_or]
    exact walkItems_ok cc h
  | .obj fields, h => by
    rw [walk] at h
    have hself : isSensitiveText cc (.obj fields) = false := rfl
    rw [Json.anyInside, hself, Bool.false_or]
    exact walkValues_ok cc h

theorem walkItems_ok (cc : CharClasses) : ∀ {items : List Json}, walkItems cc items = .ok () →
    Json.anyInsideItems (isSensitiveText cc) items = false
  | [], _ => rfl
  | item :: items, h => by
    obtain ⟨_, hitem, hrest⟩ := MemoirNodeRunner.ok_of_bind h
    rw [Json.anyInsideItems, walk_ok cc hitem, walkItems_ok cc hrest]
    rfl

theorem walkValues_ok (cc : CharClasses) : ∀ {fields : JsonFields}, walkValues cc fields = .ok () →
    Json.anyInsideFields (isSensitiveText cc) fields = false
  | [], _ => rfl
  | (_, item) :: fields, h => by
    obtain ⟨_, hitem, hrest⟩ := MemoirNodeRunner.ok_of_bind h
    rw [Json.anyInsideFields, walk_ok cc hitem, walkValues_ok cc hrest]
    rfl

end

/-! ## The schema -/

/-- `ToolManifest`, as far as the results are concerned. -/
structure ToolManifest where
  name : String
  outputTo : Option String := none
  outputSchema : JsonFields := []

/-- `_matches_schema_type`. -/
def matchesSchemaType (value : Json) (rule : JsonFields) : Bool :=
  if !rule.isEmpty && rule.all fun field => decide (field.1 = "type") then
    match Json.get? "type" rule, value with
    | some (.str "string"), .str _ => true
    | some (.str "number"), .int _ => true
    | some (.str "number"), .real _ _ => true
    | some (.str "integer"), .int _ => true
    | some (.str "boolean"), .bool _ => true
    | some (.str "object"), .obj _ => true
    | some (.str "array"), .arr _ => true
    | some (.str "null"), .null => true
    | _, _ => false
  else false

/-- The rules of a schema, where every one of them is an object. -/
def propertyRules : JsonFields → Option (List (String × JsonFields))
  | [] => some []
  | (name, .obj rule) :: properties => (propertyRules properties).map ((name, rule) :: ·)
  | _ :: _ => none

/-- What a schema may say: the rules of the properties, the required names, and
whether other names are allowed. -/
structure ObjectSchema where
  properties : List (String × JsonFields)
  required : List String
  additionalProperties : Bool

/-- The keywords of a schema. -/
def schemaKeywords : List String := ["type", "required", "properties", "additionalProperties"]

/-- `schema.get("type") == "object"`. -/
def isObjectSchema (schema : JsonFields) : Bool :=
  match Json.get? "type" schema with
  | some (.str "object") => true
  | _ => false

/-- The first half of `_validate_output_schema`: the schema is one of the kind
that is known. -/
def objectSchema (schema : JsonFields) : Option ObjectSchema :=
  if isObjectSchema schema && schema.all fun field => decide (field.1 ∈ schemaKeywords) then
    match (Json.get? "properties" schema).getD (.obj []),
      (Json.get? "required" schema).getD (.arr []),
      (Json.get? "additionalProperties" schema).getD (.bool true) with
    | .obj properties, .arr required, .bool additional => do
      let rules ← propertyRules properties
      let names ← required.mapM Json.str?
      if names.all fun name => decide (name ∈ rules.map Prod.fst) then
        some ⟨rules, names, additional⟩
      else none
    | _, _, _ => none
  else none

/-- `_validate_output_schema`. -/
def validateOutputSchema (schema : JsonFields) (output : Json) : Except String Unit :=
  match output, objectSchema schema with
  | .obj fields, some known =>
    if !known.required.all fun name => decide (name ∈ fields.map Prod.fst) then
      .error "TOOL_OUTPUT_SCHEMA_INVALID"
    else if !known.additionalProperties &&
        !fields.all fun field => decide (field.1 ∈ known.properties.map Prod.fst) then
      .error "TOOL_OUTPUT_SCHEMA_INVALID"
    else if !fields.all fun field =>
        (known.properties.lookup field.1).all (matchesSchemaType field.2) then
      .error "TOOL_OUTPUT_SCHEMA_INVALID"
    else .ok ()
  | _, _ => .error "TOOL_OUTPUT_SCHEMA_INVALID"

/-- What it is for a type of the schema to be the type of a value. -/
inductive HasSchemaType : String → Json → Prop
  | string (s : String) : HasSchemaType "string" (.str s)
  | wholeNumber (n : Int) : HasSchemaType "number" (.int n)
  | number (mantissa : Int) (scale : Nat) : HasSchemaType "number" (.real mantissa scale)
  | integer (n : Int) : HasSchemaType "integer" (.int n)
  | boolean (b : Bool) : HasSchemaType "boolean" (.bool b)
  | object (fields : JsonFields) : HasSchemaType "object" (.obj fields)
  | array (items : List Json) : HasSchemaType "array" (.arr items)
  | null : HasSchemaType "null" .null

/-- The value is an object as the schema of the manifest describes it: its
required fields are there, others only where they are allowed, and a field that
has a rule has the type that the rule names and says nothing else. -/
structure MeetsSchema (schema : JsonFields) (fields : JsonFields) : Prop where
  known : ∃ known, objectSchema schema = some known ∧
    (∀ name ∈ known.required, name ∈ fields.map Prod.fst) ∧
    (known.additionalProperties = false →
      ∀ field ∈ fields, field.1 ∈ known.properties.map Prod.fst) ∧
    ∀ field ∈ fields, ∀ rule, known.properties.lookup field.1 = some rule →
      (∀ keyword ∈ rule, keyword.1 = "type") ∧
        ∃ type, Json.get? "type" rule = some (.str type) ∧ HasSchemaType type field.2

theorem hasSchemaType_of_matches {value : Json} {rule : JsonFields}
    (h : matchesSchemaType value rule = true) : (∀ keyword ∈ rule, keyword.1 = "type") ∧
      ∃ type, Json.get? "type" rule = some (.str type) ∧ HasSchemaType type value := by
  unfold matchesSchemaType at h
  split at h
  next hrule =>
    refine ⟨fun keyword hmem => ?_, ?_⟩
    · have hall := (Bool.and_eq_true_iff.mp hrule).2
      exact of_decide_eq_true (List.all_eq_true.mp hall keyword hmem)
    split at h
    next htype => exact ⟨_, htype, .string _⟩
    next htype => exact ⟨_, htype, .wholeNumber _⟩
    next htype => exact ⟨_, htype, .number _ _⟩
    next htype => exact ⟨_, htype, .integer _⟩
    next htype => exact ⟨_, htype, .boolean _⟩
    next htype => exact ⟨_, htype, .object _⟩
    next htype => exact ⟨_, htype, .array _⟩
    next htype => exact ⟨_, htype, .null⟩
    · cases h
  · cases h

/-- A value that passes is an object that meets the schema. -/
theorem validateOutputSchema_ok {schema : JsonFields} {output : Json}
    (h : validateOutputSchema schema output = .ok ()) :
    ∃ fields, output = .obj fields ∧ MeetsSchema schema fields := by
  unfold validateOutputSchema at h
  split at h
  next fields known hknown =>
    split at h
    · cases h
    next hrequired =>
    split at h
    · cases h
    next hadditional =>
    split at h
    · cases h
    next htypes =>
    rw [Bool.not_eq_true', Bool.not_eq_false] at hrequired htypes
    refine ⟨fields, rfl, known, hknown, fun name hname => ?_, fun hclosed field hfield => ?_,
      fun field hfield rule hrule => ?_⟩
    · exact of_decide_eq_true (List.all_eq_true.mp hrequired name hname)
    · rw [hclosed, Bool.not_false, Bool.true_and, Bool.not_eq_true', Bool.not_eq_false] at hadditional
      exact of_decide_eq_true (List.all_eq_true.mp hadditional field hfield)
    · have hmatch := List.all_eq_true.mp htypes field hfield
      rw [hrule] at hmatch
      exact hasSchemaType_of_matches hmatch
  · cases h

/-! ## The state -/

/-- `AgentState`. -/
structure AgentState where
  runInput : JsonFields := []
  snapshot : Option JsonFields := none
  sanitizedMaterial : Option JsonFields := none
  stats : Option JsonFields := none
  highlights : Option JsonFields := none
  chapterPlan : Option JsonFields := none
  scenes : Option (List JsonFields) := none
  actions : Option (List JsonFields) := none
  playbackDocument : Option JsonFields := none
  publishResult : Option JsonFields := none
  mediaTasks : Option (List JsonFields) := none
  safetyReport : Option JsonFields := none
  trustMetadata : List (String × String) := []
  errors : List String := []
  fallbackFlags : List String := []
  completedNodeIds : List String := []

/-- The fields that a tool may write. -/
inductive OutputField
  | snapshot | sanitizedMaterial | stats | highlights | chapterPlan | scenes | actions
  | playbackDocument | publishResult | mediaTasks | safetyReport
  deriving DecidableEq

namespace OutputField

def name : OutputField → String
  | snapshot => "snapshot"
  | sanitizedMaterial => "sanitized_material"
  | stats => "stats"
  | highlights => "highlights"
  | chapterPlan => "chapter_plan"
  | scenes => "scenes"
  | actions => "actions"
  | playbackDocument => "playback_document"
  | publishResult => "publish_result"
  | mediaTasks => "media_tasks"
  | safetyReport => "safety_report"

/-- `SAFE_TOOL_OUTPUT_FIELDS`. -/
def all : List OutputField :=
  [snapshot, sanitizedMaterial, stats, highlights, chapterPlan, scenes, actions,
   playbackDocument, publishResult, mediaTasks, safetyReport]

def ofName (name : String) : Option OutputField :=
  all.find? fun field => decide (field.name = name)

theorem ofName_some {name : String} {field : OutputField} (h : ofName name = some field) :
    field.name = name := by
  unfold ofName at h
  have hsame := List.find?_some h
  exact of_decide_eq_true hsame

/-- A field of type `dict[str, Any] | None`. -/
def ofDict : Json → Option (Option JsonFields)
  | .null => some none
  | .obj fields => some (some fields)
  | _ => none

/-- A field of type `list[dict[str, Any]] | None`. -/
def ofDicts : Json → Option (Option (List JsonFields))
  | .null => some none
  | .arr items => (items.mapM MemoirModelGatewayAdapter.mapping).map some
  | _ => none

/-- The state with the field validated and assigned; `none` where the
validation raises. -/
def assign (state : AgentState) (output : Json) : OutputField → Option AgentState
  | snapshot => (ofDict output).map fun v => { state with snapshot := v }
  | sanitizedMaterial => (ofDict output).map fun v => { state with sanitizedMaterial := v }
  | stats => (ofDict output).map fun v => { state with stats := v }
  | highlights => (ofDict output).map fun v => { state with highlights := v }
  | chapterPlan => (ofDict output).map fun v => { state with chapterPlan := v }
  | scenes => (ofDicts output).map fun v => { state with scenes := v }
  | actions => (ofDicts output).map fun v => { state with actions := v }
  | playbackDocument => (ofDict output).map fun v => { state with playbackDocument := v }
  | publishResult => (ofDict output).map fun v => { state with publishResult := v }
  | mediaTasks => (ofDicts output).map fun v => { state with mediaTasks := v }
  | safetyReport => (ofDict output).map fun v => { state with safetyReport := v }

end OutputField

namespace AgentState

/-- A value as JSON. -/
def dict : Option JsonFields → Json
  | none => .null
  | some fields => .obj fields

def dicts : Option (List JsonFields) → Json
  | none => .null
  | some items => .arr (items.map .obj)

/-- A field of the state as JSON. -/
def read (state : AgentState) : OutputField → Json
  | .snapshot => dict state.snapshot
  | .sanitizedMaterial => dict state.sanitizedMaterial
  | .stats => dict state.stats
  | .highlights => dict state.highlights
  | .chapterPlan => dict state.chapterPlan
  | .scenes => dicts state.scenes
  | .actions => dicts state.actions
  | .playbackDocument => dict state.playbackDocument
  | .publishResult => dict state.publishResult
  | .mediaTasks => dicts state.mediaTasks
  | .safetyReport => dict state.safetyReport

/-- The fields no tool may write are the same. -/
structure SameControl (state state' : AgentState) : Prop where
  runInput : state'.runInput = state.runInput
  trustMetadata : state'.trustMetadata = state.trustMetadata
  errors : state'.errors = state.errors
  fallbackFlags : state'.fallbackFlags = state.fallbackFlags
  completedNodeIds : state'.completedNodeIds = state.completedNodeIds

/-- `apply_tool_output`. -/
def applyToolOutput (state : AgentState) (outputTo : String) (output : Json) :
    Except String Unit × AgentState :=
  match OutputField.ofName outputTo with
  | none => (.error "TOOL_OUTPUT_TARGET_FORBIDDEN", state)
  | some field =>
    if containsSensitiveToolKey output then (.error "TOOL_OUTPUT_SENSITIVE_FIELD", state)
    else
      match field.assign state output with
      | none => (.error "ValidationError", state)
      | some state' => (.ok (), state')

end AgentState

/-- `apply_result`, and the state after it. -/
def ToolGateway.applyResult (cc : CharClasses) (manifest : ToolManifest) (output : Json)
    (state : AgentState) (db : Db) (now : Time) (runId : String) (lease : LeaseContext) :
    Except String Unit × AgentState :=
  if LeaseService.canWrite db now runId lease = false then
    (.error "TOOL_RESULT_LEASE_INVALID", state)
  else
    match validateOutputSchema manifest.outputSchema output with
    | .error code => (.error code, state)
    | .ok _ =>
      match walk cc output with
      | .error code => (.error code, state)
      | .ok _ => state.applyToolOutput (manifest.outputTo.getD "") output

/-! ## What comes through -/

theorem read_ofDict {output : Json} {v : Option JsonFields}
    (h : OutputField.ofDict output = some v) : AgentState.dict v = output := by
  unfold OutputField.ofDict at h
  split at h
  · cases h
    rfl
  · cases h
    rfl
  · cases h

theorem map_mapping : ∀ {items : List Json} {fields : List JsonFields},
    items.mapM MemoirModelGatewayAdapter.mapping = some fields → fields.map .obj = items
  | [], _, h => by
    cases h
    rfl
  | item :: items, fields, h => by
    rw [List.mapM_cons] at h
    obtain ⟨first, hfirst, h⟩ := Option.bind_eq_some_iff.mp h
    obtain ⟨rest, hrest, h⟩ := Option.bind_eq_some_iff.mp h
    cases h
    rw [List.map_cons, map_mapping hrest]
    unfold MemoirModelGatewayAdapter.mapping at hfirst
    split at hfirst
    · cases hfirst
      rfl
    · cases hfirst

theorem read_ofDicts {output : Json} {v : Option (List JsonFields)}
    (h : OutputField.ofDicts output = some v) : AgentState.dicts v = output := by
  unfold OutputField.ofDicts at h
  split at h
  · cases h
    rfl
  · obtain ⟨fields, hfields, rfl⟩ := Option.map_eq_some_iff.mp h
    exact congrArg Json.arr (map_mapping hfields)
  · cases h

/-- An assignment writes its field with the value, and nothing else. -/
theorem assign_some {field : OutputField} {state state' : AgentState} {output : Json}
    (h : field.assign state output = some state') : state'.read field = output ∧
      (∀ other, other ≠ field → state'.read other = state.read other) ∧
      state.SameControl state' := by
  have hothers : ∀ {target : OutputField} {next : AgentState},
      (∀ other, other = target ∨ next.read other = state.read other) →
      ∀ other, other ≠ target → next.read other = state.read other :=
    fun hall other hne => (hall other).resolve_left hne
  cases field <;> obtain ⟨v, hv, rfl⟩ := Option.map_eq_some_iff.mp h <;>
    refine ⟨?_, hothers fun other => ?_, ⟨rfl, rfl, rfl, rfl, rfl⟩⟩
  all_goals first
    | exact read_ofDict hv
    | exact read_ofDicts hv
    | cases other <;> first
      | exact Or.inl rfl
      | exact Or.inr rfl

/-- What a state has from a tool whose result came through: the lease was
writable, the value is an object as the manifest says, the field that the
manifest names has the value and nothing else has changed, and inside of the
value there is neither a key of the control plane nor an identifier. -/
structure Admitted (cc : CharClasses) (manifest : ToolManifest) (output : Json)
    (state state' : AgentState) (db : Db) (now : Time) (runId : String) (lease : LeaseContext) :
    Prop where
  writable : LeaseService.canWrite db now runId lease = true
  schema : ∃ fields, output = .obj fields ∧ MeetsSchema manifest.outputSchema fields
  target : ∃ field : OutputField, manifest.outputTo.getD "" = field.name ∧
    state'.read field = output ∧ ∀ other, other ≠ field → state'.read other = state.read other
  control : state.SameControl state'
  keys : ∀ fields : JsonFields, (Json.obj fields).Inside output →
    ∀ field ∈ fields, lowerKey field.1 ∉ sensitiveToolOutputKeys
  texts : ∀ s : String, (Json.str s).Inside output →
    ¬ Occurs (sensitiveIdentifier cc) none s.toList

/-- What the assignment lets through. -/
theorem applyToolOutput_cases (state : AgentState) (outputTo : String) (output : Json) :
    (∃ code, state.applyToolOutput outputTo output = (.error code, state)) ∨
      ∃ field state', state.applyToolOutput outputTo output = (.ok (), state') ∧
        OutputField.ofName outputTo = some field ∧ containsSensitiveToolKey output = false ∧
        field.assign state output = some state' := by
  unfold AgentState.applyToolOutput
  split
  · exact Or.inl ⟨_, rfl⟩
  next field hfield =>
  split
  · exact Or.inl ⟨_, rfl⟩
  next hkeys =>
  split
  · exact Or.inl ⟨_, rfl⟩
  next state' hassign =>
    exact Or.inr ⟨field, state', rfl, hfield, Bool.eq_false_iff.mpr hkeys, hassign⟩

theorem not_inside {test : Json → Bool} {value : Json} (h : value.anyInside test = false)
    {part : Json} (hpart : part.Inside value) : test part = false := by
  refine Bool.eq_false_iff.mpr fun htest => ?_
  rw [anyInside_iff.mpr ⟨part, hpart, htest⟩] at h
  cases h

/-- **The result of a tool is confined.** Whatever the manifest, the value, the
state and the lease, either it is refused and the state is as it was, or it is
admitted. -/
theorem apply_result_confined (cc : CharClasses) (manifest : ToolManifest) (output : Json)
    (state : AgentState) (db : Db) (now : Time) (runId : String) (lease : LeaseContext) :
    (∃ code, ToolGateway.applyResult cc manifest output state db now runId lease
      = (.error code, state)) ∨
    ∃ state', ToolGateway.applyResult cc manifest output state db now runId lease = (.ok (), state') ∧
      Admitted cc manifest output state state' db now runId lease := by
  unfold ToolGateway.applyResult
  split
  · exact Or.inl ⟨_, rfl⟩
  next hlease =>
  split
  · exact Or.inl ⟨_, rfl⟩
  next hschema =>
  split
  · exact Or.inl ⟨_, rfl⟩
  next hwalk =>
  rcases applyToolOutput_cases state (manifest.outputTo.getD "") output with
    hrefused | ⟨field, state', hassigned, hfield, hkeys, hassign⟩
  · exact Or.inl hrefused
  · obtain ⟨hread, hothers, hcontrol⟩ := assign_some hassign
    rw [containsSensitiveToolKey_eq] at hkeys
    refine Or.inr ⟨state', hassigned, ?_⟩
    exact {
      writable := Bool.not_eq_false _ ▸ hlease
      schema := validateOutputSchema_ok hschema
      target := ⟨field, (OutputField.ofName_some hfield).symm, hread, hothers⟩
      control := hcontrol
      keys := by
        intro fields hinside entry hentry hforbidden
        have hnone := not_inside hkeys hinside
        have hany : hasSensitiveKey (.obj fields) = true :=
          List.any_eq_true.mpr ⟨entry, hentry, decide_eq_true hforbidden⟩
        rw [hany] at hnone
        cases hnone
      texts := by
        intro s hinside hoccurs
        have hnone := not_inside (walk_ok cc hwalk) hinside
        rw [show isSensitiveText cc (.str s) = search (sensitiveIdentifier cc) none s.toList from rfl,
          search_iff.mpr hoccurs] at hnone
        cases hnone }

example : (ToolGateway.applyResult asciiClasses
    { name := "memory.get_snapshot", outputTo := some "snapshot", outputSchema := [
        ("type", .str "object"),
        ("properties", .obj [("snapshot_digest", .obj [("type", .str "string")])])] }
    (.obj [("snapshot_digest", .str "safe")]) {} (reach {} claimedRun).db (seconds 1) "run-1"
    sampleContext.leaseContext).1.isOk = true := by
  decide +kernel

end AgentRuntime
