import AgentRuntime.MemoirLoop

/-!
# The view of the materials

`sanitize_materials` turns the snapshot into the materials that the later
nodes see, and `compute_stats` says which of the five types the snapshot has.
A material with a text that may be shown is of one of these types
(`available_of_safe`): only the canonical list gives texts, and both nodes
read the type of its items.

Mirroring notes:
- `redact` stands for the two substitutions of `_sanitize_material_summary`;
  nothing below depends on what they put in.
- The counts in the stats and in the logs are left out.
-/

namespace AgentRuntime

/-- The items of a `dict`. -/
abbrev JsonFields := List (String × Json)

/-- `_MATERIAL_TYPE_ORDER`. -/
def materialTypeOrder : List String :=
  ["diary", "completed_bet", "handbook_note", "matured_wish", "bucket_list_completion"]

/-- `text.strip()`. -/
def stripText (text : String) : String :=
  String.ofList (((text.toList.dropWhile isSpace).reverse.dropWhile isSpace).reverse)

/-- The value under the first of the fields that is there. -/
def firstField (snapshot : JsonFields) (fields : List String) : Option Json :=
  fields.findSome? fun field => Json.get? field snapshot

/-- `detect_envelope_mixing`. -/
def detectEnvelopeMixing (snapshot : JsonFields) : Except String Unit :=
  if (firstField snapshot ["bet_items", "bets"]).isSome &&
      (firstField snapshot ["completed_bet_items", "completed_bets"]).isSome then
    .error "LEGACY_ENVELOPE_MIXED_WITH_CANONICAL"
  else .ok ()

/-! ## What a tool may not write -/

/-- `_SENSITIVE_TOOL_OUTPUT_KEYS`. -/
def sensitiveToolOutputKeys : List String :=
  ["identity", "caller_id", "tenant_id", "user_id", "authorization", "authorization_version",
   "permission", "privacy", "privacy_version", "connector", "connector_id", "endpoint", "url",
   "generation", "generation_epoch", "execution_attempt", "fencing_token", "run_id", "step_id",
   "version", "contract_version", "package_digest", "callback_target", "idempotency_key",
   "secret", "token", "access_token", "api_key", "password"]

/-- `key.lower()`, of the letters that become one of `a` to `z`. -/
def lowerKey (key : String) : String :=
  String.ofList (key.toList.map fun c => if c = '\u212a' then 'k' else c.toLower)

mutual

/-- `_contains_sensitive_tool_key`. -/
def containsSensitiveToolKey : Json → Bool
  | .obj fields => anySensitiveField fields
  | .arr items => anySensitiveItem items
  | _ => false

def anySensitiveField : List (String × Json) → Bool
  | [] => false
  | (key, nested) :: fields =>
    decide (lowerKey key ∈ sensitiveToolOutputKeys) || containsSensitiveToolKey nested ||
      anySensitiveField fields

def anySensitiveItem : List Json → Bool
  | [] => false
  | item :: items => containsSensitiveToolKey item || anySensitiveItem items

end

/-- `apply_tool_output`, to a field that a tool may write. -/
def applyToolOutput (output : Json) : Except String Json :=
  if containsSensitiveToolKey output then .error "TOOL_OUTPUT_SENSITIVE_FIELD" else .ok output

/-! ## The materials -/

namespace MemoirNodeRunner

section

variable (redact : String → String) (floatText : Json.FloatText)

/-- `_sanitize_material_summary`. -/
def sanitizeMaterialSummary (content : String) (limit : Nat) : String :=
  firstChars limit (stripText (redact content))

/-- An entry of the view. -/
def materialEntry (sourceRef materialType : String) (sensitive : Bool) (more : JsonFields) : Json :=
  .obj ([("source_ref", .str sourceRef), ("type", .str materialType),
    ("sensitive", .bool sensitive)] ++ more)

/-- An image that is passed on. -/
def materialImage : Json → Option Json
  | .obj item =>
    if item.all (fun f => decide (f.1 ∈ ["photo_id", "object_key", "mime"])) then do
      let photoId ← (Json.get? "photo_id" item).bind Json.str?
      let objectKey ← (Json.get? "object_key" item).bind Json.str?
      let mime ← (Json.get? "mime" item).bind Json.str?
      if photoId ≠ "" ∧ objectKey ≠ "" ∧ mime ∈ ["image/jpeg", "image/png", "image/webp"] then
        some (.obj [("photo_id", .str photoId), ("object_key", .str objectKey), ("mime", .str mime)])
      else none
    else none
  | _ => none

/-- `_attach_material_images`: the fields it adds. -/
def attachMaterialImages (payload : JsonFields) : JsonFields :=
  match Json.get? "images" payload with
  | some (.arr rawImages) =>
    let images := (rawImages.take 4).filterMap materialImage
    if images.isEmpty then [] else [("images", .arr images)]
  | _ => []

/-- The text of a payload that the model may see. -/
def textDigest : Option Json → Option String
  | some (.obj payload) =>
    match Json.get? "text_digest" payload with
    | some (.str digest) => if isBlank digest then none else some digest
    | _ => none
  | _ => none

/-- The fields of a payload, where it is an object. -/
def payloadFields : Option Json → Option JsonFields
  | some (.obj payload) => some payload
  | _ => none

/-- One turn of `_sanitize_canonical_materials`; none for an invalid item. -/
def sanitizeCanonicalMaterial : Json → Option Json
  | .obj item => do
    let sourceRef ← (Json.get? "source_ref" item).bind Json.str?
    let materialType ← (Json.get? "material_type" item).bind Json.str?
    if sourceRef = "" ∨ materialType = "" then none
    else
      let payload := Json.get? "sanitized_payload" item
      let images := attachMaterialImages ((payloadFields payload).getD [])
      match textDigest payload with
      | some digest =>
        some (materialEntry sourceRef materialType false
          (("text", .str (sanitizeMaterialSummary redact digest 200)) :: images))
      | none =>
        match payloadFields payload with
        | some fields =>
          if materialType ∈ ["diary", "completed_bet"] then
            let summary := sanitizeMaterialSummary redact (Json.dumps floatText (.obj fields)) 80
            some (materialEntry sourceRef materialType false (("summary", .str summary) :: images))
          else some (materialEntry sourceRef materialType true [])
        | none => some (materialEntry sourceRef materialType true [])
  | _ => none

/-- An item of a slot; `withSummary` where the slot keeps summaries. -/
def sanitizeSlotItem (materialType : String) (withSummary : Bool) : Json → Option Json
  | .obj item => do
    let materialId ← (Json.get? "id" item).bind Json.str?
    if materialId = "" then none
    else
      let sourceRef := materialType ++ ":" ++ materialId
      match withSummary, Json.get? "sensitive" item, Json.get? "content" item with
      | true, some (.bool true), _ => some (materialEntry sourceRef materialType true [])
      | true, _, some (.str content) =>
        some (materialEntry sourceRef materialType false
          [("summary", .str (sanitizeMaterialSummary redact content 80))])
      | _, _, _ => some (materialEntry sourceRef materialType true [])
  | _ => none

/-- The slots of an older snapshot: their fields, their type, and whether
their summaries are kept. -/
def legacySlots : List (List String × String × Bool) :=
  [(["diary_items", "diaries"], "diary", true),
   (["completed_bet_items", "completed_bets", "bet_items", "bets"], "completed_bet", true),
   (["handbook_notes"], "handbook_note", false),
   (["matured_wishes"], "matured_wish", false),
   (["bucket_list_completions"], "bucket_list_completion", false)]

/-- The items of a slot. -/
def slotItems (snapshot : JsonFields) (fields : List String) : List Json :=
  match firstField snapshot fields with
  | some (.arr items) => items
  | _ => []

/-- The canonical list of the snapshot, where it has one. -/
def canonicalMaterials (snapshot : JsonFields) : Option (List Json) :=
  match Json.get? "materials" snapshot with
  | some (.arr rawMaterials) => some rawMaterials
  | _ => none

/-- The materials of the view: of the canonical list where there is one, else
of the slots. -/
def sanitizedItems (snapshot : JsonFields) : List Json :=
  match canonicalMaterials snapshot with
  | some rawMaterials => rawMaterials.filterMap (sanitizeCanonicalMaterial redact floatText)
  | none =>
    legacySlots.flatMap fun slot =>
      (slotItems snapshot slot.1).filterMap (sanitizeSlotItem redact slot.2.1 slot.2.2)

/-- `_sanitize_materials`. -/
def sanitizeMaterials : Option JsonFields → Except String (List Json)
  | none => .ok []
  | some snapshot => do
    detectEnvelopeMixing snapshot
    pure (sanitizedItems redact floatText snapshot)

end

/-! ## The types -/

/-- The type of an item of the canonical list. -/
def canonicalType : Json → Option Json
  | .obj item => Json.get? "material_type" item
  | _ => none

/-- Whether the snapshot has a material of the type. -/
def typePresent (snapshot : JsonFields) (materialType : String) : Bool :=
  match canonicalMaterials snapshot with
  | some rawMaterials =>
    rawMaterials.any fun item =>
      match canonicalType item with
      | some (.str found) => decide (found = materialType)
      | _ => false
  | none =>
    legacySlots.any fun slot =>
      decide (slot.2.1 = materialType) && !(slotItems snapshot slot.1).isEmpty

/-- `compute_stats`, as far as the repair reads it. -/
def computeStats (snapshot : Option JsonFields) : Except String JsonFields := do
  let snapshot := snapshot.getD []
  detectEnvelopeMixing snapshot
  pure [("available_material_types",
    .arr ((materialTypeOrder.filter (typePresent snapshot)).map .str))]

/-! ## The view -/

/-- What the two nodes leave in the state. -/
structure MaterialView where
  sanitizedMaterial : Json
  stats : Option JsonFields := none

/-- `sanitize_materials`, and after it `compute_stats`. -/
def prepareMaterials (redact : String → String) (floatText : Json.FloatText)
    (snapshot : Option JsonFields) : Except String MaterialView := do
  let materials ← sanitizeMaterials redact floatText snapshot
  let view ← applyToolOutput (.obj [("materials", .arr materials)])
  let stats ← computeStats snapshot
  pure { sanitizedMaterial := view, stats := some stats }

/-- The materials of the view. -/
def MaterialView.items (view : MaterialView) : List Json :=
  match view.sanitizedMaterial with
  | .obj fields =>
    match Json.get? "materials" fields with
    | some (.arr items) => items
    | _ => []
  | _ => []

/-- Whether the item is of the type. -/
def hasType (materialType : String) : Json → Bool
  | .obj item =>
    match Json.get? "type" item with
    | some (.str found) => decide (found = materialType)
    | _ => false
  | _ => false

/-- A material of the type that the model may see, with its text. -/
def safeMaterial (materialType : String) (item : Json) : Option LoopMaterial :=
  if hasType materialType item then loopMaterial item else none

/-- There is a text of the type that the model may see. -/
def MaterialView.HasSafeText (view : MaterialView) (materialType : String) : Prop :=
  ∃ item ∈ view.items, ∃ material, safeMaterial materialType item = some material

/-- `_available_material_types`. -/
def availableMaterialTypes (view : MaterialView) : List String :=
  let derived := materialTypeOrder.filter fun t => view.items.any (hasType t)
  match Json.get? "available_material_types" (view.stats.getD []) with
  | some (.arr raw) =>
    match raw.mapM Json.str? with
    | some types => types.filter fun t => decide (t ∈ materialTypeOrder)
    | none => derived
  | _ => derived

/-! ## Which materials have a text -/

theorem loopMaterial_sensitive (ref materialType : String) (more : JsonFields) :
    loopMaterial (materialEntry ref materialType true more) = none := rfl

/-- Without a text an entry is not shown. -/
theorem loopMaterial_of_no_text {ref materialType : String} {more : JsonFields}
    (h : Json.get? "text" more = none) :
    loopMaterial (materialEntry ref materialType false more) = none := by
  have htext : Json.get? "text" ([("source_ref", .str ref), ("type", .str materialType),
      ("sensitive", .bool false)] ++ more) = none := h
  unfold materialEntry loopMaterial
  dsimp only
  rw [htext]
  split
  next hcontra => cases hcontra
  · rfl

theorem eq_str_of_bind {value : Option Json} {s : String} (h : value.bind Json.str? = some s) :
    value = some (.str s) := by
  obtain ⟨json, rfl, hstr⟩ := Option.bind_eq_some_iff.mp h
  cases json with
  | str s' =>
    cases hstr
    rfl
  | _ => cases hstr

/-- An item of the canonical list has its own type in the view. -/
theorem sanitizeCanonicalMaterial_ok {redact : String → String} {floatText : Json.FloatText}
    {item entry : Json} (h : sanitizeCanonicalMaterial redact floatText item = some entry) :
    ∃ ref materialType sensitive more, canonicalType item = some (.str materialType) ∧
      entry = materialEntry ref materialType sensitive more := by
  unfold sanitizeCanonicalMaterial at h
  split at h
  next fields =>
    obtain ⟨ref, _, h⟩ := Option.bind_eq_some_iff.mp h
    obtain ⟨materialType, htype, h⟩ := Option.bind_eq_some_iff.mp h
    have hcanonical : canonicalType (.obj fields) = some (.str materialType) :=
      eq_str_of_bind htype
    split at h
    · cases h
    dsimp only at h
    split at h
    · cases h
      exact ⟨_, _, _, _, hcanonical, rfl⟩
    split at h
    · split at h
      · cases h
        exact ⟨_, _, _, _, hcanonical, rfl⟩
      · cases h
        exact ⟨_, _, _, _, hcanonical, rfl⟩
    · cases h
      exact ⟨_, _, _, _, hcanonical, rfl⟩
  · cases h

/-- The slots of an older snapshot give no texts. -/
theorem sanitizeSlotItem_ok {redact : String → String} {materialType : String}
    {withSummary : Bool} {item entry : Json}
    (h : sanitizeSlotItem redact materialType withSummary item = some entry) :
    (∃ ref sensitive more, entry = materialEntry ref materialType sensitive more) ∧
      loopMaterial entry = none := by
  unfold sanitizeSlotItem at h
  split at h
  · obtain ⟨materialId, _, h⟩ := Option.bind_eq_some_iff.mp h
    split at h
    · cases h
    dsimp only at h
    split at h
    · cases h
      exact ⟨⟨_, _, _, rfl⟩, loopMaterial_sensitive _ _ _⟩
    · cases h
      exact ⟨⟨_, _, _, rfl⟩, loopMaterial_of_no_text rfl⟩
    · cases h
      exact ⟨⟨_, _, _, rfl⟩, loopMaterial_sensitive _ _ _⟩
  · cases h

theorem sanitizedItems_entry {redact : String → String} {floatText : Json.FloatText}
    {snapshot : JsonFields} {entry : Json}
    (h : entry ∈ sanitizedItems redact floatText snapshot) :
    ∃ ref materialType sensitive more,
      entry = materialEntry ref materialType sensitive more := by
  unfold sanitizedItems at h
  split at h
  · obtain ⟨item, _, hentry⟩ := List.mem_filterMap.mp h
    obtain ⟨ref, materialType, sensitive, more, _, rfl⟩ := sanitizeCanonicalMaterial_ok hentry
    exact ⟨ref, materialType, sensitive, more, rfl⟩
  · obtain ⟨slot, _, hslot⟩ := List.mem_flatMap.mp h
    obtain ⟨item, _, hentry⟩ := List.mem_filterMap.mp hslot
    obtain ⟨ref, sensitive, more, rfl⟩ := (sanitizeSlotItem_ok hentry).1
    exact ⟨ref, slot.2.1, sensitive, more, rfl⟩

/-- A snapshot with a text to show has the type in its canonical list. -/
theorem typePresent_of_safe {redact : String → String} {floatText : Json.FloatText}
    {snapshot : JsonFields} {t : String} {entry : Json} {material : LoopMaterial}
    (hmem : entry ∈ sanitizedItems redact floatText snapshot)
    (hsafe : safeMaterial t entry = some material) : typePresent snapshot t = true := by
  unfold safeMaterial at hsafe
  split at hsafe
  next htype =>
    unfold sanitizedItems at hmem
    unfold typePresent
    split at hmem
    next rawMaterials hlist =>
      -- the type of the entry is the one `compute_stats` reads
      obtain ⟨item, hitem, hentry⟩ := List.mem_filterMap.mp hmem
      obtain ⟨ref, materialType, sensitive, more, hcanonical, rfl⟩ :=
        sanitizeCanonicalMaterial_ok hentry
      refine List.any_eq_true.mpr ⟨item, hitem, ?_⟩
      rw [hcanonical]
      exact htype
    · -- an entry of a slot has no text
      obtain ⟨slot, _, hslot⟩ := List.mem_flatMap.mp hmem
      obtain ⟨item, _, hentry⟩ := List.mem_filterMap.mp hslot
      rw [(sanitizeSlotItem_ok hentry).2] at hsafe
      cases hsafe
  · cases hsafe

/-- A computation that went through did so step by step. -/
theorem ok_of_bind {α β : Type} {x : Except String α} {f : α → Except String β} {b : β}
    (h : x >>= f = .ok b) : ∃ a, x = .ok a ∧ f a = .ok b := by
  cases x with
  | error code => cases h
  | ok a => exact ⟨a, rfl, h⟩

/-- What the two nodes leave, where they go through. -/
theorem prepareMaterials_ok {redact : String → String} {floatText : Json.FloatText}
    {snapshot : Option JsonFields} {view : MaterialView}
    (h : prepareMaterials redact floatText snapshot = .ok view) :
    view.sanitizedMaterial = .obj [("materials",
        .arr ((snapshot.map (sanitizedItems redact floatText)).getD []))] ∧
      availableMaterialTypes view
        = materialTypeOrder.filter (typePresent (snapshot.getD [])) := by
  obtain ⟨materials, hmaterials, h⟩ := ok_of_bind h
  obtain ⟨shown, hshown, h⟩ := ok_of_bind h
  obtain ⟨stats, hstats, h⟩ := ok_of_bind h
  cases h
  have hfields : shown = .obj [("materials", .arr materials)] := by
    unfold applyToolOutput at hshown
    split at hshown
    · cases hshown
    · cases hshown
      rfl
  obtain ⟨_, _, hstats⟩ := ok_of_bind hstats
  cases hstats
  subst hfields
  refine ⟨?_, ?_⟩
  · show Json.obj [("materials", .arr materials)] = _
    cases snapshot with
    | none =>
      cases hmaterials
      rfl
    | some snapshot =>
      obtain ⟨_, _, hmaterials⟩ := ok_of_bind hmaterials
      cases hmaterials
      rfl
  · have hraw : Json.get? "available_material_types" [("available_material_types",
        Json.arr ((materialTypeOrder.filter (typePresent (snapshot.getD []))).map .str))]
        = some (.arr ((materialTypeOrder.filter (typePresent (snapshot.getD []))).map .str)) := rfl
    unfold availableMaterialTypes
    dsimp only [Option.getD_some]
    rw [hraw]
    dsimp only
    rw [mapM_str?]
    dsimp only
    refine List.filter_eq_self.mpr fun t ht => ?_
    exact decide_eq_true (List.mem_filter.mp ht).1

/-- **What can be shown is available**: every one of the types with a text
that the model may see is in the stats. -/
theorem available_of_safe {redact : String → String} {floatText : Json.FloatText}
    {snapshot : Option JsonFields} {view : MaterialView}
    (h : prepareMaterials redact floatText snapshot = .ok view) {t : String}
    (ht : t ∈ materialTypeOrder) (hsafe : view.HasSafeText t) :
    t ∈ availableMaterialTypes view := by
  obtain ⟨hview, htypes⟩ := prepareMaterials_ok h
  obtain ⟨entry, hmem, material, hmaterial⟩ := hsafe
  have hitems : view.items = (snapshot.map (sanitizedItems redact floatText)).getD [] := by
    unfold MaterialView.items
    rw [hview]
    rfl
  rw [hitems] at hmem
  rw [htypes]
  cases snapshot with
  | none => cases hmem
  | some snapshot => exact List.mem_filter.mpr ⟨ht, typePresent_of_safe hmem hmaterial⟩

end MemoirNodeRunner

end AgentRuntime
