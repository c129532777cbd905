import AgentRuntime.LoopBatches
import AgentRuntime.MemoirGateway
import AgentRuntime.NodeContext

/-!
# What a provider is sent of a batch

The loop sizes a batch by what the route's context or the tokens of the run
allow, and counts it as consumed once its scenes are accepted. The adapter
then builds a context within the budget of the node, which is another one,
from texts that the redaction may have made longer. What is left of the
materials is settled by `fill` alone: all of them come through complete
exactly if the redacted texts together have at most four characters for each
token of the node's budget (`fill_whole_iff`).

A request gives back the items it was rendered from (`renderModelMessages_items`),
so that what a provider is sent of a material is a fact about the request.
-/

namespace AgentRuntime

open MemoirNodeRunner ContextManager Regex

/-! ## The items of a message -/

/-- The first character of a string literal, and the rest. -/
def unescape : List Char → Option (Char × List Char)
  | '\\' :: 'n' :: s => some ('\n', s)
  | '\\' :: 'r' :: s => some ('\r', s)
  | '\\' :: 't' :: s => some ('\t', s)
  | '\\' :: 'b' :: s => some ('\x08', s)
  | '\\' :: 'f' :: s => some ('\x0c', s)
  | '\\' :: 'u' :: '0' :: '0' :: high :: low :: s =>
    some (Char.ofNat (16 * (high.toNat - 48) +
      if low.isDigit then low.toNat - 48 else low.toNat - 87), s)
  | '\\' :: c :: s => some (c, s)
  | c :: s => some (c, s)
  | [] => none

theorem unescape_control : ∀ n < 32,
    16 * ((Nat.digitChar (n / 16)).toNat - 48) +
      (if (Nat.digitChar (n % 16)).isDigit then (Nat.digitChar (n % 16)).toNat - 48
        else (Nat.digitChar (n % 16)).toNat - 87) = n := by
  decide

theorem unescape_escapeChar (c : Char) (s : List Char) :
    unescape (Json.escapeChar c ++ s) = some (c, s) := by
  unfold Json.escapeChar
  split
  next h => rw [h]; rfl
  split
  next h => rw [h]; rfl
  split
  next h => rw [h]; rfl
  split
  next h => rw [h]; rfl
  split
  next h => rw [h]; rfl
  split
  next h => rw [h]; rfl
  split
  next h => rw [h]; rfl
  split
  next h =>
    show some (Char.ofNat _, s) = _
    rw [unescape_control c.toNat h, Char.ofNat_toNat]
  next hquote hslash _ _ _ _ _ _ =>
    rw [List.singleton_append]
    unfold unescape
    split <;> simp_all

theorem escapeChar_append {c d : Char} {s t : List Char}
    (h : Json.escapeChar c ++ s = Json.escapeChar d ++ t) : c = d ∧ s = t := by
  have hsame := congrArg unescape h
  rw [unescape_escapeChar, unescape_escapeChar] at hsame
  cases hsame
  exact ⟨rfl, rfl⟩

/-- A string literal ends where its text does. -/
theorem escaped_append : ∀ {cs ds s t : List Char},
    cs.flatMap Json.escapeChar ++ '"' :: s = ds.flatMap Json.escapeChar ++ '"' :: t →
    cs = ds ∧ s = t
  | [], [], _, _, h => ⟨rfl, (List.cons.inj h).2⟩
  | [], d :: ds, s, t, h => by
    rw [List.flatMap_cons, List.append_assoc] at h
    have hsame := congrArg unescape h
    rw [unescape_escapeChar] at hsame
    cases hsame
    cases h
  | c :: cs, [], s, t, h => by
    rw [List.flatMap_cons, List.append_assoc] at h
    have hsame := congrArg unescape h
    rw [unescape_escapeChar] at hsame
    cases hsame
    cases h
  | c :: cs, d :: ds, s, t, h => by
    rw [List.flatMap_cons, List.append_assoc, List.flatMap_cons, List.append_assoc] at h
    obtain ⟨rfl, hrest⟩ := escapeChar_append h
    obtain ⟨rfl, rfl⟩ := escaped_append hrest
    exact ⟨rfl, rfl⟩

theorem quote_toList (s : String) :
    (Json.quote s).toList = '"' :: (s.toList.flatMap Json.escapeChar ++ ['"']) := by
  unfold Json.quote
  rw [String.toList_append, String.toList_append]
  exact congrArg (fun inner => '"' :: (inner ++ ['"'])) String.toList_ofList

theorem quote_append {a b : String} {s t : List Char}
    (h : (Json.quote a).toList ++ s = (Json.quote b).toList ++ t) : a = b ∧ s = t := by
  rw [quote_toList, quote_toList] at h
  rw [List.cons_append, List.cons_append, List.append_assoc, List.append_assoc] at h
  obtain ⟨hab, hst⟩ := escaped_append (List.cons.inj h).2
  exact ⟨String.toList_inj.mp hab, hst⟩

/-- An item as the message has it. -/
def itemJson (m : Material) : Json :=
  .obj [("source_ref", .str m.1), ("content", .str m.2)]

section

variable {floatText : Json.FloatText}

theorem dumps_itemJson (m : Material) :
    (Json.dumps floatText (itemJson m)).toList = "\x7b\"source_ref\":".toList ++
      ((Json.quote m.1).toList ++ (",\"content\":".toList ++
        ((Json.quote m.2).toList ++ ['\x7d']))) := by
  have hdumps : Json.dumps floatText (itemJson m) = "\x7b" ++ ("\"source_ref\"" ++ ":" ++
      Json.quote m.1 ++ "," ++ ("\"content\"" ++ ":" ++ Json.quote m.2)) ++ "\x7d" := rfl
  rw [hdumps]
  simp only [String.toList_append, List.append_assoc]
  rfl

theorem item_append {m m' : Material} {s t : List Char}
    (h : (Json.dumps floatText (itemJson m)).toList ++ s
      = (Json.dumps floatText (itemJson m')).toList ++ t) : m = m' ∧ s = t := by
  rw [dumps_itemJson, dumps_itemJson] at h
  simp only [List.append_assoc] at h
  obtain ⟨href, h⟩ := quote_append (List.append_cancel_left h)
  obtain ⟨htext, h⟩ := quote_append (List.append_cancel_left h)
  exact ⟨Prod.ext href htext, List.append_cancel_left h⟩

/-- What comes behind the first item. -/
def behindItem (floatText : Json.FloatText) : List Material → List Char
  | [] => []
  | m :: items => ',' :: ((Json.dumps floatText (itemJson m)).toList ++ behindItem floatText items)

theorem dumpsItems_cons (m : Material) (items : List Material) :
    (Json.dumpsItems floatText ((m :: items).map itemJson)).toList
      = (Json.dumps floatText (itemJson m)).toList ++ behindItem floatText items := by
  induction items generalizing m with
  | nil => exact (List.append_nil _).symm
  | cons m' items ih =>
    have hitems : Json.dumpsItems floatText ((m :: m' :: items).map itemJson)
        = Json.dumps floatText (itemJson m) ++ "," ++
          Json.dumpsItems floatText ((m' :: items).map itemJson) := rfl
    have hcomma : ",".toList = [','] := rfl
    rw [hitems, String.toList_append, String.toList_append, ih, List.append_assoc, hcomma,
      List.singleton_append, behindItem]

theorem behindItem_inj : ∀ {xs ys : List Material} {s t : List Char},
    behindItem floatText xs ++ ']' :: s = behindItem floatText ys ++ ']' :: t → xs = ys
  | [], [], _, _, _ => rfl
  | [], _ :: _, _, _, h => absurd (List.cons.inj h).1 (by decide)
  | _ :: _, [], _, _, h => absurd (List.cons.inj h).1 (by decide)
  | x :: xs, y :: ys, s, t, h => by
    rw [behindItem, behindItem, List.cons_append, List.cons_append, List.append_assoc,
      List.append_assoc] at h
    obtain ⟨rfl, hrest⟩ := item_append (List.cons.inj h).2
    rw [behindItem_inj hrest]

theorem dumpsItems_inj {xs ys : List Material} {s t : List Char}
    (h : (Json.dumpsItems floatText (xs.map itemJson)).toList ++ ']' :: s
      = (Json.dumpsItems floatText (ys.map itemJson)).toList ++ ']' :: t) : xs = ys := by
  -- a list of items starts with a brace
  have hbrace : ∀ (m : Material) (items : List Material) (u v : List Char),
      ']' :: u ≠ (Json.dumpsItems floatText ((m :: items).map itemJson)).toList ++ v := by
    intro m items u v hstart
    rw [dumpsItems_cons, dumps_itemJson] at hstart
    cases hstart
  cases xs with
  | nil =>
    cases ys with
    | nil => rfl
    | cons y ys => exact absurd h (hbrace y ys _ _)
  | cons x xs =>
    cases ys with
    | nil => exact absurd h.symm (hbrace x xs _ _)
    | cons y ys =>
      rw [dumpsItems_cons, dumpsItems_cons, List.append_assoc, List.append_assoc] at h
      obtain ⟨rfl, hrest⟩ := item_append h
      rw [behindItem_inj hrest]

/-- The data of a message, around its items. -/
theorem dumps_data (items : List Material) (candidateInput : List (String × Json)) :
    (Json.dumps floatText (.obj [("untrusted_items", .arr (items.map itemJson)),
      ("candidate_input", .obj candidateInput)])).toList
      = "\x7b\"untrusted_items\":[".toList ++
        ((Json.dumpsItems floatText (items.map itemJson)).toList ++ ']' ::
          ("," ++ Json.dumpsFields floatText [("candidate_input", .obj candidateInput)] ++
            "\x7d").toList) := by
  have hdumps : Json.dumps floatText (.obj [("untrusted_items", .arr (items.map itemJson)),
      ("candidate_input", .obj candidateInput)])
      = "\x7b" ++ ("\"untrusted_items\"" ++ ":" ++
        ("[" ++ Json.dumpsItems floatText (items.map itemJson) ++ "]") ++ "," ++
          Json.dumpsFields floatText [("candidate_input", .obj candidateInput)]) ++ "\x7d" := rfl
  have hclose : "]".toList = [']'] := rfl
  rw [hdumps]
  simp only [String.toList_append, List.append_assoc, hclose, List.singleton_append]
  rfl

theorem renderModelMessages_eq {prompt : PromptDefinition} {items : List Material}
    {candidateInput : List (String × Json)} {messages : List Message}
    (h : renderModelMessages floatText prompt items candidateInput = some messages) :
    messages = [("system", prompt.template), ("user", untrustedMessage (Json.dumps floatText (.obj [
      ("untrusted_items", .arr (items.map itemJson)),
      ("candidate_input", .obj candidateInput)])))] := by
  unfold renderModelMessages at h
  split at h
  · cases h
  · exact (Option.some.inj h).symm

/-- **A message gives its items back.** -/
theorem renderModelMessages_items {prompt : PromptDefinition} {xs ys : List Material}
    {candidateInput : List (String × Json)} {messages : List Message}
    (hxs : renderModelMessages floatText prompt xs candidateInput = some messages)
    (hys : renderModelMessages floatText prompt ys candidateInput = some messages) : xs = ys := by
  have hsame := (renderModelMessages_eq hxs).symm.trans (renderModelMessages_eq hys)
  simp only [List.cons.injEq, Prod.mk.injEq, and_true, true_and] at hsame
  have hlists := congrArg String.toList hsame
  unfold untrustedMessage at hlists
  rw [String.toList_append, String.toList_append] at hlists
  have hdata := List.append_cancel_left hlists
  rw [dumps_data, dumps_data] at hdata
  exact dumpsItems_inj (List.append_cancel_left hdata)

end

/-! ## What fits into a context -/

/-- The characters of the texts once they are redacted. -/
def redactedLength (redact : String → String) : List Material → Nat
  | [] => 0
  | material :: materials => (redact material.2).length + redactedLength redact materials

theorem ref_of_mem_fill {redact : String → String} {item : Material} :
    ∀ {n : Nat} {materials : List Material}, item ∈ fill redact n materials →
      item.1 ∈ materials.map Prod.fst
  | _, [], h => by cases h
  | n, (ref, text) :: materials, h => by
    unfold fill at h
    split at h
    · exact List.mem_cons_of_mem _ (ref_of_mem_fill h)
    split at h
    · cases h
    rcases List.mem_cons.mp h with rfl | hrest
    · exact List.mem_cons_self
    · exact List.mem_cons_of_mem _ (ref_of_mem_fill hrest)

theorem firstChars_eq_iff {n : Nat} {s : String} : firstChars n s = s ↔ s.length ≤ n := by
  constructor
  · intro h
    have hlength := length_firstChars n s
    rw [h] at hlength
    omega
  · intro h
    unfold firstChars
    rw [List.take_of_length_le (by rw [String.length_toList]; exact h), String.ofList_toList]

/-- **All of the texts come through complete** exactly if together they fit. -/
theorem fill_whole_iff {redact : String → String} (hredact : ∀ text, text ≠ "" → redact text ≠ "") :
    ∀ {materials : List Material} (n : Nat), (materials.map Prod.fst).Nodup →
      (∀ material ∈ materials, material.1 ≠ "" ∧ material.2 ≠ "") →
      ((∀ material ∈ materials, (material.1, redact material.2) ∈ fill redact n materials) ↔
        redactedLength redact materials ≤ n)
  | [], _, _, _ => ⟨fun _ => Nat.zero_le _, fun _ _ h => (nomatch h)⟩
  | (ref, text) :: materials, n, hnodup, hgiven => by
    obtain ⟨⟨href, htext⟩, hgiven⟩ := List.forall_mem_cons.mp hgiven
    obtain ⟨hnew, hnodup⟩ := List.nodup_cons.mp hnodup
    have hshown : 0 < (redact text).length := by
      rw [Nat.pos_iff_ne_zero, Ne, String.length_eq_zero_iff]
      exact hredact text htext
    unfold fill redactedLength
    rw [if_neg href, List.forall_mem_cons]
    by_cases hzero : n = 0
    · rw [if_pos hzero]
      refine iff_of_false (fun h => absurd h.1 List.not_mem_nil) ?_
      show ¬ (redact text).length + _ ≤ n
      omega
    rw [if_neg hzero]
    dsimp only
    have hcut := length_firstChars n (redact text)
    -- the item of a reference is the one that was cut for it
    have hhead : (ref, redact text) ∈ (ref, firstChars n (redact text)) ::
        fill redact (n - (firstChars n (redact text)).length) materials ↔
          (redact text).length ≤ n := by
      rw [← firstChars_eq_iff, List.mem_cons]
      constructor
      · rintro (hsame | hrest)
        · exact (Prod.mk.inj hsame).2.symm
        · exact absurd (ref_of_mem_fill hrest) hnew
      · intro hsame
        exact Or.inl (by rw [hsame])
    have htail : (∀ material ∈ materials, (material.1, redact material.2) ∈
        (ref, firstChars n (redact text)) ::
          fill redact (n - (firstChars n (redact text)).length) materials) ↔
        redactedLength redact materials ≤ n - (firstChars n (redact text)).length := by
      rw [← fill_whole_iff hredact _ hnodup hgiven]
      refine forall₂_congr fun material hmaterial => ?_
      rw [List.mem_cons]
      constructor
      · rintro (hsame | hrest)
        · have hseen : material.1 ∈ materials.map Prod.fst := List.mem_map_of_mem hmaterial
          rw [(Prod.mk.inj hsame).1] at hseen
          exact absurd hseen hnew
        · exact hrest
      · exact Or.inr
    rw [hhead, htail]
    omega

/-- A text is not redacted to nothing. -/
theorem redactNumbers_ne_empty {cc : CharClasses} {text : String} (h : text ≠ "") :
    (redactNumbers cc text).1 ≠ "" := by
  intro hempty
  have hnone : redactFrom cc none text.toList = [] := by
    rw [← toList_redactNumbers, hempty]
    rfl
  unfold redactFrom at hnone
  have hsource := sourceOf_divide (contextSensitive cc) none text.toList
  cases hpieces : divide (contextSensitive cc) none 0 text.toList with
  | nil =>
    rw [hpieces] at hsource
    exact h (String.toList_eq_nil_iff.mp hsource.symm)
  | cons piece pieces =>
    rw [hpieces, List.flatMap_cons] at hnone
    have hfirst := (List.append_eq_nil_iff.mp hnone).1
    cases piece <;> cases hfirst

/-! ## The request for a batch -/

/-- The input of the call for a batch. -/
def BatchRequest.fields (request : BatchRequest) : List (String × Json) :=
  [("batch_index", .int request.batchIndex),
    ("is_first_batch", .bool request.isFirstBatch),
    ("is_final_batch", .bool request.isFinalBatch),
    ("source_refs", .arr (request.sourceRefs.map .str))] ++
  match request.requiredSceneType with
  | some sceneType => [("required_scene_type", .str (sceneTypeCode sceneType))]
  | none => []

def LoopMaterial.json (material : LoopMaterial) : Json :=
  .obj [("source_ref", .str material.sourceRef), ("text", .str material.text)]

/-- `safe_summary`. -/
def ContextManager.NodeContext.safeSummary (context : NodeContext) : Json :=
  .obj [("token_budget", .int context.tokenBudget),
    ("source_ref_count", .int context.sourceRefs.length),
    ("redaction_summary", .obj [("redacted_fields", .int context.redactedFields),
      ("item_count", .int context.itemCount)])]

/-- `_safe_model_request`; `none` where it raises, or gives nothing. -/
def MemoirNodeRunner.safeModelRequest (p : Packages) (cc : CharClasses) (nodeId : String)
    (request : List (String × Json)) (agentVersion : String) (materials : List LoopMaterial) :
    Option (List (String × Json)) := do
  let promptRef ← MemoirModelGatewayAdapter.promptRefs.lookup nodeId
  let prompt ← p.load "memoir_agent" agentVersion promptRef
  let refs ← candidateSourceRefs request
  let placeholder (ref : String) : Json :=
    .obj [("source_ref", .str ref), ("text", .str "[SOURCE_REF]")]
  let context ← (nodeContext cc prompt.template (refs.map placeholder) [] 256).toOption
  pure ([("prompt_id", .str prompt.promptId),
      ("prompt_version", .str prompt.version),
      ("model_policy", .str prompt.modelPolicy),
      ("context", context.safeSummary),
      ("input", .obj request)] ++
    if materials = [] then [] else [("materials", .arr (materials.map LoopMaterial.json))])

/-- What the calls of a loop go through: the adapter with the redaction of
`ContextManager`, and what the gateway makes of a request. -/
structure BatchSender where
  adapter : MemoirModelGatewayAdapter
  classes : CharClasses
  redaction : adapter.packages.redact = fun text => (redactNumbers classes text).1
  db : Db
  now : Time
  runId : String
  gateway : ModelRequest → Option ModelData

namespace BatchSender

variable (s : BatchSender)

/-- The request of a batch as the adapter hands it to the gateway. -/
def handed (agentVersion : String) (request : BatchRequest) : Option ModelRequest := do
  let safeRequest ← safeModelRequest s.adapter.packages s.classes "generate_scene_batch"
    request.fields agentVersion request.materials
  (s.adapter.call s.db s.now s.runId "generate_scene_batch" safeRequest).toOption

/-- `_model_data`, of a batch. -/
def model (agentVersion : String) : LoopModel := fun request =>
  (s.handed agentVersion request).bind s.gateway

/-- The text of a material once it is redacted. -/
def redacted (material : LoopMaterial) : Material :=
  (material.sourceRef, (redactNumbers s.classes material.text).1)

/-- Every material of the batch is in the request, with its whole text. -/
def SentWhole (request : BatchRequest) (m : ModelRequest) : Prop :=
  ∃ items, renderModelMessages s.adapter.packages.floatText m.prompt items request.fields
      = some m.request.messages ∧
    ∀ material ∈ request.materials, s.redacted material ∈ items

/-- The characters of the redacted texts of a batch. -/
def batchLength : List LoopMaterial → Nat
  | [] => 0
  | material :: batch => (s.redacted material).2.length + batchLength batch

/-- The redacted texts have at most four characters for each token that the
route and the node allow. -/
def FitsNode (request : BatchRequest) (m : ModelRequest) : Prop :=
  ∀ budget, s.adapter.packages.contextTokenBudget m.routeId m.prompt = some budget →
    s.batchLength request.materials ≤ 4 * min 512 budget.toNat

section

variable {s : BatchSender}

theorem nodeTokenBudget_batch {budget : Int} {tokenBudget : Nat}
    (h : nodeTokenBudget "generate_scene_batch" budget = some tokenBudget) :
    tokenBudget = min 512 budget.toNat := by
  have hcap : nodeTokenBudget "generate_scene_batch" budget
      = if budget ≤ 0 then none else some (min 512 budget.toNat) := rfl
  rw [hcap] at h
  split at h
  · cases h
  · exact (Option.some.inj h).symm

/-- The items of a request, and the budget they are cut to. -/
theorem buildRequest_ok {p : Packages} {routeId : String} {prompt : PromptDefinition}
    {materials : List Material} {candidateInput : List (String × Json)} {r : ProviderRequest}
    (h : MemoirModelGatewayAdapter.buildRequest p "generate_scene_batch" routeId prompt materials
      candidateInput = some r) :
    ∃ budget, p.contextTokenBudget routeId prompt = some budget ∧
      renderModelMessages p.floatText prompt
        (fill p.redact (4 * min 512 budget.toNat) materials) candidateInput = some r.messages := by
  unfold MemoirModelGatewayAdapter.buildRequest at h
  obtain ⟨budget, hbudget, h⟩ := Option.bind_eq_some_iff.mp h
  obtain ⟨tokenBudget, htokens, h⟩ := Option.bind_eq_some_iff.mp h
  obtain ⟨items, hitems, h⟩ := Option.bind_eq_some_iff.mp h
  obtain ⟨messages, hmessages, h⟩ := Option.bind_eq_some_iff.mp h
  cases h
  unfold buildNodeContext at hitems
  split at hitems
  · cases hitems
  cases hitems
  rw [nodeTokenBudget_batch htokens, Nat.mul_comm] at hmessages
  exact ⟨budget, hbudget, hmessages⟩

/-- What the adapter makes of the materials that come with a request. -/
theorem call_request {a : MemoirModelGatewayAdapter} {db : Db} {now : Time}
    {runId : String} {request : List (String × Json)} {m : ModelRequest}
    (h : a.call db now runId "generate_scene_batch" request = .ok m) :
    ∃ input refs, MemoirModelGatewayAdapter.mapping ((Json.get? "input" request).getD (.obj []))
        = some input ∧ candidateSourceRefs input = some refs ∧
      MemoirModelGatewayAdapter.buildRequest a.packages "generate_scene_batch" m.routeId m.prompt
        (MemoirModelGatewayAdapter.callMaterials (Json.get? "materials" request) refs) input
          = some m.request := by
  obtain ⟨_, -, h⟩ := demand_bind h
  obtain ⟨_, -, h⟩ := demand_bind h
  obtain ⟨⟨_, _⟩, -, h⟩ := demand_bind h
  obtain ⟨_, -, h⟩ := demand_bind h
  obtain ⟨_, -, h⟩ := demand_bind h
  obtain ⟨_, -, h⟩ := demand_bind h
  have h := check_bind h
  obtain ⟨input, hinput, h⟩ := demand_bind h
  obtain ⟨refs, hrefs, h⟩ := demand_bind h
  obtain ⟨providerRequest, hrequest, h⟩ := demand_bind h
  cases h
  exact ⟨input, refs, hinput, hrefs, hrequest⟩

theorem sourceRefs_fields (request : BatchRequest) :
    candidateSourceRefs request.fields = some request.sourceRefs := by
  have hget : Json.get? "source_refs" request.fields
      = some (.arr (request.sourceRefs.map .str)) := rfl
  unfold candidateSourceRefs
  rw [hget]
  show some (stringsOf (request.sourceRefs.map .str)) = _
  unfold stringsOf
  rw [List.filterMap_map]
  exact congrArg some (List.filterMap_some)

/-- Materials that the batch refers to are all passed on. -/
theorem callMaterials_batch {batch : List LoopMaterial} {refs : List String}
    (hsome : batch ≠ []) (hfew : batch.length ≤ 8) (hrefs : ∀ x ∈ batch, x.sourceRef ∈ refs)
    (htexts : ∀ x ∈ batch, x.text ≠ "") :
    MemoirModelGatewayAdapter.callMaterials (some (.arr (batch.map LoopMaterial.json))) refs
      = batch.map fun x => (x.sourceRef, x.text) := by
  have hallowed : (batch.map LoopMaterial.json).filterMap (allowedMaterial refs)
      = batch.map fun x => (x.sourceRef, x.text) := by
    clear hsome hfew
    induction batch with
    | nil => rfl
    | cons x batch ih =>
      obtain ⟨href, hrefs⟩ := List.forall_mem_cons.mp hrefs
      obtain ⟨htext, htexts⟩ := List.forall_mem_cons.mp htexts
      have hfirst : allowedMaterial refs x.json = some (x.sourceRef, x.text) :=
        if_pos ⟨href, htext⟩
      rw [List.map_cons, List.filterMap_cons_some hfirst, ih hrefs htexts, List.map_cons]
  have hcandidates : candidateMaterials (some (.arr (batch.map LoopMaterial.json))) refs
      = batch.map fun x => (x.sourceRef, x.text) := by
    show List.take 8 _ = _
    rw [hallowed, List.take_of_length_le (by rw [List.length_map]; exact hfew)]
  unfold MemoirModelGatewayAdapter.callMaterials
  rw [hcandidates]
  cases batch with
  | nil => exact absurd rfl hsome
  | cons x batch => rfl

/-- A batch as the loop may ask for one. -/
structure Batched (request : BatchRequest) : Prop where
  some : request.materials ≠ []
  few : request.materials.length ≤ 8
  refs : request.sourceRefs = request.materials.map (·.sourceRef)
  distinct : (request.materials.map (·.sourceRef)).Nodup
  given : ∀ x ∈ request.materials, x.sourceRef ≠ "" ∧ x.text ≠ ""

theorem redactedLength_batch (batch : List LoopMaterial) :
    redactedLength s.adapter.packages.redact (batch.map fun x => (x.sourceRef, x.text))
      = s.batchLength batch := by
  induction batch with
  | nil => rfl
  | cons x batch ih =>
    rw [List.map_cons, redactedLength, batchLength, ih, s.redaction]
    rfl

/-- **The request for a batch** has all of it exactly if it fits. -/
theorem sentWhole_iff {agentVersion : String} {request : BatchRequest} {m : ModelRequest}
    (hbatch : Batched request) (h : s.handed agentVersion request = some m) :
    s.SentWhole request m ↔ s.FitsNode request m := by
  unfold handed safeModelRequest at h
  obtain ⟨safeRequest, hsafe, h⟩ := Option.bind_eq_some_iff.mp h
  obtain ⟨_, -, hsafe⟩ := Option.bind_eq_some_iff.mp hsafe
  obtain ⟨prompt, -, hsafe⟩ := Option.bind_eq_some_iff.mp hsafe
  obtain ⟨_, -, hsafe⟩ := Option.bind_eq_some_iff.mp hsafe
  obtain ⟨context, -, hsafe⟩ := Option.bind_eq_some_iff.mp hsafe
  rw [if_neg hbatch.some] at hsafe
  cases hsafe
  cases hcall : s.adapter.call s.db s.now s.runId "generate_scene_batch" _ with
  | error refusal =>
    rw [hcall] at h
    cases h
  | ok sent =>
    rw [hcall] at h
    cases h
    obtain ⟨input, refs, hinput, hrefs, hbuilt⟩ := call_request hcall
    have hsame : input = request.fields := (Option.some.inj hinput).symm
    subst hsame
    rw [sourceRefs_fields] at hrefs
    cases hrefs
    obtain ⟨budget, hbudget, hmessages⟩ := buildRequest_ok hbuilt
    have hcome : MemoirModelGatewayAdapter.callMaterials
        (some (.arr (request.materials.map LoopMaterial.json))) request.sourceRefs
        = request.materials.map fun x => (x.sourceRef, x.text) :=
      callMaterials_batch hbatch.some hbatch.few
        (fun x hx => by rw [hbatch.refs]; exact List.mem_map_of_mem hx)
        (fun x hx => (hbatch.given x hx).2)
    change renderModelMessages _ _ (fill _ _ (MemoirModelGatewayAdapter.callMaterials
      (some (.arr (request.materials.map LoopMaterial.json))) request.sourceRefs)) _ = _ at hmessages
    rw [hcome] at hmessages
    have hredact : ∀ text, text ≠ "" → s.adapter.packages.redact text ≠ "" := by
      intro text htext
      rw [s.redaction]
      exact redactNumbers_ne_empty htext
    have hrefs : (request.materials.map fun x => (x.sourceRef, x.text)).map Prod.fst
        = request.materials.map (·.sourceRef) := List.map_map
    have hwhole := @fill_whole_iff _ hredact
      (request.materials.map fun x => (x.sourceRef, x.text)) (4 * min 512 budget.toNat) (hrefs ▸ hbatch.distinct)
      (by
        intro material hmaterial
        obtain ⟨x, hx, rfl⟩ := List.mem_map.mp hmaterial
        exact hbatch.given x hx)
    rw [redactedLength_batch, List.forall_mem_map, s.redaction] at hwhole
    unfold SentWhole FitsNode
    constructor
    · rintro ⟨items, hitems, hall⟩ budget' hbudget'
      cases hbudget.symm.trans hbudget'
      rw [renderModelMessages_items hitems hmessages, s.redaction] at hall
      exact hwhole.mp hall
    · intro hfits
      refine ⟨_, hmessages, ?_⟩
      rw [s.redaction]
      exact hwhole.mpr (hfits budget hbudget)

/-- The materials of a loop have a reference and a text. -/
theorem distinctMaterials_given : ∀ (items : List Json) (seen : List String),
    ∀ x ∈ distinctMaterials seen items, x.sourceRef ≠ "" ∧ x.text ≠ ""
  | [], _, _, h => by cases h
  | item :: items, seen, x, h => by
    unfold distinctMaterials at h
    split at h
    · exact distinctMaterials_given items seen x h
    next material hmaterial =>
    split at h
    · exact distinctMaterials_given items seen x h
    rcases List.mem_cons.mp h with rfl | hrest
    · unfold loopMaterial at hmaterial
      split at hmaterial
      · split at hmaterial
        · split at hmaterial
          · cases hmaterial
          next hok =>
            obtain ⟨href, htext⟩ := not_or.mp hok
            cases hmaterial
            refine ⟨href, ?_⟩
            rintro rfl
            exact htext rfl
        · cases hmaterial
      · cases hmaterial
    · exact distinctMaterials_given items _ x hrest

theorem loopMaterialTexts_given {sanitizedMaterial : Json} {x : LoopMaterial}
    (h : x ∈ loopMaterialTexts sanitizedMaterial) : x.sourceRef ≠ "" ∧ x.text ≠ "" := by
  unfold loopMaterialTexts at h
  split at h
  · split at h
    · exact distinctMaterials_given _ _ x h
    · cases h
  · cases h

/-- What a turn asks for is a batch of the materials. -/
theorem batched_of_turn {agentVersion : String} {sanitizedMaterial : Json} {c : LoopCall}
    {loop : MemoirLoop} {request : BatchRequest}
    (hmaterials : loop.materials = loopMaterialTexts sanitizedMaterial)
    (h : request ∈ (c.iterate agentVersion loop).2.requests.drop loop.requests.length) :
    Batched request := by
  unfold LoopCall.iterate at h
  rw [requests_runLoopIteration, List.drop_left] at h
  split at h
  · cases h
  next hcut =>
  obtain ⟨-, hsome⟩ := not_or.mp hcut
  rw [List.mem_singleton] at h
  subst h
  obtain ⟨hpacks, group, htake, hwithin⟩ :=
    @nextBatch_spec loop.materials c.turn.cap c.turn.cap_nonneg loop.cursor
  have hsub : (nextBatch loop.materials c.turn.cap loop.cursor).batch.Sublist
      (loopMaterialTexts sanitizedMaterial) := by
    rw [hwithin, ← hmaterials]
    refine List.filter_sublist.trans ?_
    refine List.Sublist.trans ?_ (List.take_sublist (nextBatch loop.materials c.turn.cap
      loop.cursor).candidateCursor _)
    rw [htake]
    exact List.sublist_append_right _ _
  exact {
    some := hsome
    few := hpacks.few
    refs := rfl
    distinct := (loopMaterialTexts_nodup sanitizedMaterial).sublist (hsub.map _)
    given := fun x hx => loopMaterialTexts_given (hsub.subset hx) }

/-- From 1.0.6 on, a turn that has moved the cursor behind what it asked for
was answered. -/
theorem answered_of_commit {agentVersion : String}
    (hversion : versionAtLeast agentVersion [1, 0, 6] = true) {c : LoopCall} {loop : MemoirLoop}
    {request : BatchRequest}
    (h : request ∈ (c.iterate agentVersion loop).2.requests.drop loop.requests.length)
    (hcommit : loop.cursor < (c.iterate agentVersion loop).2.cursor) : c.model request ≠ none := by
  intro hnone
  unfold LoopCall.iterate at h hcommit
  rw [requests_runLoopIteration, List.drop_left] at h
  split at h
  · cases h
  next hcut =>
  obtain ⟨hpast, hsome⟩ := not_or.mp hcut
  rw [List.mem_singleton] at h
  subst h
  unfold LoopTurn.cap at hnone hsome
  unfold runLoopIteration at hcommit
  dsimp only at hcommit
  rw [if_neg hpast, if_neg hsome, hnone] at hcommit
  dsimp only at hcommit
  unfold callForBatch at hcommit
  rw [if_pos hversion] at hcommit
  exact absurd hcommit (Nat.lt_irrefl _)

end

/-- The loop over the materials, after some turns. -/
def loopAfter (agentVersion : String) (sanitizedMaterial : Json) (calls : List LoopCall) :
    MemoirLoop :=
  afterCalls agentVersion { materials := loopMaterialTexts sanitizedMaterial } calls

/-- One turn more, that goes through the adapter. -/
def turnAfter (agentVersion : String) (sanitizedMaterial : Json) (calls : List LoopCall)
    (index : Nat) (turn : LoopTurn) : Except String LoopIterationResult × MemoirLoop :=
  LoopCall.iterate agentVersion ⟨index, turn, s.model agentVersion⟩
    (loopAfter agentVersion sanitizedMaterial calls)

/-- A batch that the turn asks for and the cursor moves behind. -/
structure Consumes (agentVersion : String) (sanitizedMaterial : Json) (calls : List LoopCall)
    (index : Nat) (turn : LoopTurn) (request : BatchRequest) : Prop where
  asked : request ∈ (s.turnAfter agentVersion sanitizedMaterial calls index turn).2.requests.drop
    (loopAfter agentVersion sanitizedMaterial calls).requests.length
  moved : (loopAfter agentVersion sanitizedMaterial calls).cursor
    < (s.turnAfter agentVersion sanitizedMaterial calls index turn).2.cursor

/-- **What a provider is sent of a batch that is consumed.** From 1.0.6 on a
request was made for it, and whatever the version, the request has the whole
text of every material exactly if the redacted texts fit what the route and
the node allow. -/
theorem consumed_whole_iff (agentVersion : String) (sanitizedMaterial : Json)
    (calls : List LoopCall) (index : Nat) (turn : LoopTurn) (request : BatchRequest)
    (h : s.Consumes agentVersion sanitizedMaterial calls index turn request) :
    (versionAtLeast agentVersion [1, 0, 6] = true → (s.handed agentVersion request).isSome) ∧
      ∀ m, s.handed agentVersion request = some m →
        (s.SentWhole request m ↔ s.FitsNode request m) := by
  obtain ⟨hrequest, hcommit⟩ := h
  have hbatched : Batched request := batched_of_turn (materials_afterCalls calls _) hrequest
  refine ⟨fun hversion => ?_, fun m hm => sentWhole_iff hbatched hm⟩
  have hanswered : (s.handed agentVersion request).bind s.gateway ≠ none :=
    answered_of_commit hversion hrequest hcommit
  cases hm : s.handed agentVersion request with
  | none =>
    rw [hm] at hanswered
    exact absurd rfl hanswered
  | some m => rfl

/-! ## A small route -/

/-- A worker has claimed the run and is in its loop. -/
def loopingDb : Db :=
  (reach {} [
    after 0 (.register [{ samplePackage with agentId := "memoir_agent", version := "1.0.6" }]),
    after 0 (.create "run-1"
      { sampleCommand .auto with agentId := "memoir_agent", agentVersion := "1.0.6" }
      "caller" "tenant" 1),
    after 0 (.claim "run-1" "worker-1" 90),
    after 1 (.write 0 (.addStep (WorkflowExecutor.startStep "step-1" "run-1"
      { nodeId := "generate_scene_batches", nodeType := "bounded_loop" }
      sampleContext.leaseContext)))]).db

/-- The one batch of a diary. -/
def diaryRequest : BatchRequest where
  batchIndex := 1
  isFirstBatch := true
  isFinalBatch := true
  sourceRefs := ["diary:1"]
  materials := [⟨"diary:1", "a day by the sea"⟩]

/-- The route takes this many tokens, and the model answers well. -/
def routeOf (tokens : Int) : BatchSender where
  adapter := {
    packages := {
      load := fun _ version ref => some {
        promptId := ref.1
        version := version
        outputSchema := "scenes.v1"
        modelPolicy := "standard"
        guardrailPolicy := "standard"
        template := "x" }
      capabilityAvailable := fun _ _ _ => some true
      contextTokenBudget := fun _ _ => some tokens
      floatText := fun _ _ => "0.5"
      redact := fun text => (redactNumbers asciiClasses text).1 }
    routeIds := [("generate_scene_batch", "primary")]
    leaseContext := some sampleContext.leaseContext }
  classes := asciiClasses
  redaction := rfl
  db := loopingDb
  now := seconds 2
  runId := "run-1"
  gateway := fun _ => plainModel diaryRequest

def seaside : Json :=
  .obj [("materials", .arr [.obj [("sensitive", .bool false), ("source_ref", .str "diary:1"),
    ("text", .str "a day by the sea")]])]

/-- The turn of the loop asks for the diary, and a request goes out. -/
theorem seaside_consumed (tokens : Int) (h : tokens = 3 ∨ tokens = 4) :
    (routeOf tokens).Consumes "1.0.6" seaside [] 1 grantedTurn diaryRequest ∧
      ((routeOf tokens).handed "1.0.6" diaryRequest).isSome = true := by
  rcases h with rfl | rfl
  · exact ⟨⟨by decide +kernel, by decide +kernel⟩, by decide +kernel⟩
  · exact ⟨⟨by decide +kernel, by decide +kernel⟩, by decide +kernel⟩

/-- Sixteen characters are sent whole within four tokens. -/
theorem seaside_sent_whole : ∃ m, (routeOf 4).handed "1.0.6" diaryRequest = some m ∧
    (routeOf 4).SentWhole diaryRequest m := by
  obtain ⟨hconsumed, hhanded⟩ := seaside_consumed 4 (Or.inr rfl)
  obtain ⟨m, hm⟩ := Option.isSome_iff_exists.mp hhanded
  refine ⟨m, hm, ((consumed_whole_iff (routeOf 4) "1.0.6" seaside [] 1 grantedTurn diaryRequest
    hconsumed).2 m hm).mpr fun budget hbudget => ?_⟩
  cases hbudget
  decide +kernel

/-- Within three they are not, and the loop takes them for consumed. -/
theorem seaside_cut_short :
    (routeOf 3).Consumes "1.0.6" seaside [] 1 grantedTurn diaryRequest ∧
      ∃ m, (routeOf 3).handed "1.0.6" diaryRequest = some m ∧
        ¬ (routeOf 3).SentWhole diaryRequest m := by
  obtain ⟨hconsumed, hhanded⟩ := seaside_consumed 3 (Or.inl rfl)
  obtain ⟨m, hm⟩ := Option.isSome_iff_exists.mp hhanded
  have hmaterials : (loopAfter "1.0.6" seaside []).materials = loopMaterialTexts seaside := rfl
  have hbatched : Batched diaryRequest := batched_of_turn hmaterials hconsumed.asked
  refine ⟨hconsumed, m, hm, fun hwhole => ?_⟩
  have hfits := (sentWhole_iff hbatched hm).mp hwhole 3 rfl
  revert hfits
  decide +kernel

end BatchSender

end AgentRuntime
