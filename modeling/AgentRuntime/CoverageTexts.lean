import AgentRuntime.CoverageRepair
import AgentRuntime.MaterialText

/-!
# Which types the repair can cover

A type is available if the snapshot has an item of it, whatever the item is
worth. A text that the model may see comes from one kind of item only, a
valid one of the canonical list with a `text_digest` that is not blank, and
the sanitizing never makes a blank text of one that is not
(`materialSummary_not_blank`). So the repair gives up for want of a text
exactly where a missing type has no such item (`digest_missing_iff`); the
model is not asked, and the scenes stay.
-/

namespace AgentRuntime

open Regex MemoirNodeRunner

/-! ## Texts that are not blank -/

theorem isBlank_eq_false {text : String} :
    isBlank text = false ↔ ∃ c ∈ text.toList, isSpace c = false := by
  unfold isBlank
  rw [List.all_eq_false]
  exact exists_congr fun c => and_congr_right fun _ => Bool.eq_false_iff.symm

/-- The pieces of a text with a character that is no blank show one. -/
theorem shown_not_blank : ∀ {pieces : List (Piece Char)},
    (∃ c ∈ sourceOf pieces, isSpace c = false) → ∃ c ∈ shown pieces, isSpace c = false
  | [], h => h
  | .hit text :: pieces, _ => ⟨'[', List.mem_cons_self, by decide⟩
  | .kept d :: pieces, ⟨c, hc, hspace⟩ => by
    rcases List.mem_cons.mp hc with rfl | hrest
    · exact ⟨c, List.mem_cons_self, hspace⟩
    · obtain ⟨e, he, hspace'⟩ := @shown_not_blank pieces ⟨c, hrest, hspace⟩
      exact ⟨e, List.mem_cons_of_mem _ he, hspace'⟩

theorem replaceNickname_not_blank {s : List Char} (h : ∃ c ∈ s, isSpace c = false) :
    ∃ c ∈ replaceNickname s, isSpace c = false := by
  unfold replaceNickname
  split
  · split
    · exact ⟨'我', List.mem_cons_self, by decide⟩
    · exact h
  · exact h

/-- What is left of a text that is stripped begins with a character that is no
blank. -/
theorem strip_head {s : List Char} (h : ∃ c ∈ s, isSpace c = false) :
    ∃ c rest, ((s.dropWhile isSpace).reverse.dropWhile isSpace).reverse = c :: rest ∧
      isSpace c = false := by
  obtain ⟨lead, middle, trail, hmiddle, hsplit, hlead, htrail⟩ := strip_split isSpace s
  have hother : ∀ {t : List Char}, (∀ x ∈ t, isSpace x = true) → ∀ c ∈ t, isSpace c ≠ false := by
    intro t ht c hc hspace
    exact Bool.false_ne_true (hspace.symm.trans (ht c hc))
  rw [hmiddle]
  cases middle with
  | nil =>
    obtain ⟨c, hc, hspace⟩ := h
    rw [hsplit] at hc
    rcases List.mem_append.mp hc with hc | hc
    · exact absurd hspace (hother hlead c hc)
    · exact absurd hspace (hother htrail c hc)
  | cons c rest =>
    refine ⟨c, rest, rfl, ?_⟩
    -- it is the first character that is not dropped
    have hfront : c :: rest <+: s.dropWhile isSpace := by
      rw [← hmiddle, ← List.reverse_suffix, List.reverse_reverse]
      exact List.dropWhile_suffix _
    obtain ⟨more, hmore⟩ := hfront
    have hhead := List.head?_dropWhile_not isSpace s
    rw [← hmore] at hhead
    exact hhead

/-- A text that is not blank is not sanitized to a blank one. -/
theorem materialSummary_not_blank (cc : CharClasses) {content : String}
    (h : isBlank content = false) {limit : Nat} (hlimit : 0 < limit) :
    isBlank (sanitizeMaterialSummary (redactMaterial cc) content limit) = false := by
  obtain ⟨limit, rfl⟩ : ∃ k, limit = k + 1 := ⟨limit - 1, by omega⟩
  have hsub : ∃ c ∈ sub (materialSensitive cc) redactedText content.toList, isSpace c = false := by
    refine shown_not_blank ?_
    rw [sourceOf_divide]
    exact isBlank_eq_false.mp h
  obtain ⟨c, rest, hstrip, hspace⟩ := strip_head (replaceNickname_not_blank hsub)
  refine isBlank_eq_false.mpr ⟨c, ?_, hspace⟩
  unfold sanitizeMaterialSummary firstChars stripText redactMaterial
  rw [String.toList_ofList, String.toList_ofList, String.toList_ofList, hstrip]
  exact List.mem_cons_self

/-! ## Items with a text -/

/-- A valid item of the type, with a digest. -/
def DigestItem (materialType : String) : Json → Prop
  | .obj item =>
    (∃ ref, Json.get? "source_ref" item = some (.str ref) ∧ ref ≠ "") ∧
      Json.get? "material_type" item = some (.str materialType) ∧
      (textDigest (Json.get? "sanitized_payload" item)).isSome = true
  | _ => False

/-- The canonical list of the snapshot has such an item. -/
def HasDigest (snapshot : Option JsonFields) (materialType : String) : Prop :=
  ∃ rawMaterials, snapshot.bind canonicalMaterials = some rawMaterials ∧
    ∃ item ∈ rawMaterials, DigestItem materialType item

section

variable {cc : CharClasses} {floatText : Json.FloatText}

theorem textDigest_not_blank {payload : Option Json} {digest : String}
    (h : textDigest payload = some digest) : isBlank digest = false := by
  unfold textDigest at h
  split at h
  · split at h
    · split at h
      · cases h
      next hblank =>
        cases h
        exact Bool.eq_false_iff.mpr hblank
    · cases h
  · cases h

/-- An entry with its reference, its type and a text is shown. -/
theorem safeMaterial_entry {ref materialType text : String} {more : JsonFields}
    (href : ref ≠ "") (htext : isBlank text = false) :
    safeMaterial materialType
      (materialEntry ref materialType false (("text", .str text) :: more)) = some ⟨ref, text⟩ := by
  have htype : hasType materialType
      (materialEntry ref materialType false (("text", .str text) :: more)) = true :=
    decide_eq_true rfl
  unfold safeMaterial
  rw [if_pos htype]
  show (if ref = "" ∨ isBlank text = true then none else some (⟨ref, text⟩ : LoopMaterial)) = _
  rw [if_neg]
  rintro (hempty | hblank)
  · exact href hempty
  · exact Bool.false_ne_true (htext.symm.trans hblank)

/-- The entry of a valid item with a digest. -/
theorem sanitizeCanonicalMaterial_digest {redact : String → String} {fields : JsonFields}
    {ref t digest : String} (href : Json.get? "source_ref" fields = some (.str ref))
    (hnonempty : ref ≠ "") (htype : Json.get? "material_type" fields = some (.str t))
    (ht : t ≠ "") (hdigest : textDigest (Json.get? "sanitized_payload" fields) = some digest) :
    ∃ more, sanitizeCanonicalMaterial redact floatText (.obj fields)
      = some (materialEntry ref t false
          (("text", .str (sanitizeMaterialSummary redact digest 200)) :: more)) := by
  refine ⟨attachMaterialImages
    ((payloadFields (Json.get? "sanitized_payload" fields)).getD []), ?_⟩
  unfold sanitizeCanonicalMaterial
  dsimp only
  rw [href, htype]
  refine (if_neg (not_or.mpr ⟨hnonempty, ht⟩)).trans ?_
  rw [hdigest]

/-- A valid item with a digest is shown. -/
theorem safe_of_digestItem {t : String} (ht : t ≠ "") {item : Json} (h : DigestItem t item) :
    ∃ entry material, sanitizeCanonicalMaterial (redactMaterial cc) floatText item = some entry ∧
      safeMaterial t entry = some material := by
  cases item with
  | obj fields =>
    obtain ⟨⟨ref, href, hnonempty⟩, htype, hdigest⟩ := h
    obtain ⟨digest, hdigest⟩ := Option.isSome_iff_exists.mp hdigest
    have hblank := materialSummary_not_blank cc (textDigest_not_blank hdigest)
      (show 0 < 200 by decide)
    obtain ⟨more, hentry⟩ := @sanitizeCanonicalMaterial_digest floatText (redactMaterial cc) fields
      ref t digest href hnonempty htype ht hdigest
    exact ⟨_, _, hentry, safeMaterial_entry hnonempty hblank⟩
  | _ => cases h

theorem safeMaterial_of_loopMaterial {t : String} {entry : Json} (h : loopMaterial entry = none) :
    safeMaterial t entry = none := by
  unfold safeMaterial
  rw [h]
  exact ite_self _

/-- The images have no text. -/
theorem attachMaterialImages_no_text (payload : JsonFields) :
    Json.get? "text" (attachMaterialImages payload) = none := by
  unfold attachMaterialImages
  split
  · dsimp only
    split <;> rfl
  · rfl

/-- Without a digest an entry is not shown. -/
theorem loopMaterial_of_no_digest {redact : String → String} {fields : JsonFields} {entry : Json}
    (hentry : sanitizeCanonicalMaterial redact floatText (.obj fields) = some entry)
    (hdigest : textDigest (Json.get? "sanitized_payload" fields) = none) :
    loopMaterial entry = none := by
  obtain ⟨ref, -, hentry⟩ := Option.bind_eq_some_iff.mp hentry
  obtain ⟨materialType, -, hentry⟩ := Option.bind_eq_some_iff.mp hentry
  split at hentry
  · cases hentry
  dsimp only at hentry
  rw [hdigest] at hentry
  dsimp only at hentry
  split at hentry
  · split at hentry
    · cases hentry
      exact loopMaterial_of_no_text (attachMaterialImages_no_text _)
    · cases hentry
      exact loopMaterial_sensitive _ _ _
  · cases hentry
    exact loopMaterial_sensitive _ _ _

/-- What is shown comes from a valid item with a digest. -/
theorem digestItem_of_safe {redact : String → String} {t : String} {item entry : Json}
    {material : LoopMaterial}
    (hentry : sanitizeCanonicalMaterial redact floatText item = some entry)
    (hsafe : safeMaterial t entry = some material) : DigestItem t item := by
  cases item with
  | obj fields =>
    cases hdigest : textDigest (Json.get? "sanitized_payload" fields) with
    | none =>
      rw [safeMaterial_of_loopMaterial (loopMaterial_of_no_digest hentry hdigest)] at hsafe
      cases hsafe
    | some digest =>
      have hall := hentry
      obtain ⟨ref, href, hentry⟩ := Option.bind_eq_some_iff.mp hentry
      obtain ⟨materialType, htype, hentry⟩ := Option.bind_eq_some_iff.mp hentry
      split at hentry
      · cases hentry
      next hgiven =>
      obtain ⟨hnonempty, ht⟩ := not_or.mp hgiven
      obtain ⟨more, hsame⟩ := @sanitizeCanonicalMaterial_digest floatText redact fields ref
        materialType digest (eq_str_of_bind href) hnonempty (eq_str_of_bind htype) ht hdigest
      cases hall.symm.trans hsame
      unfold safeMaterial at hsafe
      split at hsafe
      next hhas =>
        have hequal : materialType = t := of_decide_eq_true hhas
        exact ⟨⟨ref, eq_str_of_bind href, hnonempty⟩, hequal ▸ eq_str_of_bind htype,
          by rw [hdigest]; rfl⟩
      · cases hsafe
  | _ => cases hentry

/-- **What can be shown**: a type has a text exactly if the snapshot has a
valid item of it with a digest. -/
theorem hasSafeText_iff {snapshot : Option JsonFields} {view : MaterialView}
    (h : prepareMaterials (redactMaterial cc) floatText snapshot = .ok view) {t : String}
    (ht : t ≠ "") : view.HasSafeText t ↔ HasDigest snapshot t := by
  obtain ⟨hview, -⟩ := prepareMaterials_ok h
  have hitems : view.items
      = (snapshot.map (sanitizedItems (redactMaterial cc) floatText)).getD [] := by
    unfold MaterialView.items
    rw [hview]
    rfl
  unfold MaterialView.HasSafeText HasDigest
  rw [hitems]
  cases snapshot with
  | none =>
    refine iff_of_false ?_ ?_
    · rintro ⟨item, hitem, -⟩
      cases hitem
    · rintro ⟨rawMaterials, hraw, -⟩
      cases hraw
  | some snapshot =>
    rw [Option.map_some, Option.getD_some, Option.bind_some]
    unfold sanitizedItems
    cases hraw : canonicalMaterials snapshot with
    | some rawMaterials =>
      dsimp only
      constructor
      · rintro ⟨entry, hentry, material, hsafe⟩
        obtain ⟨item, hitem, hentry⟩ := List.mem_filterMap.mp hentry
        exact ⟨rawMaterials, rfl, item, hitem, digestItem_of_safe hentry hsafe⟩
      · rintro ⟨_, hsome, item, hitem, hdigest⟩
        cases hsome
        obtain ⟨entry, material, hentry, hsafe⟩ := @safe_of_digestItem cc floatText t ht item hdigest
        exact ⟨entry, List.mem_filterMap.mpr ⟨item, hitem, hentry⟩, material, hsafe⟩
    | none =>
      dsimp only
      refine iff_of_false ?_ ?_
      · -- an entry of a slot has no text
        rintro ⟨entry, hentry, material, hsafe⟩
        obtain ⟨slot, -, hslot⟩ := List.mem_flatMap.mp hentry
        obtain ⟨item, -, hentry⟩ := List.mem_filterMap.mp hslot
        rw [safeMaterial_of_loopMaterial (sanitizeSlotItem_ok hentry).2] at hsafe
        cases hsafe
      · rintro ⟨rawMaterials, hsome, -⟩
        cases hsome

/-- The repair gives up for want of a text where a missing type has none. -/
theorem digest_missing_iff {redact : String → String} {snapshot : Option JsonFields}
    {view : MaterialView} (h : prepareMaterials redact floatText snapshot = .ok view)
    (model : CoverageModel) (scenes : List Json) :
    (repairCoverageGaps model view scenes).1 = .error "COVERAGE_TEXT_DIGEST_MISSING" ↔
      ∃ covered, coveredMaterialTypes scenes = some covered ∧
        ∃ t ∈ missingTypes view covered, ¬ view.HasSafeText t := by
  have hother : ∀ code, code ≠ "COVERAGE_TEXT_DIGEST_MISSING" →
      (Except.error code : Except String CoverageResult) ≠ .error "COVERAGE_TEXT_DIGEST_MISSING" :=
    fun code hne hsame => hne (Except.error.inj hsame)
  unfold repairCoverageGaps
  cases hcovered : coveredMaterialTypes scenes with
  | none =>
    refine iff_of_false (hother _ (by decide)) ?_
    rintro ⟨covered, hsome, -⟩
    cases hsome
  | some covered =>
    obtain ⟨answer, hanswer, hhands⟩ := missingTypeMaterials_of_prepared h covered
    have hunique : (∃ covered', some covered = some covered' ∧
        ∃ t ∈ missingTypes view covered', ¬ view.HasSafeText t) ↔ answer = none := by
      rw [hhands.none_iff]
      constructor
      · rintro ⟨_, hsame, hmissing⟩
        cases hsame
        exact hmissing
      · exact fun hmissing => ⟨covered, rfl, hmissing⟩
    rw [hunique]
    dsimp only
    unfold missingTypes at hanswer hhands
    by_cases hnone : ((availableMaterialTypes view).filter fun t => decide (t ∉ covered)) = []
    · rw [if_pos hnone]
      refine iff_of_false (fun hcode => by cases hcode) fun hanswer' => ?_
      obtain ⟨t, ht, -⟩ := hhands.none_iff.mp hanswer'
      rw [hnone] at ht
      cases ht
    rw [if_neg hnone, hanswer]
    cases answer with
    | none => exact iff_of_true rfl rfl
    | some materials =>
      -- whatever the model makes of the materials, it is another code
      refine iff_of_false ?_ (fun hsome => by cases hsome)
      dsimp only
      split
      · exact hother _ (by decide)
      split
      · exact hother _ (by decide)
      split
      · exact hother _ (by decide)
      split
      · exact hother _ (by decide)
      split
      next code happly =>
        unfold applyToolOutput at happly
        split at happly
        · cases happly
          exact hother _ (by decide)
        · cases happly
      · intro hcode
        cases hcode

end

/-- A type that is available, that no scene is about, and that has no text to
show. -/
def Uncoverable (snapshot : Option JsonFields) (view : MaterialView) (covered : List String)
    (t : String) : Prop :=
  t ∈ missingTypes view covered ∧ ¬ HasDigest snapshot t

/-- **When the coverage can be had.** For the materials of any snapshot a type
has a text exactly if there is a valid item of it with a digest, and then it is
available; and the repair gives up for want of a text exactly if a type that
is missing has none, whatever the model, and leaves the scenes. -/
theorem coverage_satisfiable_iff (cc : CharClasses) (floatText : Json.FloatText)
    (snapshot : Option JsonFields) (view : MaterialView)
    (h : prepareMaterials (redactMaterial cc) floatText snapshot = .ok view) :
    (∀ t ∈ materialTypeOrder, (view.HasSafeText t ↔ HasDigest snapshot t) ∧
      (HasDigest snapshot t → t ∈ availableMaterialTypes view)) ∧
    ∀ (model : CoverageModel) (scenes : List Json),
      ((repairCoverageGaps model view scenes).1 = .error "COVERAGE_TEXT_DIGEST_MISSING" ↔
        ∃ covered, coveredMaterialTypes scenes = some covered ∧
          ∃ t, Uncoverable snapshot view covered t) ∧
      ((repairCoverageGaps model view scenes).1 = .error "COVERAGE_TEXT_DIGEST_MISSING" →
        (repairCoverageGaps model view scenes).2 = scenes) := by
  have hnamed : ∀ t ∈ materialTypeOrder, t ≠ "" := by decide
  have hsafe : ∀ t ∈ materialTypeOrder, view.HasSafeText t ↔ HasDigest snapshot t :=
    fun t ht => hasSafeText_iff h (hnamed t ht)
  refine ⟨fun t ht => ⟨hsafe t ht, fun hdigest =>
    available_of_safe h ht ((hsafe t ht).mpr hdigest)⟩, fun model scenes => ⟨?_, ?_⟩⟩
  · rw [digest_missing_iff h]
    refine exists_congr fun covered => and_congr_right fun _ => exists_congr fun t => ?_
    refine and_congr_right fun hmissing => not_congr (hsafe t ?_)
    have havailable := (List.mem_filter.mp hmissing).1
    rw [(prepareMaterials_ok h).2] at havailable
    exact (List.mem_filter.mp havailable).1
  · intro hcode
    obtain ⟨covered, hcovered, t, hmissing, hnone⟩ := (digest_missing_iff h model scenes).mp hcode
    obtain ⟨answer, hanswer, hhands⟩ := missingTypeMaterials_of_prepared h covered
    have hanswer' := hhands.none_iff.mpr ⟨t, hmissing, hnone⟩
    rw [hanswer'] at hanswer
    unfold missingTypes at hanswer
    unfold repairCoverageGaps
    rw [hcovered]
    dsimp only
    rw [hanswer]
    split <;> rfl

/-- A diary entry and a note, of which only the entry has a digest. -/
def noteWithoutDigest : JsonFields :=
  [("materials", .arr [
    .obj [("source_ref", .str "diary:1"), ("material_type", .str "diary"),
      ("sanitized_payload", .obj [("text_digest", .str "雪")])],
    .obj [("source_ref", .str "handbook_note:1"), ("material_type", .str "handbook_note")]])]

/-- The note is available and has no text, so the repair gives up. -/
theorem note_not_covered : ∃ view,
    prepareMaterials (redactMaterial asciiClasses) (fun _ _ => "") (some noteWithoutDigest)
        = .ok view ∧
      "handbook_note" ∈ availableMaterialTypes view ∧ ¬ view.HasSafeText "handbook_note" ∧
      (repairCoverageGaps notedModel view diaryScenes).1
        = .error "COVERAGE_TEXT_DIGEST_MISSING" := by
  refine ⟨_, rfl, by decide +kernel, ?_, by decide +kernel⟩
  rw [not_safe_iff]
  decide +kernel

/-- A note with a digest has a text. -/
theorem note_has_text : ∃ view,
    prepareMaterials (redactMaterial asciiClasses) (fun _ _ => "") (some twoTypes) = .ok view ∧
      view.HasSafeText "handbook_note" ∧ "handbook_note" ∈ availableMaterialTypes view := by
  have hdigest : HasDigest (some twoTypes) "handbook_note" := by
    refine ⟨_, rfl, _, List.mem_cons_of_mem _ List.mem_cons_self, ?_⟩
    exact ⟨⟨"handbook_note:1", rfl, by decide⟩, rfl, by decide +kernel⟩
  obtain ⟨htexts, -⟩ := coverage_satisfiable_iff asciiClasses (fun _ _ => "") (some twoTypes) _ rfl
  obtain ⟨hsafe, havailable⟩ := htexts "handbook_note" (by decide)
  exact ⟨_, rfl, hsafe.mpr hdigest, havailable hdigest⟩

end AgentRuntime
