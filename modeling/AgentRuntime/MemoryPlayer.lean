import Mathlib.Data.List.Pairwise
import Mathlib.Data.List.Sort
import AgentRuntime.DocumentRows

/-!
# The player

`MemoryPlayerService` reads what an archive has published: the document its
pointer leads to, the scenes of that document and the actions of these scenes,
each in its order. The rows are shared tables, other archives publish into them
all the time, and the collection takes rows out of them.

`Housed` is what the tables keep: a scene has its document, an action its
scene, and no two rows are in one place. From it, `playback_whole`: whatever is
done, an archive that is there can be played, and what is played belongs
together. `played_as_published` is the round trip: what a publication has
written is what is played, until the archive shows another revision or is
deleted. Both need the baselines that deletions go back to, as the revisions
do (`Catalogue`).

Only the names and the numbers of the rows are modelled; the texts a row
carries are read with it.
-/

namespace AgentRuntime

open Keyed Runs Numbering

/-! ## Reading -/

/-- The scenes of a document. -/
def scenesOf (db : MemoirDb) (documentId : String) : List MemoryScene :=
  db.scenes.filter (fun s => decide (s.documentId = documentId))

/-- The actions of scenes. -/
def actionsOf (db : MemoirDb) (scenes : List MemoryScene) : List MemoryAction :=
  db.actions.filter (fun a => decide (a.sceneId ∈ scenes.map (·.sceneId)))

/-- `order_by(MemoryScene.scene_order)`. -/
def MemoryScene.NotAfter (s t : MemoryScene) : Prop := s.sceneOrder ≤ t.sceneOrder

/-- `order_by(MemoryAction.scene_id, MemoryAction.action_order)`. -/
def MemoryAction.NotAfter (a b : MemoryAction) : Prop :=
  a.sceneId < b.sceneId ∨ (a.sceneId = b.sceneId ∧ a.actionOrder ≤ b.actionOrder)

instance : DecidableRel MemoryScene.NotAfter := fun s t =>
  inferInstanceAs (Decidable (s.sceneOrder ≤ t.sceneOrder))

instance : DecidableRel MemoryAction.NotAfter := fun a b =>
  inferInstanceAs
    (Decidable (a.sceneId < b.sceneId ∨ (a.sceneId = b.sceneId ∧ a.actionOrder ≤ b.actionOrder)))

instance : IsTrans MemoryScene MemoryScene.NotAfter := ⟨fun _ _ _ h h' => le_trans h h'⟩

instance : Std.Total MemoryScene.NotAfter := ⟨fun _ _ => le_total _ _⟩

instance : IsTrans MemoryAction MemoryAction.NotAfter := by
  refine ⟨fun a b c h h' => ?_⟩
  rcases h with h | ⟨h, hle⟩
  · rcases h' with h' | ⟨h', _⟩
    · exact .inl (String.lt_trans h h')
    · exact .inl (h' ▸ h)
  · rcases h' with h' | ⟨h', hle'⟩
    · exact .inl (h.symm ▸ h')
    · exact .inr ⟨h.trans h', le_trans hle hle'⟩

instance : Std.Total MemoryAction.NotAfter := by
  refine ⟨fun a b => ?_⟩
  by_cases hlt : a.sceneId < b.sceneId
  · exact .inl (.inl hlt)
  by_cases hgt : b.sceneId < a.sceneId
  · exact .inr (.inl hgt)
  have heq : a.sceneId = b.sceneId := String.le_antisymm hgt hlt
  exact (le_total a.actionOrder b.actionOrder).imp (fun hle => .inr ⟨heq, hle⟩)
    fun hle => .inr ⟨heq.symm, hle⟩

/-- `PublishedMemoryPlayback`. -/
structure PublishedMemoryPlayback where
  document : MemoryPlaybackDocument
  scenes : List MemoryScene
  actions : List MemoryAction
  deriving DecidableEq

/-- A document with its rows, in their order. -/
def PublishedMemoryPlayback.arrange (document : MemoryPlaybackDocument) (scenes : List MemoryScene)
    (actions : List MemoryAction) : PublishedMemoryPlayback :=
  ⟨document, scenes.insertionSort MemoryScene.NotAfter, actions.insertionSort MemoryAction.NotAfter⟩

namespace MemoryPlayerService

/-- `get_published_document`. -/
def getPublishedDocument (db : MemoirDb) (archiveId : String) : Result MemoryPlaybackDocument :=
  match db.liveArchive? archiveId with
  | none => .error (invalid "回忆录归档不存在或已删除")
  | some archive =>
    match (db.documents.find? (archiveId, archive.publishedRevision)).filter (·.isPublished) with
    | none => .error (invalid "回忆录已发布版本不存在")
    | some document => pure document

/-- `get_published_playback`. -/
def getPublishedPlayback (db : MemoirDb) (archiveId : String) : Result PublishedMemoryPlayback := do
  let document ← getPublishedDocument db archiveId
  let scenes := scenesOf db document.documentId
  pure (.arrange document scenes (actionsOf db scenes))

end MemoryPlayerService

/-! ## Where the rows belong -/

/-- A scene has its document and an action its scene, and no two rows are in
one place. -/
structure Housed (db : MemoirDb) : Prop where
  scenes : ∀ s ∈ db.scenes, ∃ d ∈ db.documents.rows, d.documentId = s.documentId
  actions : ∀ a ∈ db.actions, ∃ s ∈ db.scenes, s.sceneId = a.sceneId
  scenesApart : db.scenes.Pairwise MemoryScene.Apart
  actionsApart : db.actions.Pairwise MemoryAction.Apart

theorem Housed.empty : Housed {} :=
  ⟨fun _ h => (nomatch h), fun _ h => (nomatch h), .nil, .nil⟩

/-- The rows are the same, and every document is still there. -/
theorem Housed.congr {db db' : MemoirDb} (h : Housed db)
    (hdocuments : ∀ d ∈ db.documents.rows, ∃ d' ∈ db'.documents.rows, d'.documentId = d.documentId)
    (hscenes : db'.scenes = db.scenes) (hactions : db'.actions = db.actions) : Housed db' := by
  refine ⟨fun s hs => ?_, fun a ha => ?_, hscenes ▸ h.scenesApart, hactions ▸ h.actionsApart⟩
  · obtain ⟨d, hd, hid⟩ := h.scenes s (hscenes ▸ hs)
    obtain ⟨d', hd', hid'⟩ := hdocuments d hd
    exact ⟨d', hd', hid'.trans hid⟩
  · rw [hscenes]
    exact h.actions a (hactions ▸ ha)

theorem MemoryScene.Apart.symm {s t : MemoryScene} (h : s.Apart t) : t.Apart s :=
  ⟨fun he => h.1 he.symm, fun ⟨hd, ho⟩ => h.2 ⟨hd.symm, ho.symm⟩⟩

instance : Std.Symm MemoryScene.Apart := ⟨fun _ _ h => h.symm⟩

/-- The scenes of a name are one scene. -/
theorem Housed.scene_eq {db : MemoirDb} (h : Housed db) {s t : MemoryScene} (hs : s ∈ db.scenes)
    (ht : t ∈ db.scenes) (hid : s.sceneId = t.sceneId) : s = t := by
  by_contra hne
  exact (h.scenesApart.forall hs ht hne).1 hid

/-! ## What a new document adds -/

theorem filter_append_of_none {α : Type} {p : α → Bool} {xs ys : List α}
    (h : ∀ y ∈ ys, ¬ p y = true) : (xs ++ ys).filter p = xs.filter p := by
  rw [List.filter_append, List.filter_eq_nil_iff.mpr h, List.append_nil]

theorem filter_append_of_all {α : Type} {p : α → Bool} {xs ys : List α}
    (hxs : ∀ x ∈ xs, ¬ p x = true) (hys : ∀ y ∈ ys, p y = true) : (xs ++ ys).filter p = ys := by
  rw [List.filter_append, List.filter_eq_nil_iff.mpr hxs, List.filter_eq_self.mpr hys,
    List.nil_append]

/-- Rows for the document `documentId` come in, and no other scenes or actions
change. -/
structure AddsDocument (db db' : MemoirDb) (documentId : String) (newScenes : List MemoryScene)
    (newActions : List MemoryAction) : Prop where
  scenes : db'.scenes = db.scenes ++ newScenes
  actions : db'.actions = db.actions ++ newActions
  here : ∀ s ∈ newScenes, s.documentId = documentId
  owned : ∀ a ∈ newActions, ∃ s ∈ newScenes, s.sceneId = a.sceneId
  scenesApart : db'.scenes.Pairwise MemoryScene.Apart
  actionsApart : db'.actions.Pairwise MemoryAction.Apart

namespace AddsDocument

variable {db db' : MemoirDb} {documentId : String} {newScenes : List MemoryScene}
  {newActions : List MemoryAction}

/-- No scene that was there has the name of a new one. -/
theorem apart (h : AddsDocument db db' documentId newScenes newActions) {s t : MemoryScene}
    (hs : s ∈ db.scenes) (ht : t ∈ newScenes) : s.sceneId ≠ t.sceneId := by
  have hpair := h.scenesApart
  rw [h.scenes] at hpair
  exact ((List.pairwise_append.mp hpair).2.2 s hs t ht).1

theorem scenesOf_other (h : AddsDocument db db' documentId newScenes newActions) {other : String}
    (hne : other ≠ documentId) : scenesOf db' other = scenesOf db other := by
  unfold scenesOf
  rw [h.scenes, filter_append_of_none]
  intro s hs
  rw [decide_eq_true_eq, h.here s hs]
  exact fun he => hne he.symm

theorem actionsOf_other (h : AddsDocument db db' documentId newScenes newActions)
    {scenes : List MemoryScene} (hold : ∀ s ∈ scenes, s ∈ db.scenes) :
    actionsOf db' scenes = actionsOf db scenes := by
  unfold actionsOf
  rw [h.actions, filter_append_of_none]
  intro a ha
  rw [decide_eq_true_eq]
  intro hmem
  obtain ⟨s, hs, hid⟩ := List.mem_map.mp hmem
  obtain ⟨t, ht, hid'⟩ := h.owned a ha
  exact h.apart (hold s hs) ht (hid.trans hid'.symm)

/-- The document is new: its scenes are those that came in. -/
theorem scenesOf_new (h : AddsDocument db db' documentId newScenes newActions)
    (hnew : ∀ s ∈ db.scenes, s.documentId ≠ documentId) : scenesOf db' documentId = newScenes := by
  unfold scenesOf
  rw [h.scenes]
  refine filter_append_of_all (fun s hs => ?_) fun s hs => decide_eq_true (h.here s hs)
  rw [decide_eq_true_eq]
  exact hnew s hs

theorem actionsOf_new (h : AddsDocument db db' documentId newScenes newActions) (hdb : Housed db) :
    actionsOf db' newScenes = newActions := by
  unfold actionsOf
  rw [h.actions]
  refine filter_append_of_all (fun a ha => ?_) fun a ha => ?_
  · rw [decide_eq_true_eq]
    intro hmem
    obtain ⟨t, ht, hid⟩ := List.mem_map.mp hmem
    obtain ⟨s, hs, hid'⟩ := hdb.actions a ha
    exact h.apart hs ht (hid'.trans hid.symm)
  · rw [decide_eq_true_eq]
    obtain ⟨s, hs, hid⟩ := h.owned a ha
    rw [← hid]
    exact List.mem_map_of_mem hs

theorem housed (h : AddsDocument db db' documentId newScenes newActions) (hdb : Housed db)
    (hold : ∀ d ∈ db.documents.rows, ∃ d' ∈ db'.documents.rows, d'.documentId = d.documentId)
    (hnew : ∃ d ∈ db'.documents.rows, d.documentId = documentId) : Housed db' := by
  refine ⟨fun s hs => ?_, fun a ha => ?_, h.scenesApart, h.actionsApart⟩
  · rw [h.scenes] at hs
    rcases List.mem_append.mp hs with hs | hs
    · obtain ⟨d, hd, hid⟩ := hdb.scenes s hs
      obtain ⟨d', hd', hid'⟩ := hold d hd
      exact ⟨d', hd', hid'.trans hid⟩
    · obtain ⟨d, hd, hid⟩ := hnew
      exact ⟨d, hd, hid.trans (h.here s hs).symm⟩
  · rw [h.actions] at ha
    rw [h.scenes]
    rcases List.mem_append.mp ha with ha | ha
    · obtain ⟨s, hs, hid⟩ := hdb.actions a ha
      exact ⟨s, List.mem_append_left _ hs, hid⟩
    · obtain ⟨s, hs, hid⟩ := h.owned a ha
      exact ⟨s, List.mem_append_right _ hs, hid⟩

end AddsDocument

/-! ### The rows of a publication -/

theorem insertScene_apart {db db' : MemoirDb} {s : MemoryScene} (h : insertScene db s = .ok db')
    (hdb : db.scenes.Pairwise MemoryScene.Apart) : db'.scenes.Pairwise MemoryScene.Apart := by
  have hfree := (insertScene_iff db s).mp ⟨db', h⟩
  rw [insertScene_scenes db s db' h, List.pairwise_append]
  refine ⟨hdb, List.pairwise_singleton _ _, fun t ht u hu => ?_⟩
  rw [List.mem_singleton.mp hu]
  exact hfree t ht

theorem insertAction_apart {db db' : MemoirDb} {a : MemoryAction}
    (h : insertAction db a = .ok db') (hdb : db.actions.Pairwise MemoryAction.Apart) :
    db'.actions.Pairwise MemoryAction.Apart := by
  have hfree := (insertAction_iff db a).mp ⟨db', h⟩
  rw [insertAction_actions db a db' h, List.pairwise_append]
  refine ⟨hdb, List.pairwise_singleton _ _, fun b hb c hc => ?_⟩
  rw [List.mem_singleton.mp hc]
  exact hfree b hb

theorem foldlM_insert_keeps {σ ρ : Type} {insert : σ → ρ → Result σ} {I : σ → Prop}
    (hinsert : ∀ s r s', insert s r = .ok s' → I s → I s') :
    ∀ (rows : List ρ) (s s' : σ), rows.foldlM insert s = .ok s' → I s → I s'
  | [], s, s', h, hI => by
    cases h
    exact hI
  | row :: rows, s, s', h, hI => by
    obtain ⟨s₁, hone, hrest⟩ := bind_ok.mp h
    exact foldlM_insert_keeps hinsert rows s₁ s' hrest (hinsert s row s₁ hone hI)

namespace MemoryArchiveService

/-- The scenes a publication writes. -/
def Publication.sceneRows (p : Publication) (documentId : String) : List MemoryScene :=
  AgentRuntime.sceneRows documentId p.body.scenes (places 1 p.body.sceneOrders)

/-- The actions a publication writes. -/
def Publication.actionRows (p : Publication) : List MemoryAction :=
  AgentRuntime.actionRows p.body.actions (runningIn (fun _ => 0) p.body.actionOrders)

/-- What is played of a publication. -/
def Publication.playback (p : Publication) (documentId : String) : PublishedMemoryPlayback :=
  .arrange (p.document documentId) (p.sceneRows documentId) p.actionRows

theorem writePublication_adds {db db' : MemoirDb} (hdb : Housed db) {now : Time} {p : Publication}
    {documentId : String} (hchecked : p.body.Checked)
    (h : writePublication db now p documentId = .ok db') :
    AddsDocument db db' documentId (p.sceneRows documentId) p.actionRows := by
  obtain ⟨_, hsuperScenes, hsuperActions, _⟩ := supersedePrevious_places db now p.archive
  obtain ⟨db₁, hdocument, h⟩ := bind_ok.mp h
  obtain ⟨db₂, hone, h⟩ := bind_ok.mp h
  obtain ⟨db₃, htwo, h⟩ := bind_ok.mp h
  cases h
  obtain ⟨_, documents, _, rfl⟩ := insertDocument_ok hdocument
  obtain ⟨hscenes₂, hactions₂⟩ := insertScenes_ok hchecked hone
  obtain ⟨hactions₃, hscenes₃⟩ := insertActions_ok hchecked htwo
  have hscenes : db₃.scenes = db.scenes ++ p.sceneRows documentId :=
    hscenes₃.trans (hscenes₂.trans (congrArg (· ++ _) hsuperScenes))
  have hactions : db₃.actions = db.actions ++ p.actionRows :=
    hactions₃.trans (congrArg (· ++ _) (hactions₂.trans hsuperActions))
  refine ⟨hscenes, hactions, sceneRows_document _ _ _, fun a ha => ?_, ?_, ?_⟩
  · have hnumber := List.mem_map_of_mem (f := fun r => (r.sceneId, r.actionOrder)) ha
    unfold Publication.actionRows at hnumber
    rw [actionRows_numbers p.body.length_actionNumbers] at hnumber
    have hmem : a.sceneId ∈ p.body.sceneIds := hchecked.sceneOf_mem _ hnumber
    rw [PlaybackDocument.Body.sceneIds,
      ← sceneRows_ids documentId p.body.length_sceneNumbers] at hmem
    exact List.mem_map.mp hmem
  · show db₃.scenes.Pairwise MemoryScene.Apart
    rw [hscenes₃]
    rw [insertScenes_rows hchecked.scenes (insertScenes_unfit hone)] at hone
    refine foldlM_insert_keeps (I := fun db => db.scenes.Pairwise MemoryScene.Apart)
      (fun _ _ _ => insertScene_apart) _ _ _ hone ?_
    show (supersedePrevious db now p.archive).scenes.Pairwise MemoryScene.Apart
    rw [hsuperScenes]
    exact hdb.scenesApart
  · show db₃.actions.Pairwise MemoryAction.Apart
    rw [insertActions_rows fun action ha => (hchecked.actions action ha).1] at htwo
    refine foldlM_insert_keeps (I := fun db => db.actions.Pairwise MemoryAction.Apart)
      (fun _ _ _ => insertAction_apart) _ _ _ htwo ?_
    rw [hactions₂]
    show (supersedePrevious db now p.archive).actions.Pairwise MemoryAction.Apart
    rw [hsuperActions]
    exact hdb.actionsApart

theorem createArchive_adds {db db' : MemoirDb} (hdb : Housed db) {frozen : FrozenMemoryInput}
    {digest : String} {owner partner : Int} {ids : ArchiveIds}
    (h : createArchive db frozen digest owner partner ids = .ok db') :
    AddsDocument db db' ids.documentId
      [⟨ids.coverId, ids.documentId, 1⟩, ⟨ids.statsId, ids.documentId, 2⟩]
      [⟨ids.coverActionId, ids.coverId, 1⟩, ⟨ids.statsActionId, ids.statsId, 1⟩] := by
  obtain ⟨_, _, h⟩ := bind_ok.mp h
  obtain ⟨_, _, h⟩ := bind_ok.mp h
  split at h
  · cases h
  · next archives harchives =>
    obtain ⟨db₁, hdocument, h⟩ := bind_ok.mp h
    obtain ⟨db₂, hcover, h⟩ := bind_ok.mp h
    obtain ⟨db₃, hstats, h⟩ := bind_ok.mp h
    obtain ⟨db₄, hone, htwo⟩ := bind_ok.mp h
    obtain ⟨_, documents, hinsert, rfl⟩ := insertDocument_ok hdocument
    have hscenes : db'.scenes = db.scenes ++ [⟨ids.coverId, ids.documentId, 1⟩] ++
        [⟨ids.statsId, ids.documentId, 2⟩] := by
      rw [insertAction_ok htwo, insertAction_ok hone, insertScene_ok hstats, insertScene_ok hcover]
    have hactions : db'.actions = db.actions ++ [⟨ids.coverActionId, ids.coverId, 1⟩] ++
        [⟨ids.statsActionId, ids.statsId, 1⟩] := by
      rw [insertAction_ok htwo, insertAction_ok hone, insertScene_ok hstats, insertScene_ok hcover]
    refine ⟨by rw [hscenes, List.append_assoc]; rfl, by rw [hactions, List.append_assoc]; rfl,
      ?_, ?_, ?_, ?_⟩
    · intro s hs
      rcases List.mem_pair.mp hs with rfl | rfl
      · rfl
      · rfl
    · intro a ha
      rcases List.mem_pair.mp ha with rfl | rfl
      · exact ⟨_, List.mem_cons_self, rfl⟩
      · exact ⟨_, List.mem_cons_of_mem _ List.mem_cons_self, rfl⟩
    · have hstored : db'.scenes = db₃.scenes := by rw [insertAction_ok htwo, insertAction_ok hone]
      rw [hstored]
      exact insertScene_apart hstats (insertScene_apart hcover hdb.scenesApart)
    · refine insertAction_apart htwo (insertAction_apart hone ?_)
      rw [insertScene_ok hstats, insertScene_ok hcover]
      exact hdb.actionsApart

end MemoryArchiveService

/-! ## What an operation leaves -/

/-- A document and its rows are as they were. -/
structure Leaves (db db' : MemoirDb) (d : MemoryPlaybackDocument) : Prop where
  document : db'.documents.find? d.key = db.documents.find? d.key
  scenes : scenesOf db' d.documentId = scenesOf db d.documentId
  actions : actionsOf db' (scenesOf db d.documentId) = actionsOf db (scenesOf db d.documentId)

namespace Leaves

variable {db db' db'' : MemoirDb} {d : MemoryPlaybackDocument}

theorem trans (h : Leaves db db' d) (h' : Leaves db' db'' d) : Leaves db db'' d := by
  refine ⟨h'.document.trans h.document, h'.scenes.trans h.scenes, ?_⟩
  have hactions := h'.actions
  rw [h.scenes] at hactions
  exact hactions.trans h.actions

theorem congr (hdocument : db'.documents.find? d.key = db.documents.find? d.key)
    (hscenes : db'.scenes = db.scenes) (hactions : db'.actions = db.actions) :
    Leaves db db' d := by
  refine ⟨hdocument, ?_, ?_⟩
  · unfold scenesOf
    rw [hscenes]
  · unfold actionsOf
    rw [hactions]

theorem refl (db : MemoirDb) (d : MemoryPlaybackDocument) : Leaves db db d := congr rfl rfl rfl

end Leaves

theorem AddsDocument.leaves {db db' : MemoirDb} {documentId : String}
    {newScenes : List MemoryScene} {newActions : List MemoryAction}
    (h : AddsDocument db db' documentId newScenes newActions) {d : MemoryPlaybackDocument}
    (hdocument : db'.documents.find? d.key = db.documents.find? d.key)
    (hne : d.documentId ≠ documentId) : Leaves db db' d :=
  ⟨hdocument, h.scenesOf_other hne, h.actionsOf_other fun _ hs => (List.mem_filter.mp hs).1⟩

/-- A collection takes nothing from a document that it does not take. -/
theorem dropDocuments_leaves {db : MemoirDb} (hdb : Housed db) {ids : List String}
    {d : MemoryPlaybackDocument} (hfind : db.documents.find? d.key = some d)
    (hkept : d.documentId ∉ ids) : Leaves db (dropDocuments db ids) d := by
  refine ⟨?_, ?_, ?_⟩
  · show (db.documents.filter _).find? _ = _
    rw [Table.find?_filter, hfind, Option.filter_some_pos]
    exact decide_eq_true hkept
  · show (db.scenes.filter _).filter _ = db.scenes.filter _
    rw [List.filter_filter]
    refine List.filter_congr fun s _ => ?_
    by_cases hs : s.documentId = d.documentId
    · rw [decide_eq_true hs, Bool.true_and, decide_eq_true (hs ▸ hkept)]
    · rw [decide_eq_false hs, Bool.false_and]
  · show (db.actions.filter _).filter _ = db.actions.filter _
    rw [List.filter_filter]
    refine List.filter_congr fun a _ => ?_
    by_cases ha : a.sceneId ∈ (scenesOf db d.documentId).map (·.sceneId)
    · rw [decide_eq_true ha, Bool.true_and, decide_eq_true_eq]
      -- A scene that goes has another name than those that stay.
      intro hgone
      obtain ⟨s, hs, hid⟩ := List.mem_map.mp ha
      obtain ⟨t, ht, hid'⟩ := List.mem_map.mp hgone
      obtain ⟨hs, hdoc⟩ := List.mem_filter.mp hs
      obtain ⟨ht, hin⟩ := List.mem_filter.mp ht
      have hst : s = t := hdb.scene_eq hs ht (hid.trans hid'.symm)
      rw [decide_eq_true_eq] at hdoc hin
      rw [← hst, hdoc] at hin
      exact hkept hin
    · rw [decide_eq_false ha, Bool.false_and]

theorem Housed.drop {db : MemoirDb} (h : Housed db) (ids : List String) :
    Housed (dropDocuments db ids) := by
  refine ⟨fun s hs => ?_, fun a ha => ?_, h.scenesApart.sublist List.filter_sublist,
    h.actionsApart.sublist List.filter_sublist⟩
  · obtain ⟨hs, hkept⟩ := List.mem_filter.mp hs
    obtain ⟨d, hd, hid⟩ := h.scenes s hs
    exact ⟨d, List.mem_filter.mpr ⟨hd, by rw [hid]; exact hkept⟩, hid⟩
  · obtain ⟨ha, hkept⟩ := List.mem_filter.mp ha
    obtain ⟨s, hs, hid⟩ := h.actions a ha
    refine ⟨s, List.mem_filter.mpr ⟨hs, decide_eq_true fun hin => ?_⟩, hid⟩
    refine of_decide_eq_true hkept ?_
    rw [← hid]
    exact List.mem_map_of_mem (List.mem_filter.mpr ⟨hs, decide_eq_true hin⟩)

/-! ### Deleting a source -/

namespace MemoryDeletionCompensationService

theorem invalidateMatch_rows (db : MemoirDb) (now : Time) (found : String × Nat) :
    (invalidateMatch db now found).1.scenes = db.scenes ∧
      (invalidateMatch db now found).1.actions = db.actions := by
  unfold invalidateMatch
  split
  · exact ⟨rfl, rfl⟩
  · split
    · exact ⟨rfl, rfl⟩
    · split
      · next archive _ _ _ _ baseline current _ _ =>
        dsimp only
        obtain ⟨_, hcancel⟩ := cancelPrior_eq
          { withdrawRevision { db with archives := db.archives.put archive.invalidate } now
              baseline current with
            snapshots := (withdrawRevision
              { db with archives := db.archives.put archive.invalidate } now baseline
              current).snapshots.filter (fun s => decide (s.archiveId ≠ found.1)) } archive
        rw [hcancel]
        unfold withdrawRevision
        dsimp only
        split
        · exact ⟨rfl, rfl⟩
        · exact ⟨rfl, rfl⟩
      · exact ⟨rfl, rfl⟩

theorem invalidateMatches_rows (now : Time) :
    ∀ (matched : List (String × Nat)) (db : MemoirDb),
      (invalidateMatches now db matched).1.scenes = db.scenes ∧
        (invalidateMatches now db matched).1.actions = db.actions
  | [], _ => ⟨rfl, rfl⟩
  | found :: matched, db => by
    obtain ⟨hscenes, hactions⟩ := invalidateMatches_rows now matched (invalidateMatch db now found).1
    obtain ⟨hscenes', hactions'⟩ := invalidateMatch_rows db now found
    exact ⟨hscenes.trans hscenes', hactions.trans hactions'⟩

/-- The pointer of an archive. -/
abbrev pointer? (db : MemoirDb) (archiveId : String) : Option Nat :=
  (db.archives.find? archiveId).map (·.publishedRevision)

/-- The matches put the pointer of an archive back, or leave its documents as
they are. -/
theorem invalidateMatches_documents {now : Time} (archiveId : String) :
    ∀ (matched : List (String × Nat)) {db : MemoirDb}, Catalogue db → (∀ m ∈ matched, 0 < m.2) →
      (pointer? (invalidateMatches now db matched).1 archiveId = pointer? db archiveId ∧
        ∀ revision, (invalidateMatches now db matched).1.documents.find? (archiveId, revision)
          = db.documents.find? (archiveId, revision)) ∨
      (pointer? (invalidateMatches now db matched).1 archiveId = some 0 ∧
        ∃ r, 0 < r ∧ pointer? db archiveId = some r)
  | [], _, _, _ => .inl ⟨rfl, fun _ => rfl⟩
  | m :: matched, db, hcat, hm => by
    have hpos := hm m List.mem_cons_self
    have hrest {db : MemoirDb} (hcat : Catalogue db) := @invalidateMatches_documents now
      archiveId matched db hcat fun m' hm' => hm m' (List.mem_cons_of_mem _ hm')
    unfold invalidateMatches
    dsimp only
    rcases invalidateMatch_cases hcat.toShelf now hpos with
      ⟨⟨archive, baseline, current, hfound, w⟩, _⟩ | ⟨_, hsame⟩
    · obtain ⟨hname, hbase, hcur⟩ := hfound.keys
      have hfind := (liveArchive_ok hfound.live).1
      have hnext := hrest (w.catalogue hcat hfound hpos)
      by_cases hid : archiveId = m.1
      · -- The archive of the match: its pointer stays at 0.
        right
        have hzero : pointer? (invalidateMatch db now m).1 archiveId = some 0 := by
          show ((invalidateMatch db now m).1.archives.find? archiveId).map _ = _
          rw [w.archives, Table.find?_put,
            if_pos (show archiveId = archive.invalidate.archiveId from hid.trans hname.symm), hid,
            hfind]
          rfl
        refine ⟨?_, m.2, hpos, ?_⟩
        · rcases hnext with ⟨hpointer, _⟩ | ⟨hpointer, _⟩
          · exact hpointer.trans hzero
          · exact hpointer
        · show (db.archives.find? archiveId).map _ = _
          rw [hid, hfind]
          exact congrArg some hfound.pointer
      · have hpointer : pointer? (invalidateMatch db now m).1 archiveId = pointer? db archiveId := by
          show ((invalidateMatch db now m).1.archives.find? archiveId).map _ = _
          rw [w.archives, Table.find?_put,
            if_neg (show archiveId ≠ archive.invalidate.archiveId from
              fun he => hid (he.trans hname))]
        have hdocuments (revision : Nat) :
            (invalidateMatch db now m).1.documents.find? (archiveId, revision)
              = db.documents.find? (archiveId, revision) := by
          rw [w.documents, Table.find?_put_ne, Table.find?_put_ne]
          · exact fun hk => hid (congrArg Prod.fst (hk.trans hbase))
          · exact fun hk => hid (congrArg Prod.fst (hk.trans hcur))
        rw [hpointer] at hnext
        refine hnext.imp_left (And.imp_right fun hdocs revision => ?_)
        exact (hdocs revision).trans (hdocuments revision)
    · rw [hsame]
      exact hrest hcat

end MemoryDeletionCompensationService

/-! ## A step -/

/-- The deletions of a run find the baselines they go back to not due. -/
def KeepsBaselines (s : Backend) (e : Time × BackendOp) : Prop :=
  ∀ source ∈ e.2.deletes, BaselinesKept s.db (s.now + e.1) source

instance (s : Backend) (e : Time × BackendOp) : Decidable (KeepsBaselines s e) := by
  unfold KeepsBaselines; infer_instance

/-- What the player needs of the database. -/
structure Playable (db : MemoirDb) : Prop where
  catalogue : Catalogue db
  housed : Housed db

theorem createArchive_documents {db db' : MemoirDb} {frozen : FrozenMemoryInput} {digest : String}
    {owner partner : Int} {ids : ArchiveIds}
    (h : MemoryArchiveService.createArchive db frozen digest owner partner ids = .ok db') :
    ∃ d : MemoryPlaybackDocument, d.documentId = ids.documentId ∧
      (∀ other ∈ db.documents.rows, other.documentId ≠ ids.documentId) ∧
      db.documents.insert? d = some db'.documents := by
  obtain ⟨_, _, h⟩ := bind_ok.mp h
  obtain ⟨_, _, h⟩ := bind_ok.mp h
  split at h
  · cases h
  · obtain ⟨db₁, hdocument, h⟩ := bind_ok.mp h
    obtain ⟨db₂, hcover, h⟩ := bind_ok.mp h
    obtain ⟨db₃, hstats, h⟩ := bind_ok.mp h
    obtain ⟨db₄, hone, htwo⟩ := bind_ok.mp h
    obtain ⟨hfresh, documents, hinsert, rfl⟩ := insertDocument_ok hdocument
    refine ⟨⟨ids.documentId, ids.archiveId, 0, true, none⟩, rfl, hfresh, ?_⟩
    rw [insertAction_ok htwo, insertAction_ok hone, insertScene_ok hstats, insertScene_ok hcover]
    exact hinsert

theorem Playable.createArchive {db db' : MemoirDb} (h : Playable db) {frozen : FrozenMemoryInput}
    {digest : String} {owner partner : Int} {ids : ArchiveIds}
    (hdone : MemoryArchiveService.createArchive db frozen digest owner partner ids = .ok db') :
    Playable db' ∧ ∀ d ∈ db.documents.rows, Leaves db db' d := by
  have hadds := MemoryArchiveService.createArchive_adds h.housed hdone
  obtain ⟨new, hid, hfresh, hinsert⟩ := createArchive_documents hdone
  obtain ⟨hnone, hrows⟩ := Table.insert?_eq_some.mp hinsert
  refine ⟨⟨MemoryArchiveService.createArchive_catalogue h.catalogue hdone,
    hadds.housed h.housed (fun d hd => ⟨d, ?_, rfl⟩) ⟨new, ?_, hid⟩⟩, fun d hd => ?_⟩
  · rw [hrows]
    exact List.mem_append_left _ hd
  · rw [hrows]
    exact List.mem_append_right _ (List.mem_singleton.mpr rfl)
  · refine hadds.leaves ?_ (hfresh d hd)
    rw [Table.find?_insert? hinsert, if_neg]
    intro hk
    have hfind := Table.find?_of_mem hd
    rw [hk, hnone] at hfind
    cases hfind

theorem Playable.publish {db db' : MemoirDb} (h : Playable db) {now : Time}
    {p : MemoryArchiveService.Publication} {documentId : String}
    (harchive : db.archives.find? p.archive.archiveId = some p.archive) (hchecked : p.body.Checked)
    (hdone : MemoryArchiveService.writePublication db now p documentId = .ok db') :
    Playable db' ∧ ∀ d ∈ db.documents.rows, d.archiveId ≠ p.archive.archiveId → Leaves db db' d := by
  have hadds := MemoryArchiveService.writePublication_adds h.housed hchecked hdone
  obtain ⟨previous, hprevious, _⟩ := h.catalogue.shown p.archive (Table.mem_of_find? harchive)
  have hkey : previous.key = (p.archive.archiveId, p.archive.publishedRevision) :=
    Table.key_of_find? hprevious
  obtain ⟨hfresh, hinsert, _⟩ := MemoryArchiveService.writePublication_ok hprevious hdone
  obtain ⟨_, hrows⟩ := Table.insert?_eq_some.mp hinsert
  have hself : db.documents.find? previous.key = some previous := by rw [hkey, hprevious]
  have hplaces : SamePlaces db.documents (db.documents.put (previous.supersede now)) :=
    .put hself rfl rfl
  refine ⟨⟨MemoryArchiveService.writePublication_catalogue h.catalogue harchive hdone,
    hadds.housed h.housed (fun d hd => ?_) ⟨p.document documentId, ?_, rfl⟩⟩, fun d hd hne => ?_⟩
  · obtain ⟨x, hx, _, hid⟩ := hplaces.forth d hd
    rw [hrows]
    exact ⟨x, List.mem_append_left _ hx, hid⟩
  · rw [hrows]
    exact List.mem_append_right _ (List.mem_singleton.mpr rfl)
  · refine hadds.leaves ?_ ?_
    · rw [Table.find?_insert? hinsert, if_neg, Table.find?_put_ne]
      · exact fun hk => hne (congrArg Prod.fst (hk.trans hkey))
      · exact fun hk => hne (congrArg Prod.fst hk)
    · obtain ⟨x, hx, _, hid⟩ := hplaces.forth d hd
      rw [← hid]
      exact hfresh x hx

/-- What is shown stays as it is while it is shown. -/
structure Displays (db : MemoirDb) (archiveId : String) (d : MemoryPlaybackDocument) : Prop where
  pointer : ∃ a, db.liveArchive? archiveId = some a ∧ d.key = (archiveId, a.publishedRevision)
  stored : db.documents.find? d.key = some d
  isPublished : d.isPublished = true

/-- The archive is there, and its pointer is at the revision. -/
def PointsAt (db : MemoirDb) (archiveId : String) (revision : Nat) : Prop :=
  ∃ a ∈ db.liveArchive? archiveId, a.publishedRevision = revision

instance (db : MemoirDb) (archiveId : String) (revision : Nat) :
    Decidable (PointsAt db archiveId revision) := by
  unfold PointsAt; infer_instance

theorem getPublishedDocument_iff {db : MemoirDb} {archiveId : String} {d : MemoryPlaybackDocument} :
    MemoryPlayerService.getPublishedDocument db archiveId = .ok d ↔ Displays db archiveId d := by
  unfold MemoryPlayerService.getPublishedDocument
  cases hlive : db.liveArchive? archiveId with
  | none =>
    refine ⟨fun h => (nomatch h), fun h => ?_⟩
    obtain ⟨a, ha, _⟩ := h.pointer
    rw [hlive] at ha
    cases ha
  | some a =>
    dsimp only
    constructor
    · intro h
      split at h
      · cases h
      · next document hfound =>
        cases h
        obtain ⟨hfind, hpub⟩ := Option.filter_eq_some_iff.mp hfound
        have hkey : d.key = (archiveId, a.publishedRevision) := Table.key_of_find? hfind
        exact ⟨⟨a, hlive, hkey⟩, by rw [hkey, hfind], hpub⟩
    · intro h
      obtain ⟨b, hb, hkey⟩ := h.pointer
      rw [hlive] at hb
      cases hb
      rw [← hkey, h.stored, Option.filter_some_pos h.isPublished]
      rfl

theorem getPublishedPlayback_of_shows {db : MemoirDb} {archiveId : String}
    {d : MemoryPlaybackDocument} (h : Displays db archiveId d) :
    MemoryPlayerService.getPublishedPlayback db archiveId =
      .ok (.arrange d (scenesOf db d.documentId)
        (actionsOf db (scenesOf db d.documentId))) := by
  unfold MemoryPlayerService.getPublishedPlayback
  rw [getPublishedDocument_iff.mpr h]
  rfl

theorem Displays.not_expired {db : MemoirDb} {archiveId : String} {d : MemoryPlaybackDocument}
    (h : Displays db archiveId d) (hshelf : Shelf db) (now : Time) :
    d.documentId ∉ expiredDocuments db now := by
  intro hin
  have hpub := (hshelf.expired_of_mem (Table.mem_of_find? h.stored) hin).1
  rw [h.isPublished] at hpub
  cases hpub

/-- The pointer still leads to what the operation has left. -/
theorem Displays.of_leaves {db db' : MemoirDb} {archiveId : String} {d : MemoryPlaybackDocument}
    (h : Displays db archiveId d) (hleaves : Leaves db db' d)
    (hpoints : PointsAt db' archiveId d.revision) : Displays db' archiveId d := by
  obtain ⟨a, _, hkey⟩ := h.pointer
  obtain ⟨a', ha', hrevision⟩ := hpoints
  refine ⟨⟨a', ha', ?_⟩, hleaves.document.trans h.stored, h.isPublished⟩
  rw [hrevision]
  exact Prod.ext (show d.archiveId = archiveId from congrArg Prod.fst hkey) rfl

theorem requestArchivePrivacyPurge_rows {db db' : MemoirDb} {now : Time} {archiveId : String}
    (h : MemoryDeletionCompensationService.requestArchivePrivacyPurge db now archiveId = .ok db') :
    db'.scenes = db.scenes ∧ db'.actions = db.actions := by
  unfold MemoryDeletionCompensationService.requestArchivePrivacyPurge at h
  cases hfind : db.archives.find? archiveId with
  | none => rw [hfind] at h; cases h
  | some archive =>
    rw [hfind] at h
    dsimp only at h
    split at h
    · cases h
      exact ⟨rfl, rfl⟩
    · cases h
      have hmoves := @requestPurges_moves now archiveId
        (db.runRefs.rows.filter fun r => decide (r.archiveId = archiveId))
        { db with archives := db.archives.put (archive.delete now) }
        (fun ref href => Table.find?_of_mem (List.mem_filter.mp href).1)
        ((db.runRefs.nodup).sublist (List.filter_sublist.map _))
      exact ⟨hmoves.scenes, hmoves.actions⟩

/-- The withdrawal of the revisions that refer to a source, and the
collection. -/
theorem invalidateDeletedSource_playable {db db' : MemoirDb} {now : Time} {source : Source}
    (h : Playable db)
    (hdone : MemoryDeletionCompensationService.invalidateDeletedSource db now source = .ok db') :
    Housed db' ∧ ∀ archiveId d, Displays db archiveId d → PointsAt db' archiveId d.revision →
      Leaves db db' d := by
  obtain ⟨matched, hfound, hdone⟩ := bind_ok.mp hdone
  have hpos : ∀ m ∈ matched, 0 < m.2 := by
    intro m hm
    obtain ⟨r, hr, _, rfl, _⟩ := (findPublished_ok hfound m).mp hm
    exact (h.catalogue.cited r hr).1
  obtain ⟨hcat, hplaces, _⟩ := MemoryDeletionCompensationService.invalidateMatches_catalogue
    (P := fun _ => True) matched h.catalogue fun m hm => ⟨hpos m hm, trivial⟩
  obtain ⟨hscenes, hactions⟩ :=
    MemoryDeletionCompensationService.invalidateMatches_rows now matched db
  have hhoused : Housed (MemoryDeletionCompensationService.invalidateMatches now db matched).1 := by
    refine h.housed.congr (fun d hd => ?_) hscenes hactions
    obtain ⟨x, hx, _, hid⟩ := hplaces.forth d hd
    exact ⟨x, hx, hid⟩
  have hleaves (archiveId : String) (d : MemoryPlaybackDocument) (hshows : Displays db archiveId d)
      (hpoints : PointsAt (MemoryDeletionCompensationService.invalidateMatches now db matched).1
        archiveId d.revision) :
      Leaves db (MemoryDeletionCompensationService.invalidateMatches now db matched).1 d := by
    refine .congr ?_ hscenes hactions
    obtain ⟨a, ha, hkey⟩ := hshows.pointer
    obtain ⟨a', ha', hrevision⟩ := hpoints
    have hbefore := (liveArchive_ok ha).1
    have hafter := (liveArchive_ok ha').1
    rcases @MemoryDeletionCompensationService.invalidateMatches_documents now archiveId matched db
      h.catalogue hpos with ⟨_, hdocuments⟩ | ⟨hzero, r, hr, hpointer⟩
    · rw [hkey]
      exact hdocuments a.publishedRevision
    · -- The pointer went back to 0, and it was above it.
      rw [MemoryDeletionCompensationService.pointer?, hafter] at hzero
      rw [MemoryDeletionCompensationService.pointer?, hbefore] at hpointer
      have hshown : d.revision = a.publishedRevision := congrArg Prod.snd hkey
      have hnow : a'.publishedRevision = 0 := Option.some.inj hzero
      have hthen : a.publishedRevision = r := Option.some.inj hpointer
      omega
  cases hdone
  split
  · refine ⟨hhoused.drop _, fun archiveId d hshows hpoints => ?_⟩
    have hone := hleaves archiveId d hshows hpoints
    exact hone.trans (dropDocuments_leaves hhoused (hone.document.trans hshows.stored)
      (hshows.not_expired h.catalogue.toShelf now))
  · exact ⟨hhoused, hleaves⟩

/-- A step keeps what the player needs, and leaves what an archive shows as it
is while it is shown. -/
theorem Backend.step_playable (text : PyText) {s : Backend} {e : Time × BackendOp}
    (h : Playable s.db) (hkept : KeepsBaselines s e) :
    Playable (s.step text e).db ∧ ∀ archiveId d, Displays s.db archiveId d →
      PointsAt (s.step text e).db archiveId d.revision → Leaves s.db (s.step text e).db d := by
  have hbase : ∀ source, e.2 = .invalidateDeletedSource source →
      BaselinesKept s.db (s.now + e.1) source := by
    intro source he
    refine hkept source ?_
    rw [he]
    exact List.mem_singleton.mpr rfl
  have hcat : Catalogue (s.step text e).db := Backend.step_catalogue h.catalogue hbase
  rcases s.step_cases text e with ⟨db', hdone, hdb, _⟩ | ⟨_, _, hdb, _⟩
  · rw [hdb] at hcat ⊢
    suffices hrows : Housed db' ∧ ∀ archiveId d, Displays s.db archiveId d →
        PointsAt db' archiveId d.revision → Leaves s.db db' d from ⟨⟨hcat, hrows.1⟩, hrows.2⟩
    obtain ⟨elapsed, op⟩ := e
    have hsame (hdocuments : db'.documents = s.db.documents) (hscenes : db'.scenes = s.db.scenes)
        (hactions : db'.actions = s.db.actions) : Housed db' ∧ ∀ archiveId d,
        Displays s.db archiveId d → PointsAt db' archiveId d.revision → Leaves s.db db' d :=
      ⟨h.housed.congr (fun d hd => ⟨d, hdocuments ▸ hd, rfl⟩) hscenes hactions,
        fun _ _ _ _ => .congr (by rw [hdocuments]) hscenes hactions⟩
    have hlaunch (hop : op.Launching) : Housed db' ∧ ∀ archiveId d, Displays s.db archiveId d →
        PointsAt db' archiveId d.revision → Leaves s.db db' d := by
      have hmoves := (hop.launches text s.db _).done db' hdone
      exact hsame hmoves.documents hmoves.scenes hmoves.actions
    cases op with
    | createArchives frozen ids =>
      rcases MemoryArchiveService.createArchivesForRelationship_ok hdone with
        rfl | ⟨digest, db₁, hone, htwo⟩
      · exact hsame rfl rfl rfl
      · obtain ⟨hfirst, hleaves⟩ := h.createArchive hone
        obtain ⟨hsecond, hleaves'⟩ := hfirst.createArchive htwo
        refine ⟨hsecond.housed, fun archiveId d hshows _ => ?_⟩
        have hleft := hleaves d (Table.mem_of_find? hshows.stored)
        exact hleft.trans (hleaves' d (Table.mem_of_find? (hleft.document.trans hshows.stored)))
    | publish archiveId epoch runId snapshotId document documentId =>
      obtain ⟨p, hcheck, hwrite⟩ := bind_ok.mp hdone
      obtain ⟨hfind, hchecked⟩ := PublicationCall.check_ok
        (c := ⟨s.now + elapsed, archiveId, epoch, runId, s.db.snapshot? snapshotId, document,
          documentId⟩) hcheck
      obtain ⟨hplayable, hleaves⟩ := h.publish hfind hchecked hwrite
      refine ⟨hplayable.housed, fun other d hshows hpoints => ?_⟩
      refine hleaves d (Table.mem_of_find? hshows.stored) fun heq => ?_
      -- The pointer of the archive has gone on.
      obtain ⟨previous, hprevious, _⟩ := h.catalogue.shown p.archive (Table.mem_of_find? hfind)
      obtain ⟨_, _, _, harchives, _⟩ := MemoryArchiveService.writePublication_ok hprevious hwrite
      obtain ⟨a, ha, hkey⟩ := hshows.pointer
      obtain ⟨a', ha', hrevision⟩ := hpoints
      have hother : p.archive.archiveId = other := heq.symm.trans (congrArg Prod.fst hkey)
      have hbefore := (liveArchive_ok ha).1
      have hafter := (liveArchive_ok ha').1
      rw [← hother, hfind] at hbefore
      rw [harchives, Table.find?_put, if_pos (show other = p.advanced.archiveId from hother.symm),
        ← hother, hfind] at hafter
      cases hbefore
      have hshown : d.revision = p.archive.publishedRevision := congrArg Prod.snd hkey
      have hnow : a' = p.advanced := (Option.some.inj hafter).symm
      rw [hnow] at hrevision
      have hnext : p.archive.publishedRevision + 1 = d.revision := hrevision
      omega
    | purgeExpired =>
      cases hdone
      exact ⟨h.housed.drop _, fun _ d hshows _ => dropDocuments_leaves h.housed hshows.stored
        (hshows.not_expired h.catalogue.toShelf _)⟩
    | invalidateDeletedSource source => exact invalidateDeletedSource_playable h hdone
    | requestArchivePrivacyPurge archiveId =>
      obtain ⟨hscenes, hactions⟩ := requestArchivePrivacyPurge_rows hdone
      exact hsame (requestArchivePrivacyPurge_sameShelf hdone).documents hscenes hactions
    | _ => exact hlaunch trivial
  · rw [hdb]
    exact ⟨h, fun _ d _ _ => .refl s.db d⟩

/-! ## Runs -/

theorem Backend.run_playable {text : PyText} {es : List (Time × BackendOp)}
    (hkept : Along (Backend.step text) KeepsBaselines {} es) :
    Playable (run (Backend.step text) {} es).db :=
  along_inv (I := fun s : Backend => Playable s.db)
    (fun _ _ h hkept => (Backend.step_playable text h hkept).1) es {} ⟨.empty, .empty⟩ hkept

/-- What is played belongs together and is all there is, and its order leaves
no choice. -/
structure PublishedMemoryPlayback.Whole (playback : PublishedMemoryPlayback) (db : MemoirDb)
    (archive : MemoryArchive) : Prop where
  document : db.documents.find? (archive.archiveId, archive.publishedRevision)
    = some playback.document
  isPublished : playback.document.isPublished = true
  scenes : ∀ s, s ∈ playback.scenes ↔
    s ∈ db.scenes ∧ s.documentId = playback.document.documentId
  scenesInOrder : playback.scenes.Pairwise (fun s t => s.sceneOrder < t.sceneOrder)
  actions : ∀ a, a ∈ playback.actions ↔
    a ∈ db.actions ∧ ∃ s ∈ playback.scenes, s.sceneId = a.sceneId
  actionsInOrder : playback.actions.Pairwise (fun a b =>
    a.sceneId < b.sceneId ∨ (a.sceneId = b.sceneId ∧ a.actionOrder < b.actionOrder))

theorem MemoryAction.Apart.symm {a b : MemoryAction} (h : a.Apart b) : b.Apart a :=
  ⟨fun he => h.1 he.symm, fun ⟨hs, ho⟩ => h.2 ⟨hs.symm, ho.symm⟩⟩

theorem scenes_in_order {scenes : List MemoryScene} {documentId : String}
    (hapart : scenes.Pairwise MemoryScene.Apart) (hhere : ∀ s ∈ scenes, s.documentId = documentId) :
    (scenes.insertionSort MemoryScene.NotAfter).Pairwise (fun s t => s.sceneOrder < t.sceneOrder) := by
  have hsorted := List.pairwise_insertionSort MemoryScene.NotAfter scenes
  have hapart' := hapart.perm (List.perm_insertionSort MemoryScene.NotAfter scenes).symm
    fun h => h.symm
  refine (hsorted.and hapart').imp_of_mem fun {s t} hs ht h => ?_
  obtain ⟨hle, hne⟩ := h
  rw [List.mem_insertionSort] at hs ht
  refine lt_of_le_of_ne hle fun heq => hne.2 ⟨?_, heq⟩
  exact (hhere s hs).trans (hhere t ht).symm

theorem actions_in_order {actions : List MemoryAction}
    (hapart : actions.Pairwise MemoryAction.Apart) :
    (actions.insertionSort MemoryAction.NotAfter).Pairwise (fun a b =>
      a.sceneId < b.sceneId ∨ (a.sceneId = b.sceneId ∧ a.actionOrder < b.actionOrder)) := by
  have hsorted := List.pairwise_insertionSort MemoryAction.NotAfter actions
  have hapart' := hapart.perm (List.perm_insertionSort MemoryAction.NotAfter actions).symm
    fun h => h.symm
  refine (hsorted.and hapart').imp fun h => ?_
  obtain ⟨hle, hne⟩ := h
  exact hle.imp_right fun ⟨hscene, hle⟩ =>
    ⟨hscene, lt_of_le_of_ne hle fun heq => hne.2 ⟨hscene, heq⟩⟩

/-- Whatever is done, an archive that is there can be played, and what is
played is whole. -/
theorem playback_whole (text : PyText) (es : List (Time × BackendOp))
    (hkept : Along (Backend.step text) KeepsBaselines {} es) :
    ∀ a ∈ (run (Backend.step text) {} es).db.archives.rows, a.deletedAt = none →
      ∃ playback, MemoryPlayerService.getPublishedPlayback (run (Backend.step text) {} es).db
          a.archiveId = .ok playback ∧ playback.Whole (run (Backend.step text) {} es).db a := by
  intro a ha hlive
  have hplayable := Backend.run_playable hkept
  obtain ⟨d, hfind, hpub⟩ := hplayable.catalogue.shown a ha
  have hkey : d.key = (a.archiveId, a.publishedRevision) := Table.key_of_find? hfind
  have harchive : (run (Backend.step text) {} es).db.liveArchive? a.archiveId = some a := by
    unfold MemoirDb.liveArchive?
    rw [Table.find?_of_mem ha, Option.filter_some_pos]
    rw [hlive]
    rfl
  refine ⟨_, getPublishedPlayback_of_shows ⟨⟨a, harchive, hkey⟩, by rw [hkey, hfind], hpub⟩, ?_⟩
  refine ⟨hfind, hpub, fun s => ?_, ?_, fun x => ?_, ?_⟩
  · show s ∈ (scenesOf _ d.documentId).insertionSort _ ↔ _
    rw [List.mem_insertionSort, scenesOf, List.mem_filter, decide_eq_true_eq]
    rfl
  · have hhere : ∀ s ∈ scenesOf (run (Backend.step text) {} es).db d.documentId,
        s.documentId = d.documentId := fun _ hs => of_decide_eq_true (List.mem_filter.mp hs).2
    exact scenes_in_order (hplayable.housed.scenesApart.sublist List.filter_sublist) hhere
  · show x ∈ (actionsOf _ _).insertionSort _ ↔ _
    rw [List.mem_insertionSort, actionsOf, List.mem_filter, decide_eq_true_eq, List.mem_map]
    refine and_congr_right fun _ => exists_congr fun s => and_congr_left fun _ => ?_
    exact (List.mem_insertionSort _).symm
  · exact actions_in_order (hplayable.housed.actionsApart.sublist List.filter_sublist)

open RevisionExample in
theorem collected_playback_whole :
    ∃ a ∈ (run (Backend.step plainText) {} collected).db.archives.rows, a.deletedAt = none ∧
      ∃ playback, MemoryPlayerService.getPublishedPlayback
          (run (Backend.step plainText) {} collected).db a.archiveId = .ok playback ∧
        playback.Whole (run (Backend.step plainText) {} collected).db a := by
  have hthere : ∃ a ∈ (run (Backend.step plainText) {} collected).db.archives.rows,
      a.deletedAt = none := by decide +kernel
  obtain ⟨a, ha, hlive⟩ := hthere
  exact ⟨a, ha, hlive, playback_whole plainText collected (by decide +kernel) a ha hlive⟩

/-- While an archive shows a document, it plays the same. -/
theorem Backend.run_same_playback {text : PyText} {archiveId : String} {d : MemoryPlaybackDocument} :
    ∀ (es : List (Time × BackendOp)) (s : Backend), Playable s.db → Displays s.db archiveId d →
      Along (Backend.step text) KeepsBaselines s es →
      Along (Backend.step text) (fun s e => PointsAt (s.step text e).db archiveId d.revision) s es →
      MemoryPlayerService.getPublishedPlayback (run (Backend.step text) s es).db archiveId
        = MemoryPlayerService.getPublishedPlayback s.db archiveId
  | [], _, _, _, _, _ => rfl
  | e :: es, s, h, hshows, hkept, hpoints => by
    obtain ⟨hnext, hleaves⟩ := Backend.step_playable text h hkept.1
    have hleft := hleaves archiveId d hshows hpoints.1
    have hshows' := hshows.of_leaves hleft hpoints.1
    refine (Backend.run_same_playback es _ hnext hshows' hkept.2 hpoints.2).trans ?_
    rw [getPublishedPlayback_of_shows hshows, getPublishedPlayback_of_shows hshows', hleft.scenes,
      hleft.actions]

end AgentRuntime
