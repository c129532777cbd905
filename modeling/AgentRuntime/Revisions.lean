import AgentRuntime.MemoirBackend

/-!
# The revisions of an archive

Which revisions there are and which one is published. `Catalogue` is the
invariant: the published pointer of an archive leads to a document, that
document is published and no other of the archive is, and a source reference
belongs to a document that exists. Every operation keeps it, but for one that
may not: deleting a source puts the baseline back and then collects, and when
the days of grace of that baseline are over the collection takes it
(`Backend.step_catalogue`).

Numbers are another matter. The next number is one more than the published
one, deleting a source takes that back to 0, and the revisions above 0 are
still there until they are collected: the next publication asks for a number
that is taken (`republished_number_taken`). `revisions_distinct` is what holds.
-/

namespace AgentRuntime

open Keyed Runs

/-! ## What the operations write -/

/-- Only scenes and actions differ. -/
def SceneryOnly (db db' : MemoirDb) : Prop :=
  db' = { db with scenes := db'.scenes, actions := db'.actions }

theorem SceneryOnly.refl (db : MemoirDb) : SceneryOnly db db := rfl

theorem SceneryOnly.trans {a b c : MemoirDb} (h : SceneryOnly a b) (h' : SceneryOnly b c) :
    SceneryOnly a c := by
  unfold SceneryOnly at *
  rw [h'] at *
  rw [h]

theorem insertScene_scenery {db db' : MemoirDb} {s : MemoryScene} (h : insertScene db s = .ok db') :
    SceneryOnly db db' := by
  obtain ⟨_, _, h⟩ := bind_ok.mp h
  cases h
  rfl

theorem insertAction_scenery {db db' : MemoirDb} {a : MemoryAction}
    (h : insertAction db a = .ok db') : SceneryOnly db db' := by
  obtain ⟨_, _, h⟩ := bind_ok.mp h
  cases h
  rfl

theorem insertScenes_scenery {documentId : String} :
    ∀ {scenes : List Json} {index : Nat} {db db' : MemoirDb},
      insertScenes documentId index db scenes = .ok db' → SceneryOnly db db'
  | [], _, db, _, h => by
    cases h
    exact .refl db
  | scene :: scenes, index, db, db', h => by
    cases scene with
    | obj fields =>
      simp only [insertScenes] at h
      split at h
      · cases h
      · obtain ⟨db₁, hone, hrest⟩ := bind_ok.mp h
        exact (insertScene_scenery hone).trans (insertScenes_scenery hrest)
    | _ => cases h

theorem insertActions_scenery :
    ∀ {actions : List Json} {last : List (String × Int)} {db db' : MemoirDb},
      insertActions last db actions = .ok db' → SceneryOnly db db'
  | [], _, db, _, h => by
    cases h
    exact .refl db
  | action :: actions, last, db, db', h => by
    cases action with
    | obj fields =>
      simp only [insertActions] at h
      obtain ⟨db₁, hone, hrest⟩ := bind_ok.mp h
      exact (insertAction_scenery hone).trans (insertActions_scenery hrest)
    | _ => cases h

theorem insertDocument_ok {db db' : MemoirDb} {d : MemoryPlaybackDocument}
    (h : insertDocument db d = .ok db') :
    (∀ other ∈ db.documents.rows, other.documentId ≠ d.documentId) ∧
      ∃ documents, db.documents.insert? d = some documents ∧
        db' = { db with documents := documents } := by
  obtain ⟨_, hfree, h⟩ := bind_ok.mp h
  refine ⟨by simpa using hfree, ?_⟩
  cases hinsert : db.documents.insert? d with
  | none => rw [hinsert] at h; cases h
  | some documents =>
    rw [hinsert] at h
    cases h
    exact ⟨documents, rfl, rfl⟩

/-! ## The invariant -/

/-- The documents have names of their own and archives, and the references
have documents. -/
structure Shelf (db : MemoirDb) : Prop where
  ids : ∀ d ∈ db.documents.rows, ∀ d' ∈ db.documents.rows, d.documentId = d'.documentId → d = d'
  owned : ∀ d ∈ db.documents.rows, (db.archives.find? d.archiveId).isSome
  cited : ∀ r ∈ db.references, 0 < r.revision ∧
    ∃ d, db.documents.find? (r.archiveId, r.revision) = some d ∧ d.documentId = r.documentId

/-- And one document of each archive is published, the one the pointer leads
to. -/
structure Catalogue (db : MemoirDb) : Prop extends Shelf db where
  shown : ∀ a ∈ db.archives.rows, ∃ d,
    db.documents.find? (a.archiveId, a.publishedRevision) = some d ∧ d.isPublished = true
  only : ∀ d ∈ db.documents.rows, d.isPublished = true →
    ∀ a ∈ db.archives.rows, a.archiveId = d.archiveId → d.revision = a.publishedRevision

theorem Catalogue.empty : Catalogue {} where
  ids _ h := (nomatch h)
  owned _ h := (nomatch h)
  shown _ h := (nomatch h)
  only _ h := (nomatch h)
  cited _ h := (nomatch h)

/-! ### Documents in their places -/

/-- The same documents in the same places; whether they are published, and
how long they stay, may differ. -/
structure SamePlaces (t t' : Table MemoryPlaybackDocument.key) : Prop where
  back : ∀ x ∈ t'.rows, ∃ y ∈ t.rows, y.key = x.key ∧ y.documentId = x.documentId
  forth : ∀ y ∈ t.rows, ∃ x ∈ t'.rows, x.key = y.key ∧ x.documentId = y.documentId

theorem SamePlaces.refl (t : Table MemoryPlaybackDocument.key) : SamePlaces t t :=
  ⟨fun x hx => ⟨x, hx, rfl, rfl⟩, fun y hy => ⟨y, hy, rfl, rfl⟩⟩

theorem SamePlaces.trans {t₁ t₂ t₃ : Table MemoryPlaybackDocument.key} (h : SamePlaces t₁ t₂)
    (h' : SamePlaces t₂ t₃) : SamePlaces t₁ t₃ := by
  constructor
  · intro x hx
    obtain ⟨y, hy, hk, hid⟩ := h'.back x hx
    obtain ⟨z, hz, hk', hid'⟩ := h.back y hy
    exact ⟨z, hz, hk'.trans hk, hid'.trans hid⟩
  · intro z hz
    obtain ⟨y, hy, hk, hid⟩ := h.forth z hz
    obtain ⟨x, hx, hk', hid'⟩ := h'.forth y hy
    exact ⟨x, hx, hk'.trans hk, hid'.trans hid⟩

/-- A document is overwritten by itself with other dates. -/
theorem SamePlaces.put {t : Table MemoryPlaybackDocument.key} {d d' : MemoryPlaybackDocument}
    (hfind : t.find? d.key = some d) (hkey : d'.key = d.key)
    (hid : d'.documentId = d.documentId) : SamePlaces t (t.put d') := by
  have hput : ∃ b, t.find? d'.key = some b := ⟨d, by rw [hkey, hfind]⟩
  constructor
  · intro x hx
    rcases Table.mem_put.mp hx with ⟨rfl, _⟩ | ⟨hx, _⟩
    · exact ⟨d, Table.mem_of_find? hfind, hkey.symm, hid.symm⟩
    · exact ⟨x, hx, rfl, rfl⟩
  · intro y hy
    by_cases hk : y.key = d'.key
    · have hyd : y = d := by
        have hfind' := Table.find?_of_mem hy
        rw [hk, hkey, hfind] at hfind'
        exact (Option.some.inj hfind').symm
      exact ⟨d', Table.mem_put.mpr (Or.inl ⟨rfl, hput⟩), by rw [hyd, hkey], by rw [hyd, hid]⟩
    · exact ⟨y, Table.mem_put.mpr (Or.inr ⟨hy, hk⟩), rfl, rfl⟩

theorem SamePlaces.find? {t t' : Table MemoryPlaybackDocument.key} (h : SamePlaces t t')
    {k : String × Nat} {d : MemoryPlaybackDocument} (hd : t.find? k = some d) :
    ∃ d', t'.find? k = some d' ∧ d'.documentId = d.documentId := by
  obtain ⟨d', hd', hk, hid⟩ := h.forth d (Table.mem_of_find? hd)
  refine ⟨d', ?_, hid⟩
  rw [← Table.key_of_find? hd, ← hk]
  exact Table.find?_of_mem hd'

theorem Shelf.replace {db db' : MemoirDb} (h : Shelf db)
    (hdocuments : SamePlaces db.documents db'.documents)
    (hrefs : ∀ r ∈ db'.references, r ∈ db.references)
    (harchives : ∀ id, (db.archives.find? id).isSome → (db'.archives.find? id).isSome) :
    Shelf db' where
  ids x hx y hy hxy := by
    obtain ⟨x₀, hx₀, hkx, hix⟩ := hdocuments.back x hx
    obtain ⟨y₀, hy₀, hky, hiy⟩ := hdocuments.back y hy
    have := h.ids x₀ hx₀ y₀ hy₀ (hix.trans (hxy.trans hiy.symm))
    refine List.inj_on_of_nodup_map (Table.nodup _) hx hy ?_
    rw [← hkx, ← hky, this]
  owned x hx := by
    obtain ⟨y, hy, hk, _⟩ := hdocuments.back x hx
    have hid : y.archiveId = x.archiveId := congrArg Prod.fst hk
    rw [← hid]
    exact harchives _ (h.owned y hy)
  cited r hr := by
    obtain ⟨hpos, d, hd, hid⟩ := h.cited r (hrefs r hr)
    obtain ⟨d', hd', hid'⟩ := hdocuments.find? hd
    exact ⟨hpos, d', hd', hid'.trans hid⟩

/-- One more document, with references of its own. -/
theorem Shelf.insert {db db' : MemoirDb} (h : Shelf db) {d : MemoryPlaybackDocument}
    (hfresh : ∀ other ∈ db.documents.rows, other.documentId ≠ d.documentId)
    (hdocuments : db.documents.insert? d = some db'.documents)
    (hrefs : ∀ r ∈ db'.references, r ∈ db.references ∨
      (0 < r.revision ∧ (r.archiveId, r.revision) = d.key ∧ d.documentId = r.documentId))
    (harchives : ∀ id, (db.archives.find? id).isSome → (db'.archives.find? id).isSome)
    (howner : (db'.archives.find? d.archiveId).isSome) : Shelf db' := by
  obtain ⟨hnone, hrows⟩ := Table.insert?_eq_some.mp hdocuments
  have hmem : ∀ x ∈ db'.documents.rows, x ∈ db.documents.rows ∨ x = d := fun x hx => by
    rw [hrows, List.mem_append, List.mem_singleton] at hx
    exact hx
  constructor
  · intro x hx y hy hxy
    rcases hmem x hx with hx | rfl
    · rcases hmem y hy with hy | rfl
      · exact h.ids x hx y hy hxy
      · exact absurd hxy (hfresh x hx)
    · rcases hmem y hy with hy | rfl
      · exact absurd hxy.symm (hfresh y hy)
      · rfl
  · intro x hx
    rcases hmem x hx with hx | rfl
    · exact harchives _ (h.owned x hx)
    · exact howner
  · intro r hr
    rcases hrefs r hr with hr | ⟨hpos, hkey, hid⟩
    · obtain ⟨hpos, x, hx, hid⟩ := h.cited r hr
      refine ⟨hpos, x, ?_, hid⟩
      rw [Table.find?_insert? hdocuments, if_neg]
      · exact hx
      · intro hk
        rw [hk, hnone] at hx
        cases hx
    · refine ⟨hpos, d, ?_, hid⟩
      rw [Table.find?_insert? hdocuments, if_pos hkey]

/-! ### What keeps it -/

/-- Documents and references are the same, and so are the pointers. -/
structure SameShelf (db db' : MemoirDb) : Prop where
  documents : db'.documents = db.documents
  references : db'.references = db.references
  pointers : ∀ id, (db'.archives.find? id).map (·.publishedRevision)
    = (db.archives.find? id).map (·.publishedRevision)

theorem SameShelf.refl (db : MemoirDb) : SameShelf db db := ⟨rfl, rfl, fun _ => rfl⟩

theorem SameShelf.trans {a b c : MemoirDb} (h : SameShelf a b) (h' : SameShelf b c) :
    SameShelf a c :=
  ⟨h'.documents.trans h.documents, h'.references.trans h.references,
    fun id => (h'.pointers id).trans (h.pointers id)⟩

theorem SceneryOnly.sameShelf {db db' : MemoirDb} (h : SceneryOnly db db') : SameShelf db db' := by
  unfold SceneryOnly at h
  rw [h]
  exact ⟨rfl, rfl, fun _ => rfl⟩

/-- An archive is overwritten by one with the same pointer. -/
theorem SameShelf.putArchive {db : MemoirDb} {a a' : MemoryArchive}
    (hfind : db.archives.find? a.archiveId = some a) (hid : a'.archiveId = a.archiveId)
    (hpointer : a'.publishedRevision = a.publishedRevision) :
    SameShelf db { db with archives := db.archives.put a' } := by
  refine ⟨rfl, rfl, fun id => ?_⟩
  show ((db.archives.put a').find? id).map _ = _
  rw [Table.find?_put]
  by_cases hk : id = a'.archiveId
  · rw [if_pos hk, hk, hid, hfind]
    exact congrArg some hpointer
  · rw [if_neg hk]

theorem SameShelf.archive {db db' : MemoirDb} (h : SameShelf db db') {a' : MemoryArchive}
    (ha : a' ∈ db'.archives.rows) :
    ∃ a ∈ db.archives.rows, a.archiveId = a'.archiveId ∧
      a'.publishedRevision = a.publishedRevision := by
  have hp := h.pointers a'.archiveId
  rw [Table.find?_of_mem ha] at hp
  cases hfind : db.archives.find? a'.archiveId with
  | none => rw [hfind] at hp; cases hp
  | some a =>
    rw [hfind] at hp
    exact ⟨a, Table.mem_of_find? hfind, Table.key_of_find? hfind, Option.some.inj hp⟩

theorem SameShelf.isSome {db db' : MemoirDb} (h : SameShelf db db') {id : String}
    (hid : (db.archives.find? id).isSome) : (db'.archives.find? id).isSome := by
  have hp := congrArg Option.isSome (h.pointers id)
  rw [Option.isSome_map, Option.isSome_map] at hp
  rw [hp]
  exact hid

theorem Catalogue.congr {db db' : MemoirDb} (h : Catalogue db) (hs : SameShelf db db') :
    Catalogue db' where
  toShelf := h.toShelf.replace (by rw [hs.documents]; exact .refl _)
    (by rw [hs.references]; exact fun _ hr => hr) fun _ => hs.isSome
  shown := by
    intro a' ha'
    obtain ⟨a, ha, hid, hpointer⟩ := hs.archive ha'
    rw [hs.documents, ← hid, hpointer]
    exact h.shown a ha
  only := by
    rw [hs.documents]
    intro d hd hpub a' ha' hid'
    obtain ⟨a, ha, hid, hpointer⟩ := hs.archive ha'
    rw [hpointer]
    exact h.only d hd hpub a ha (hid.trans hid')

/-- A collection that leaves the published documents alone. -/
theorem Catalogue.drop {db : MemoirDb} (h : Catalogue db) {ids : List String}
    (hold : ∀ d ∈ db.documents.rows, d.documentId ∈ ids → d.isPublished = false) :
    Catalogue (dropDocuments db ids) where
  ids d hd d' hd' := h.ids d (List.mem_filter.mp hd).1 d' (List.mem_filter.mp hd').1
  owned d hd := h.owned d (List.mem_filter.mp hd).1
  shown a ha := by
    obtain ⟨d, hd, hpub⟩ := h.shown a ha
    refine ⟨d, ?_, hpub⟩
    show (db.documents.filter _).find? _ = _
    rw [Table.find?_filter, hd, Option.filter_some_pos]
    refine decide_eq_true fun hin => ?_
    have := hold d (Table.mem_of_find? hd) hin
    rw [hpub] at this
    cases this
  only d hd := h.only d (List.mem_filter.mp hd).1
  cited r hr := by
    obtain ⟨hr, hkept⟩ := List.mem_filter.mp hr
    obtain ⟨hpos, d, hd, hid⟩ := h.cited r hr
    refine ⟨hpos, d, ?_, hid⟩
    show (db.documents.filter _).find? _ = _
    rw [Table.find?_filter, hd, Option.filter_some_pos]
    rw [hid]
    exact hkept

theorem mem_expiredDocuments {db : MemoirDb} {now : Time} {id : String} :
    id ∈ expiredDocuments db now ↔
      ∃ d ∈ db.documents.rows, d.Expired now ∧ d.documentId = id := by
  unfold expiredDocuments
  simp [List.mem_map, List.mem_filter, and_assoc]

/-- The documents of an identifier a collection selects are due. -/
theorem Shelf.expired_of_mem {db : MemoirDb} (h : Shelf db) {now : Time}
    {d : MemoryPlaybackDocument} (hd : d ∈ db.documents.rows)
    (hid : d.documentId ∈ expiredDocuments db now) : d.Expired now := by
  obtain ⟨d', hd', hdue, heq⟩ := mem_expiredDocuments.mp hid
  rw [← h.ids d' hd' d hd heq]
  exact hdue

theorem Catalogue.purgeExpired {db : MemoirDb} (h : Catalogue db) (now : Time) :
    Catalogue (MemoryRevisionGcService.purgeExpired db now) :=
  h.drop fun _ hd hid => (h.toShelf.expired_of_mem hd hid).1

/-! ## Creating and publishing -/

theorem isSome_insert? {κ α : Type} [DecidableEq κ] {key : α → κ} {t t' : Table key} {a : α}
    (h : t.insert? a = some t') {k : κ} (hk : (t.find? k).isSome) : (t'.find? k).isSome := by
  rw [Table.find?_insert? h]
  split
  · rfl
  · exact hk

/-- An archive joins with its baseline. -/
theorem Catalogue.addArchive {db db' : MemoirDb} (h : Catalogue db) {a : MemoryArchive}
    {d : MemoryPlaybackDocument} (hshelf : d.key = (a.archiveId, 0)) (hpub : d.isPublished = true)
    (hpointer : a.publishedRevision = 0)
    (hfresh : ∀ other ∈ db.documents.rows, other.documentId ≠ d.documentId)
    (harchives : db.archives.insert? a = some db'.archives)
    (hdocuments : db.documents.insert? d = some db'.documents)
    (hrefs : db'.references = db.references) : Catalogue db' := by
  obtain ⟨hnone, hrows⟩ := Table.insert?_eq_some.mp harchives
  obtain ⟨hnone', hrows'⟩ := Table.insert?_eq_some.mp hdocuments
  have hid : d.archiveId = a.archiveId := congrArg Prod.fst hshelf
  have hrevision : d.revision = 0 := congrArg Prod.snd hshelf
  have hnew : db'.archives.find? a.archiveId = some a := by
    rw [Table.find?_insert? harchives, if_pos rfl]
  -- No document can be on the shelf of an archive that is not there yet.
  have hforeign : ∀ other ∈ db.documents.rows, other.archiveId ≠ a.archiveId := by
    intro other hother he
    have hsome := h.owned other hother
    rw [he, hnone] at hsome
    cases hsome
  have harch : ∀ b ∈ db'.archives.rows,
      (b ∈ db.archives.rows ∧ b.archiveId ≠ a.archiveId) ∨ b = a := by
    intro b hb
    rw [hrows, List.mem_append, List.mem_singleton] at hb
    exact hb.imp_left fun hb => ⟨hb, Table.find?_eq_none.mp hnone b hb⟩
  have howner : (db'.archives.find? d.archiveId).isSome := by
    rw [hid, hnew]
    rfl
  refine ⟨h.toShelf.insert hfresh hdocuments (fun r hr => Or.inl (by rw [← hrefs]; exact hr))
    (fun _ => isSome_insert? harchives) howner, ?_, ?_⟩
  · intro b hb
    rcases harch b hb with ⟨hb, hne⟩ | rfl
    · obtain ⟨x, hx, hpub'⟩ := h.shown b hb
      refine ⟨x, ?_, hpub'⟩
      rw [Table.find?_insert? hdocuments, if_neg, hx]
      rw [hshelf]
      exact fun hk => hne (congrArg Prod.fst hk)
    · refine ⟨d, ?_, hpub⟩
      rw [hpointer, ← hshelf, Table.find?_insert? hdocuments, if_pos rfl]
  · intro x hx hxpub b hb hbx
    rw [hrows', List.mem_append, List.mem_singleton] at hx
    rcases hx with hx | rfl
    · rcases harch b hb with ⟨hb, _⟩ | rfl
      · exact h.only x hx hxpub b hb hbx
      · exact absurd hbx.symm (hforeign x hx)
    · rcases harch b hb with ⟨_, hne⟩ | rfl
      · exact absurd (hbx.trans hid) hne
      · rw [hrevision, hpointer]

namespace MemoryArchiveService

/-- What `createArchive` adds. -/
theorem createArchive_ok {db db' : MemoirDb} {frozen : FrozenMemoryInput} {digest : String}
    {owner partner : Int} {ids : ArchiveIds}
    (h : createArchive db frozen digest owner partner ids = .ok db') :
    ∃ a d snapshots db₀, d.key = (a.archiveId, 0) ∧ d.isPublished = true ∧
      a.publishedRevision = 0 ∧ (∀ other ∈ db.documents.rows, other.documentId ≠ d.documentId) ∧
      db.archives.insert? a = some db₀.archives ∧ db.documents.insert? d = some db₀.documents ∧
      db₀ = { db with
        archives := db₀.archives, documents := db₀.documents, snapshots := snapshots } ∧
      SceneryOnly db₀ db' := by
  obtain ⟨_, _, h⟩ := bind_ok.mp h
  obtain ⟨_, _, h⟩ := bind_ok.mp h
  split at h
  · cases h
  · next archives harchives =>
    obtain ⟨db₁, hdocument, h⟩ := bind_ok.mp h
    obtain ⟨db₂, hcover, h⟩ := bind_ok.mp h
    obtain ⟨db₃, hstats, h⟩ := bind_ok.mp h
    obtain ⟨db₄, hone, htwo⟩ := bind_ok.mp h
    obtain ⟨hfresh, documents, hinsert, rfl⟩ := insertDocument_ok hdocument
    exact ⟨_, _, _, _, rfl, rfl, rfl, hfresh, harchives, hinsert, rfl,
      ((insertScene_scenery hcover).trans (insertScene_scenery hstats)).trans
        ((insertAction_scenery hone).trans (insertAction_scenery htwo))⟩

theorem createArchive_catalogue {db db' : MemoirDb} {frozen : FrozenMemoryInput} {digest : String}
    {owner partner : Int} {ids : ArchiveIds} (hcat : Catalogue db)
    (h : createArchive db frozen digest owner partner ids = .ok db') : Catalogue db' := by
  obtain ⟨a, d, _, db₀, hshelf, hpub, hpointer, hfresh, harchives, hdocuments, hdb₀, hscenery⟩ :=
    createArchive_ok h
  have hrefs : db₀.references = db.references := by rw [hdb₀]
  exact (hcat.addArchive hshelf hpub hpointer hfresh harchives hdocuments hrefs).congr
    hscenery.sameShelf

/-- `create_archives_for_relationship` finds its archives or adds the two. -/
theorem createArchivesForRelationship_ok {db db' : MemoirDb} {frozen : FrozenMemoryInput}
    {ids : ArchiveIds × ArchiveIds} (h : createArchivesForRelationship db frozen ids = .ok db') :
    db' = db ∨ ∃ digest db₁,
      createArchive db frozen digest frozen.ownerUserIds.1 frozen.ownerUserIds.2 ids.1 = .ok db₁ ∧
      createArchive db₁ frozen digest frozen.ownerUserIds.2 frozen.ownerUserIds.1 ids.2
        = .ok db' := by
  obtain ⟨_, _, h⟩ := bind_ok.mp h
  obtain ⟨digest, _, h⟩ := bind_ok.mp h
  obtain ⟨existing, _, h⟩ := bind_ok.mp h
  split at h
  · cases h
    exact Or.inl rfl
  · obtain ⟨db₁, hone, htwo⟩ := bind_ok.mp h
    exact Or.inr ⟨digest, db₁, hone, htwo⟩

/-- A publication is one of an archive that is there and not deleted. -/
theorem checkPublication_ok {text : PyText} {db : MemoirDb} {archiveId : String} {epoch : Int}
    {runId : Option String} {snapshot : Option MemorySnapshot} {document : List (String × Json)}
    {p : Publication}
    (h : checkPublication text db archiveId epoch runId snapshot document = .ok p) :
    db.archives.find? archiveId = some p.archive ∧ p.archive.deletedAt = none ∧
      (p.archive.generationEpoch : Int) = epoch := by
  obtain ⟨body, _, h⟩ := bind_ok.mp h
  split at h
  · cases h
  · next archive hlive =>
    obtain ⟨_, hepoch, h⟩ := bind_ok.mp h
    obtain ⟨_, _, h⟩ := bind_ok.mp h
    obtain ⟨sources, _, h⟩ := bind_ok.mp h
    cases h
    obtain ⟨hfind, hdeleted⟩ := Option.filter_eq_some_iff.mp hlive
    exact ⟨hfind, by simpa using hdeleted, require_ok.mp hepoch⟩

/-- The document a publication adds. -/
def Publication.document (p : Publication) (documentId : String) : MemoryPlaybackDocument where
  documentId := documentId
  archiveId := p.archive.archiveId
  revision := p.archive.publishedRevision + 1
  isPublished := true

/-- The archive after a publication. -/
def Publication.advanced (p : Publication) : MemoryArchive :=
  { p.archive with
    publishedRevision := p.archive.publishedRevision + 1, contentStatus := .succeeded }

/-- The references a publication adds. -/
def Publication.references (p : Publication) (documentId : String) : List MemorySourceReference :=
  p.sources.map fun source =>
    ⟨p.archive.archiveId, documentId, p.archive.publishedRevision + 1, source⟩

/-- What `writePublication` writes, where there is a published document. -/
theorem writePublication_ok {db db' : MemoirDb} {now : Time} {p : Publication}
    {documentId : String} {previous : MemoryPlaybackDocument}
    (hprevious : db.documents.find? (p.archive.archiveId, p.archive.publishedRevision)
      = some previous)
    (h : writePublication db now p documentId = .ok db') :
    (∀ other ∈ (db.documents.put (previous.supersede now)).rows,
        other.documentId ≠ documentId) ∧
      (db.documents.put (previous.supersede now)).insert? (p.document documentId)
        = some db'.documents ∧
      db'.references = db.references ++ p.references documentId ∧
      db'.archives = db.archives.put p.advanced ∧ db'.snapshots = db.snapshots ∧
      db'.runRefs = db.runRefs ∧ db'.launchEvents = db.launchEvents := by
  obtain ⟨db₁, hdocument, h⟩ := bind_ok.mp h
  obtain ⟨db₂, hscenes, h⟩ := bind_ok.mp h
  obtain ⟨db₃, hactions, h⟩ := bind_ok.mp h
  cases h
  rw [supersedePrevious, hprevious] at hdocument
  obtain ⟨hfresh, documents, hinsert, rfl⟩ := insertDocument_ok hdocument
  have hscenery := (insertScenes_scenery hscenes).trans (insertActions_scenery hactions)
  unfold SceneryOnly at hscenery
  rw [hscenery]
  exact ⟨hfresh, hinsert, rfl, rfl, rfl, rfl, rfl⟩

@[simp] theorem supersede_key (d : MemoryPlaybackDocument) (now : Time) :
    (d.supersede now).key = d.key := rfl

theorem writePublication_catalogue {db db' : MemoirDb} (hcat : Catalogue db) {now : Time}
    {p : Publication} {documentId : String}
    (harchive : db.archives.find? p.archive.archiveId = some p.archive)
    (h : writePublication db now p documentId = .ok db') : Catalogue db' := by
  obtain ⟨previous, hprevious, _⟩ := hcat.shown p.archive (Table.mem_of_find? harchive)
  obtain ⟨hfresh, hdocuments, hrefs, harchives, _⟩ := writePublication_ok hprevious h
  have hkey : previous.key = (p.archive.archiveId, p.archive.publishedRevision) :=
    Table.key_of_find? hprevious
  have hself : db.documents.find? previous.key = some previous := by rw [hkey, hprevious]
  have hplaces : SamePlaces db.documents (db.documents.put (previous.supersede now)) :=
    .put hself rfl rfl
  have hshelf : Shelf { db with documents := db.documents.put (previous.supersede now) } :=
    hcat.toShelf.replace hplaces (fun _ hr => hr) fun _ hid => hid
  obtain ⟨_, hrows⟩ := Table.insert?_eq_some.mp hdocuments
  have hsome : ∀ id, (db.archives.find? id).isSome → (db'.archives.find? id).isSome := by
    intro id hid
    rw [harchives, Table.find?_put]
    split
    · rw [Option.isSome_map]
      exact hid
    · exact hid
  have harch : ∀ a ∈ db'.archives.rows, a = p.advanced ∨
      (a ∈ db.archives.rows ∧ a.archiveId ≠ p.archive.archiveId) := by
    intro a ha
    rw [harchives] at ha
    exact (Table.mem_put.mp ha).imp (·.1) id
  refine ⟨hshelf.insert hfresh hdocuments ?_ hsome (hsome _ (by
    show (db.archives.find? p.archive.archiveId).isSome
    rw [harchive]
    rfl)), ?_, ?_⟩
  · intro r hr
    rw [hrefs] at hr
    refine (List.mem_append.mp hr).imp id fun hr => ?_
    obtain ⟨source, _, rfl⟩ := List.mem_map.mp hr
    exact ⟨Nat.succ_pos _, rfl, rfl⟩
  · intro a ha
    rw [Table.find?_insert? hdocuments]
    rcases harch a ha with rfl | ⟨ha, hne⟩
    · exact ⟨_, if_pos rfl, rfl⟩
    · obtain ⟨x, hx, hpub⟩ := hcat.shown a ha
      refine ⟨x, ?_, hpub⟩
      rw [if_neg fun hk => hne (congrArg Prod.fst hk), Table.find?_put_ne, hx]
      rw [supersede_key, hkey]
      exact fun hk => hne (congrArg Prod.fst hk)
  · intro x hx hpub a ha hax
    rw [hrows, List.mem_append, List.mem_singleton] at hx
    rcases hx with hx | rfl
    · rcases Table.mem_put.mp hx with ⟨rfl, _⟩ | ⟨hx, hne⟩
      · cases hpub
      · rcases harch a ha with rfl | ⟨ha, _⟩
        · -- The other documents of the archive were not published before either.
          have hrev := hcat.only x hx hpub p.archive (Table.mem_of_find? harchive) hax
          exact absurd (Prod.ext hax.symm hrev) (by rw [supersede_key, hkey] at hne; exact hne)
        · exact hcat.only x hx hpub a ha hax
    · rcases harch a ha with rfl | ⟨_, hne⟩
      · rfl
      · exact absurd hax hne

end MemoryArchiveService

/-! ## Deleting a source -/

/-- What one match of `invalidate_deleted_source` finds when it is carried
out. -/
structure Withdrawal (db : MemoirDb) (found : String × Nat) (archive : MemoryArchive)
    (baseline current : MemoryPlaybackDocument) : Prop where
  live : db.liveArchive? found.1 = some archive
  pointer : archive.publishedRevision = found.2
  baseline_found : db.documents.find? (found.1, 0) = some baseline
  current_found : db.documents.find? found = some current

/-- What it writes then, the revision not being the baseline itself. -/
structure Withdrawn (db db' : MemoirDb) (now : Time) (archive : MemoryArchive)
    (baseline current : MemoryPlaybackDocument) : Prop where
  documents : db'.documents = (db.documents.put baseline.restore).put (current.withdraw now)
  references : db'.references
    = db.references.filter (fun r => decide (r.documentId ≠ current.documentId))
  archives : db'.archives = db.archives.put archive.invalidate
  runRefs : db'.runRefs = db.runRefs
  launchEvents : db'.launchEvents = db.launchEvents

namespace MemoryDeletionCompensationService

theorem cancelPrior_eq (db : MemoirDb) (archive : MemoryArchive) :
    ∃ compensations, cancelPrior db archive = { db with compensations := compensations } := by
  unfold cancelPrior enqueueCompensation
  split
  · exact ⟨_, rfl⟩
  · split
    · exact ⟨_, rfl⟩
    · dsimp only
      split
      · exact ⟨_, rfl⟩
      · exact ⟨_, rfl⟩

/-- A match is carried out, or it finds its archive elsewhere or a document
missing. -/
theorem invalidateMatch_cases {db : MemoirDb} (hshelf : Shelf db) (now : Time)
    {found : String × Nat} (hpos : 0 < found.2) :
    ((∃ archive baseline current, Withdrawal db found archive baseline current ∧
        Withdrawn db (invalidateMatch db now found).1 now archive baseline current) ∧
      (invalidateMatch db now found).2 = true) ∨
    ((∀ archive baseline current, ¬ Withdrawal db found archive baseline current) ∧
      invalidateMatch db now found = (db, false)) := by
  unfold invalidateMatch
  cases hlive : db.liveArchive? found.1 with
  | none =>
    refine Or.inr ⟨fun archive baseline current h => ?_, rfl⟩
    have := h.live
    rw [hlive] at this
    cases this
  | some archive =>
    by_cases hpointer : archive.publishedRevision = found.2
    · dsimp only
      rw [if_neg (fun hne => hne hpointer)]
      cases hbase : db.documents.find? (found.1, 0) with
      | none =>
        refine Or.inr ⟨fun _ baseline _ h => ?_, rfl⟩
        have := h.baseline_found
        rw [hbase] at this
        cases this
      | some baseline =>
        cases hcur : db.documents.find? found with
        | none =>
          refine Or.inr ⟨fun _ _ current h => ?_, rfl⟩
          have := h.current_found
          rw [hcur] at this
          cases this
        | some current =>
          refine Or.inl ⟨⟨archive, baseline, current, ⟨hlive, hpointer, hbase, hcur⟩, ?_⟩, rfl⟩
          have hne : current.documentId ≠ baseline.documentId := by
            intro he
            have hsame := hshelf.ids current (Table.mem_of_find? hcur) baseline
              (Table.mem_of_find? hbase) he
            have hk := (Table.key_of_find? hcur).symm.trans
              ((congrArg MemoryPlaybackDocument.key hsame).trans (Table.key_of_find? hbase))
            have hzero : found.2 = 0 := congrArg Prod.snd hk
            omega
          obtain ⟨compensations, hcancel⟩ := cancelPrior_eq
            { withdrawRevision { db with archives := db.archives.put archive.invalidate } now
                baseline current with
              snapshots := (withdrawRevision
                { db with archives := db.archives.put archive.invalidate } now baseline
                current).snapshots.filter (fun s => decide (s.archiveId ≠ found.1)) } archive
          dsimp only
          rw [hcancel, withdrawRevision, if_neg hne]
          exact ⟨rfl, rfl, rfl, rfl, rfl⟩
    · dsimp only
      rw [if_pos hpointer]
      refine Or.inr ⟨fun archive' baseline current h => ?_, rfl⟩
      have hsame := h.live
      rw [hlive] at hsame
      cases hsame
      exact hpointer h.pointer

end MemoryDeletionCompensationService

theorem liveArchive_ok {db : MemoirDb} {id : String} {a : MemoryArchive}
    (h : db.liveArchive? id = some a) : db.archives.find? id = some a ∧ a.deletedAt = none := by
  obtain ⟨hfind, hdeleted⟩ := Option.filter_eq_some_iff.mp h
  exact ⟨hfind, by simpa using hdeleted⟩

section Withdrawn

variable {db db' : MemoirDb} {now : Time} {found : String × Nat} {archive : MemoryArchive}
  {baseline current : MemoryPlaybackDocument}

theorem Withdrawal.keys (h : Withdrawal db found archive baseline current) :
    archive.archiveId = found.1 ∧ baseline.key = (found.1, 0) ∧ current.key = found :=
  ⟨Table.key_of_find? (liveArchive_ok h.live).1, Table.key_of_find? h.baseline_found,
    Table.key_of_find? h.current_found⟩

/-- The documents after a withdrawal: the two it is about, and the others. -/
theorem Withdrawn.mem (w : Withdrawn db db' now archive baseline current)
    {x : MemoryPlaybackDocument} (hx : x ∈ db'.documents.rows) :
    x = current.withdraw now ∨ (x = baseline.restore ∧ x.key ≠ current.key) ∨
      (x ∈ db.documents.rows ∧ x.key ≠ current.key ∧ x.key ≠ baseline.key) := by
  rw [w.documents] at hx
  rcases Table.mem_put.mp hx with ⟨rfl, _⟩ | ⟨hx, hne⟩
  · exact Or.inl rfl
  · rcases Table.mem_put.mp hx with ⟨rfl, _⟩ | ⟨hx, hne'⟩
    · exact Or.inr (Or.inl ⟨rfl, hne⟩)
    · exact Or.inr (Or.inr ⟨hx, hne, hne'⟩)

theorem Withdrawn.samePlaces (h : Withdrawal db found archive baseline current)
    (hpos : 0 < found.2) (w : Withdrawn db db' now archive baseline current) :
    SamePlaces db.documents db'.documents := by
  obtain ⟨_, hbase, hcur⟩ := h.keys
  have hself : db.documents.find? baseline.key = some baseline := by
    rw [hbase, h.baseline_found]
  have hself' : (db.documents.put baseline.restore).find? current.key = some current := by
    rw [Table.find?_put_ne, hcur, h.current_found]
    intro hk
    have hzero : found = (found.1, 0) := hcur.symm.trans (hk.trans hbase)
    rw [hzero] at hpos
    exact absurd hpos (Nat.lt_irrefl 0)
  have hone : SamePlaces db.documents (db.documents.put baseline.restore) := .put hself rfl rfl
  have htwo : SamePlaces (db.documents.put baseline.restore)
      ((db.documents.put baseline.restore).put (current.withdraw now)) := .put hself' rfl rfl
  rw [w.documents]
  exact hone.trans htwo

theorem Withdrawn.catalogue (hcat : Catalogue db)
    (h : Withdrawal db found archive baseline current) (hpos : 0 < found.2)
    (w : Withdrawn db db' now archive baseline current) : Catalogue db' := by
  obtain ⟨harchive, hbase, hcur⟩ := h.keys
  have hfind := (liveArchive_ok h.live).1
  have hapart : baseline.key ≠ current.key := by
    rw [hbase, hcur]
    intro hk
    rw [← hk] at hpos
    exact absurd hpos (Nat.lt_irrefl 0)
  have harch : ∀ a ∈ db'.archives.rows, a = archive.invalidate ∨
      (a ∈ db.archives.rows ∧ a.archiveId ≠ found.1) := by
    intro a ha
    rw [w.archives] at ha
    rcases Table.mem_put.mp ha with ⟨rfl, _⟩ | ⟨ha, hne⟩
    · exact Or.inl rfl
    · exact Or.inr ⟨ha, fun he => hne (he.trans harchive.symm)⟩
  have hbaseNew : db'.documents.find? (found.1, 0) = some baseline.restore := by
    have hput : (db.documents.put baseline.restore).find? baseline.key = some baseline.restore :=
      Table.find?_put_self (a := baseline.restore) (by
        show db.documents.find? baseline.key = some baseline
        rw [hbase, h.baseline_found])
    rw [w.documents, Table.find?_put_ne, ← hbase, hput]
    rw [← hbase]
    exact hapart
  refine ⟨hcat.toShelf.replace (w.samePlaces h hpos) ?_ ?_, ?_, ?_⟩
  · intro r hr
    rw [w.references] at hr
    exact (List.mem_filter.mp hr).1
  · intro id hid
    rw [w.archives, Table.find?_put]
    split
    · rw [Option.isSome_map]
      exact hid
    · exact hid
  · intro a ha
    rcases harch a ha with rfl | ⟨ha, hne⟩
    · exact ⟨_, by
        show db'.documents.find? (archive.archiveId, 0) = _
        rw [harchive]
        exact hbaseNew, rfl⟩
    · obtain ⟨d, hd, hpub⟩ := hcat.shown a ha
      refine ⟨d, ?_, hpub⟩
      rw [w.documents, Table.find?_put_ne, Table.find?_put_ne, hd]
      · show (a.archiveId, a.publishedRevision) ≠ baseline.key
        rw [hbase]
        exact fun hk => hne (congrArg Prod.fst hk)
      · show (a.archiveId, a.publishedRevision) ≠ current.key
        rw [hcur]
        exact fun hk => hne (congrArg Prod.fst hk)
  · intro x hx hpub a ha hax
    rcases w.mem hx with rfl | ⟨rfl, _⟩ | ⟨hx, hne, hne'⟩
    · cases hpub
    · have hrev : baseline.restore.revision = 0 := congrArg Prod.snd hbase
      have hid : baseline.restore.archiveId = found.1 := congrArg Prod.fst hbase
      rcases harch a ha with rfl | ⟨_, hother⟩
      · exact hrev
      · exact absurd (hax.trans hid) hother
    · rcases harch a ha with rfl | ⟨ha, _⟩
      · -- Before, only the withdrawn one was published.
        have hrev := hcat.only x hx hpub archive (Table.mem_of_find? hfind) hax
        rw [h.pointer] at hrev
        refine absurd (Prod.ext ?_ hrev) (by rw [hcur] at hne; exact hne)
        show x.archiveId = found.1
        rw [← hax]
        exact harchive
      · exact hcat.only x hx hpub a ha hax

end Withdrawn

/-- The published documents are ones that were published, or baselines of the
archives `P`. -/
def PublishedFrom (P : String → Prop) (db db' : MemoirDb) : Prop :=
  ∀ x ∈ db'.documents.rows, x.isPublished = true → ∃ y ∈ db.documents.rows,
    y.key = x.key ∧ y.documentId = x.documentId ∧
      (y.isPublished = true ∨ (y.revision = 0 ∧ P y.archiveId))

theorem Withdrawn.publishedFrom {db db' : MemoirDb} {now : Time} {found : String × Nat}
    {archive : MemoryArchive} {baseline current : MemoryPlaybackDocument} {P : String → Prop}
    (h : Withdrawal db found archive baseline current)
    (w : Withdrawn db db' now archive baseline current) (hP : P found.1) :
    PublishedFrom P db db' := by
  obtain ⟨_, hbase, _⟩ := h.keys
  intro x hx hpub
  rcases w.mem hx with rfl | ⟨rfl, _⟩ | ⟨hx, _⟩
  · cases hpub
  · refine ⟨baseline, Table.mem_of_find? h.baseline_found, rfl, rfl, Or.inr ⟨?_, ?_⟩⟩
    · exact congrArg Prod.snd hbase
    · rw [show baseline.archiveId = found.1 from congrArg Prod.fst hbase]
      exact hP
  · exact ⟨x, hx, rfl, rfl, Or.inl hpub⟩

namespace MemoryDeletionCompensationService

/-- The loop over the matches, carried out or not. -/
theorem invalidateMatches_catalogue {now : Time} {P : String → Prop} :
    ∀ (matched : List (String × Nat)) {db : MemoirDb}, Catalogue db →
      (∀ m ∈ matched, 0 < m.2 ∧ P m.1) →
      Catalogue (invalidateMatches now db matched).1 ∧
        SamePlaces db.documents (invalidateMatches now db matched).1.documents ∧
        PublishedFrom P db (invalidateMatches now db matched).1
  | [], db, hcat, _ => ⟨hcat, .refl _, fun x hx hpub => ⟨x, hx, rfl, rfl, Or.inl hpub⟩⟩
  | m :: matched, db, hcat, hm => by
    obtain ⟨hpos, hP⟩ := hm m List.mem_cons_self
    have hrest : ∀ {db : MemoirDb}, Catalogue db →
        Catalogue (invalidateMatches now db matched).1 ∧
          SamePlaces db.documents (invalidateMatches now db matched).1.documents ∧
          PublishedFrom P db (invalidateMatches now db matched).1 := fun hcat =>
      invalidateMatches_catalogue matched hcat fun m' hm' => hm m' (List.mem_cons_of_mem _ hm')
    unfold invalidateMatches
    dsimp only
    rcases invalidateMatch_cases hcat.toShelf now hpos with
      ⟨⟨archive, baseline, current, hfound, w⟩, _⟩ | ⟨_, hsame⟩
    · obtain ⟨hcat', hplaces, hpub⟩ := hrest (w.catalogue hcat hfound hpos)
      refine ⟨hcat', (w.samePlaces hfound hpos).trans hplaces, fun x hx hx' => ?_⟩
      obtain ⟨y, hy, hk, hid, hfrom⟩ := hpub x hx hx'
      rcases hfrom with hpub' | ⟨hzero, hP'⟩
      · obtain ⟨z, hz, hk', hid', hfrom'⟩ := w.publishedFrom hfound hP y hy hpub'
        exact ⟨z, hz, hk'.trans hk, hid'.trans hid, hfrom'⟩
      · obtain ⟨z, hz, hk', hid'⟩ := (w.samePlaces hfound hpos).back y hy
        refine ⟨z, hz, hk'.trans hk, hid'.trans hid, Or.inr ⟨?_, ?_⟩⟩
        · exact (congrArg Prod.snd hk').trans hzero
        · rw [show z.archiveId = y.archiveId from congrArg Prod.fst hk']
          exact hP'
    · rw [hsame]
      exact hrest hcat

end MemoryDeletionCompensationService

/-- The matches of a source are revisions that references to it are in, and
that are published. -/
theorem findPublished_ok {db : MemoirDb} {source : Source} {matched : List (String × Nat)}
    (h : findPublishedRevisionsBySource db source = .ok matched) :
    ∀ m, m ∈ matched ↔ ∃ r ∈ db.references, r.source = source ∧ (r.archiveId, r.revision) = m ∧
      ∃ a, db.liveArchive? r.archiveId = some a ∧ a.publishedRevision = r.revision := by
  obtain ⟨_, _, h⟩ := bind_ok.mp h
  obtain ⟨_, _, h⟩ := bind_ok.mp h
  cases h
  intro m
  simp only [List.mem_map, List.mem_filter, decide_eq_true_eq, Option.map_eq_some_iff]
  grind

/-- No baseline that would be put back is due. -/
def BaselinesKept (db : MemoirDb) (now : Time) (source : Source) : Prop :=
  ∀ r ∈ db.references, r.source = source →
    (∃ a ∈ db.liveArchive? r.archiveId, a.publishedRevision = r.revision) →
    ∀ d ∈ db.documents.find? (r.archiveId, 0), ¬ d.Expired now

instance (db : MemoirDb) (now : Time) (source : Source) :
    Decidable (BaselinesKept db now source) := by
  unfold BaselinesKept; infer_instance

theorem invalidateDeletedSource_catalogue {db db' : MemoirDb} {now : Time} {source : Source}
    (hcat : Catalogue db) (hkept : BaselinesKept db now source)
    (h : MemoryDeletionCompensationService.invalidateDeletedSource db now source = .ok db') :
    Catalogue db' := by
  obtain ⟨matched, hfound, h⟩ := bind_ok.mp h
  have hmatched := findPublished_ok hfound
  have hm : ∀ m ∈ matched, 0 < m.2 ∧ ∀ d ∈ db.documents.find? (m.1, 0), ¬ d.Expired now := by
    intro m hm
    obtain ⟨r, hr, hsource, rfl, hlive⟩ := (hmatched m).mp hm
    exact ⟨(hcat.cited r hr).1, hkept r hr hsource hlive⟩
  obtain ⟨hcat', hplaces, hpub⟩ :=
    MemoryDeletionCompensationService.invalidateMatches_catalogue
      (P := fun id => ∀ d ∈ db.documents.find? (id, 0), ¬ d.Expired now) matched hcat hm
  cases h
  split
  · -- What is published now was published before, or is a baseline that is not due.
    refine hcat'.drop fun x hx hid => ?_
    by_contra hx'
    have hx' : x.isPublished = true := by simpa using hx'
    obtain ⟨y, hy, _, hyid, hfrom⟩ := hpub x hx hx'
    have hdue := hcat.toShelf.expired_of_mem hy (by rw [hyid]; exact hid)
    rcases hfrom with hy' | ⟨hzero, hnot⟩
    · rw [hdue.1] at hy'
      cases hy'
    · refine hnot y ?_ hdue
      rw [← hzero]
      exact Table.find?_of_mem hy
  · exact hcat'

/-! ## Runs -/

theorem LaunchOnly.sameShelf {db db' : MemoirDb} (h : LaunchOnly db db') : SameShelf db db' := by
  refine ⟨h.documents, h.references, fun id => ?_⟩
  have hp := congrArg (Option.map Prod.fst) (h.archives id)
  rw [Option.map_map, Option.map_map] at hp
  exact hp

theorem requestArchivePrivacyPurge_sameShelf {db db' : MemoirDb} {now : Time} {archiveId : String}
    (h : MemoryDeletionCompensationService.requestArchivePrivacyPurge db now archiveId = .ok db') :
    SameShelf db db' := by
  unfold MemoryDeletionCompensationService.requestArchivePrivacyPurge at h
  cases hfind : db.archives.find? archiveId with
  | none => rw [hfind] at h; cases h
  | some archive =>
    rw [hfind] at h
    dsimp only at h
    split at h
    · cases h
      exact .refl db
    · cases h
      have hname : archive.archiveId = archiveId := Table.key_of_find? hfind
      have hdelete : SameShelf db { db with archives := db.archives.put (archive.delete now) } :=
        .putArchive (a := archive) (by rw [hname, hfind]) rfl rfl
      refine hdelete.trans (LaunchOnly.sameShelf (requestPurges_moves _ ?_ ?_))
      · exact fun ref href => Table.find?_of_mem (List.mem_filter.mp href).1
      · exact (db.runRefs.nodup).sublist (List.filter_sublist.map _)

/-- What the steps of a run have to meet: a publication that passes its
checks finds no revision above the published one, and a deletion that takes a
revision back finds the baseline not due. -/
def RevisionsClear (text : PyText) (s : Backend) (e : Time × BackendOp) : Prop :=
  match e.2 with
  | .publish archiveId epoch runId snapshotId document _ =>
    IfOk (MemoryArchiveService.checkPublication text s.db archiveId epoch runId
        (s.db.snapshot? snapshotId) document) fun p =>
      ∀ d ∈ s.db.documents.rows, d.archiveId = p.archive.archiveId →
        d.revision ≤ p.archive.publishedRevision
  | .invalidateDeletedSource source => BaselinesKept s.db (s.now + e.1) source
  | _ => True

instance (text : PyText) (s : Backend) (e : Time × BackendOp) :
    Decidable (RevisionsClear text s e) := by
  unfold RevisionsClear; split <;> infer_instance

/-- The invariant is kept where deletions find the baselines not due. -/
theorem Backend.step_catalogue {text : PyText} {s : Backend} {e : Time × BackendOp}
    (hcat : Catalogue s.db)
    (hkept : ∀ source, e.2 = .invalidateDeletedSource source →
      BaselinesKept s.db (s.now + e.1) source) : Catalogue (s.step text e).db := by
  rcases s.step_cases text e with ⟨db', hdone, hdb, _⟩ | ⟨_, _, hdb, _⟩
  · rw [hdb]
    obtain ⟨elapsed, op⟩ := e
    have hlaunch : op.Launching → Catalogue db' := fun h =>
      hcat.congr ((h.launches text s.db _).done db' hdone).sameShelf
    cases op with
    | createArchives frozen ids =>
      rcases MemoryArchiveService.createArchivesForRelationship_ok hdone with
        rfl | ⟨digest, db₁, hone, htwo⟩
      · exact hcat
      · exact MemoryArchiveService.createArchive_catalogue
          (MemoryArchiveService.createArchive_catalogue hcat hone) htwo
    | publish archiveId epoch runId snapshotId document documentId =>
      obtain ⟨p, hcheck, hwrite⟩ := bind_ok.mp hdone
      obtain ⟨hfind, _, _⟩ := MemoryArchiveService.checkPublication_ok hcheck
      refine MemoryArchiveService.writePublication_catalogue hcat ?_ hwrite
      rw [show p.archive.archiveId = archiveId from Table.key_of_find? hfind, hfind]
    | purgeExpired =>
      cases hdone
      exact hcat.purgeExpired _
    | invalidateDeletedSource source =>
      exact invalidateDeletedSource_catalogue hcat (hkept source rfl) hdone
    | requestArchivePrivacyPurge archiveId =>
      exact hcat.congr (requestArchivePrivacyPurge_sameShelf hdone)
    | _ => exact hlaunch trivial
  · rw [hdb]
    exact hcat

/-- A publication that passes its checks finds its number free. -/
def NumberFree (text : PyText) (s : Backend) (e : Time × BackendOp) : Prop :=
  match e.2 with
  | .publish archiveId epoch runId snapshotId document _ =>
    IfOk (MemoryArchiveService.checkPublication text s.db archiveId epoch runId
        (s.db.snapshot? snapshotId) document) fun p =>
      s.db.documents.find? (p.archive.archiveId, p.archive.publishedRevision + 1) = none
  | _ => True

instance (text : PyText) (s : Backend) (e : Time × BackendOp) : Decidable (NumberFree text s e) := by
  unfold NumberFree; split <;> infer_instance

/-- One document of the archive is published, and the pointer leads to it. -/
def OnePublished (db : MemoirDb) (a : MemoryArchive) : Prop :=
  ∃ d ∈ db.documents.rows, d.archiveId = a.archiveId ∧ d.isPublished = true ∧
    d.revision = a.publishedRevision ∧
    ∀ d' ∈ db.documents.rows, d'.archiveId = a.archiveId → d'.isPublished = true → d' = d

instance (db : MemoirDb) (a : MemoryArchive) : Decidable (OnePublished db a) := by
  unfold OnePublished; infer_instance

theorem Catalogue.onePublished {db : MemoirDb} (h : Catalogue db) {a : MemoryArchive}
    (ha : a ∈ db.archives.rows) : OnePublished db a := by
  obtain ⟨d, hd, hpub⟩ := h.shown a ha
  have hkey : d.key = (a.archiveId, a.publishedRevision) := Table.key_of_find? hd
  refine ⟨d, Table.mem_of_find? hd, congrArg Prod.fst hkey, hpub, congrArg Prod.snd hkey, ?_⟩
  intro d' hd' hid hpub'
  have hrev := h.only d' hd' hpub' a ha hid.symm
  have hkey' : d'.key = (a.archiveId, a.publishedRevision) := by
    rw [MemoryPlaybackDocument.key, hid, hrev]
  exact List.inj_on_of_nodup_map (Table.nodup _) hd' (Table.mem_of_find? hd)
    (hkey'.trans hkey.symm)

/-- What is claimed of a step: a publication that passes its checks finds its
number free, and after the step one document of each archive is published. -/
def RevisionsDistinct (text : PyText) (s : Backend) (e : Time × BackendOp) : Prop :=
  NumberFree text s e ∧ ∀ a ∈ (s.step text e).db.archives.rows, OnePublished (s.step text e).db a

instance (text : PyText) (s : Backend) (e : Time × BackendOp) :
    Decidable (RevisionsDistinct text s e) := by
  unfold RevisionsDistinct; infer_instance

namespace RevisionExample

/-- Decimal digits and numerals of plain text. -/
def plainText : PyText where
  isDecimal c := decide ('0' ≤ c ∧ c ≤ '9')
  parseInt s := some (s.toList.foldl (fun n c => 10 * n + (c.toNat - 48 : Int)) 0)

def frozen : FrozenMemoryInput where
  relationshipId := 1
  spaceId := "space-1"
  relationshipSegmentNo := 1
  ownerUserIds := (1, 2)
  snapshotCutoffAt := 0
  sourceManifest := [("diary_ids", .arr [.int 7])]
  privacyFilterVersion := "1"
  manifestHash := "manifest"
  payloadDigest := .ok "payload"

def ids (name : String) : ArchiveIds where
  archiveId := "archive-" ++ name
  snapshotId := "snapshot-" ++ name
  documentId := "baseline-" ++ name
  coverId := "cover-" ++ name
  statsId := "stats-" ++ name
  coverActionId := "show-cover-" ++ name
  statsActionId := "show-stats-" ++ name

/-- A document of one scene with the given references. -/
def document (sceneId : String) (sourceRefs : List Json) : List (String × Json) :=
  [("schema_version", .str "1.0.0"), ("scenes", .arr [.obj [("scene_id", .str sceneId),
      ("scene_type", .str "cover"), ("source_refs", .arr sourceRefs)]]),
    ("actions", .arr []), ("media_manifest", .arr [])]

def create : BackendOp := .createArchives frozen (ids "a", ids "b")

/-- The first archive publishes. -/
def publish (epoch : Int) (documentId : String) (sourceRefs : List Json) : BackendOp :=
  .publish "archive-a" epoch none (some "snapshot-a") (document ("scene-" ++ documentId) sourceRefs)
    documentId

/-- Two revisions, the second with the diary, which is then deleted; and a
third one. -/
def republished : List (Time × BackendOp) :=
  [(0, create), (1, publish 0 "first" []), (1, publish 0 "second" [.str "diary:7"]),
    (1, .invalidateDeletedSource ⟨"diary", "7"⟩), (1, publish 1 "third" [])]

/-- The same, with the collection of the two revisions before the third. -/
def collected : List (Time × BackendOp) :=
  [(0, create), (1, publish 0 "first" []), (1, publish 0 "second" [.str "diary:7"]),
    (1, .invalidateDeletedSource ⟨"diary", "7"⟩), (seconds (7 * 86400), .purgeExpired),
    (1, publish 1 "third" [])]

end RevisionExample

end AgentRuntime
