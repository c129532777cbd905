import AgentRuntime.Revisions

/-!
# Deleted sources

What deleting a source promises: from its commit on, no published revision of
an archive that is not deleted refers to it, and the baseline the archive
falls back on is always there (`SourcesGone`).

Two things break the promise. A publication over the baseline gives the
baseline seven days of grace, like any other superseded revision; once they
are over a collection takes it, and a deletion that finds no baseline leaves
the revision published. And a publication is checked against the snapshot of
its run, which may hold sources that were deleted while the run was going.
`sources_gone` shows that there is nothing else.
-/

namespace AgentRuntime

open Keyed Runs

/-- An archive that is not deleted has its baseline. -/
def BaselinesThere (db : MemoirDb) : Prop :=
  ∀ a ∈ db.archives.rows, a.deletedAt = none → (db.documents.find? (a.archiveId, 0)).isSome

/-- No archive that is not deleted has a source of `sources` in its published
revision. -/
def Unreferenced (db : MemoirDb) (sources : List Source) : Prop :=
  ∀ a ∈ db.archives.rows, a.deletedAt = none → ∀ r ∈ db.references,
    r.archiveId = a.archiveId → r.revision = a.publishedRevision → r.source ∉ sources

structure SourcesGone (s : Backend) : Prop where
  baselines : BaselinesThere s.db
  unreferenced : Unreferenced s.db s.deletedSources

/-- No baseline of an archive that is not deleted is due. -/
def BaselinesSafe (db : MemoirDb) (now : Time) : Prop :=
  ∀ a ∈ db.archives.rows, a.deletedAt = none →
    ∀ d ∈ db.documents.find? (a.archiveId, 0), ¬ d.Expired now

/-- A published revision refers to the source. -/
def Published (db : MemoirDb) (source : Source) : Prop :=
  ∃ r ∈ db.references, r.source = source ∧
    ∃ a ∈ db.liveArchive? r.archiveId, a.publishedRevision = r.revision

/-- What the steps of a run have to meet: a collection, also the one that
ends the deletion of a published source, finds no baseline due, and no
document is published that refers to a source already deleted. -/
def SourcesClear (text : PyText) (s : Backend) (e : Time × BackendOp) : Prop :=
  match e.2 with
  | .publish archiveId epoch runId snapshotId document _ =>
    IfOk (MemoryArchiveService.checkPublication text s.db archiveId epoch runId
        (s.db.snapshot? snapshotId) document) fun p =>
      ∀ source ∈ p.sources, source ∉ s.deletedSources
  | .invalidateDeletedSource source =>
    Published s.db source → BaselinesSafe s.db (s.now + e.1)
  | .purgeExpired => BaselinesSafe s.db (s.now + e.1)
  | _ => True

instance (db : MemoirDb) : Decidable (BaselinesThere db) := by
  unfold BaselinesThere; infer_instance

instance (db : MemoirDb) (sources : List Source) : Decidable (Unreferenced db sources) := by
  unfold Unreferenced; infer_instance

instance (db : MemoirDb) (now : Time) : Decidable (BaselinesSafe db now) := by
  unfold BaselinesSafe; infer_instance

instance (db : MemoirDb) (source : Source) : Decidable (Published db source) := by
  unfold Published; infer_instance

instance (s : Backend) : Decidable (SourcesGone s) :=
  decidable_of_iff (BaselinesThere s.db ∧ Unreferenced s.db s.deletedSources)
    ⟨fun h => ⟨h.1, h.2⟩, fun h => ⟨h.1, h.2⟩⟩

instance (text : PyText) (s : Backend) (e : Time × BackendOp) :
    Decidable (SourcesClear text s e) := by
  obtain ⟨_, op⟩ := e
  cases op <;> (dsimp only [SourcesClear]; infer_instance)

/-! ## What keeps the promise -/

/-- Nothing changes but archives that get deleted. -/
theorem SourcesGone.congr {s s' : Backend} (h : SourcesGone s) (hs : SameShelf s.db s'.db)
    (hlive : ∀ a' ∈ s'.db.archives.rows, a'.deletedAt = none → ∃ a ∈ s.db.archives.rows,
      a.archiveId = a'.archiveId ∧ a.deletedAt = none)
    (hdeleted : s'.deletedSources = s.deletedSources) : SourcesGone s' := by
  constructor
  · intro a' ha' hnone
    obtain ⟨a, ha, hid, hnone'⟩ := hlive a' ha' hnone
    rw [hs.documents, ← hid]
    exact h.baselines a ha hnone'
  · intro a' ha' hnone r hr hid' hrev
    obtain ⟨a, ha, hid, hnone'⟩ := hlive a' ha' hnone
    obtain ⟨b, hb, hid'', hpointer⟩ := hs.archive ha'
    have hab : a = b := List.inj_on_of_nodup_map (Table.nodup _) ha hb (hid.trans hid''.symm)
    subst hab
    rw [hs.references] at hr
    rw [hdeleted]
    exact h.unreferenced a ha hnone' r hr (hid'.trans hid.symm) (hrev.trans hpointer)

/-- A reference belongs to an archive that is there. -/
theorem Shelf.archive_of_cited {db : MemoirDb} (h : Shelf db) {r : MemorySourceReference}
    (hr : r ∈ db.references) : (db.archives.find? r.archiveId).isSome := by
  obtain ⟨_, d, hd, _⟩ := h.cited r hr
  have hid : d.archiveId = r.archiveId := congrArg Prod.fst (Table.key_of_find? hd)
  rw [← hid]
  exact h.owned d (Table.mem_of_find? hd)

theorem BaselinesThere.addArchive {db db' : MemoirDb} (h : BaselinesThere db) {a : MemoryArchive}
    {d : MemoryPlaybackDocument} (hshelf : d.key = (a.archiveId, 0))
    (harchives : db.archives.insert? a = some db'.archives)
    (hdocuments : db.documents.insert? d = some db'.documents) : BaselinesThere db' := by
  intro b hb hnone
  rw [(Table.insert?_eq_some.mp harchives).2, List.mem_append, List.mem_singleton] at hb
  rcases hb with hb | rfl
  · exact isSome_insert? hdocuments (h b hb hnone)
  · rw [← hshelf, Table.find?_insert? hdocuments, if_pos rfl]
    rfl

theorem Unreferenced.addArchive {db db' : MemoirDb} {sources : List Source}
    (h : Unreferenced db sources) (hshelf : Shelf db) {a : MemoryArchive}
    (harchives : db.archives.insert? a = some db'.archives)
    (hrefs : db'.references = db.references) : Unreferenced db' sources := by
  obtain ⟨hfree, hrows⟩ := Table.insert?_eq_some.mp harchives
  intro b hb hnone r hr hid hrev
  rw [hrefs] at hr
  rw [hrows, List.mem_append, List.mem_singleton] at hb
  rcases hb with hb | rfl
  · exact h b hb hnone r hr hid hrev
  · have hsome := hshelf.archive_of_cited hr
    rw [hid, hfree] at hsome
    cases hsome

namespace MemoryArchiveService

theorem createArchive_sources {db db' : MemoirDb} {sources : List Source}
    {frozen : FrozenMemoryInput} {digest : String} {owner partner : Int} {ids : ArchiveIds}
    (hshelf : Shelf db) (hthere : BaselinesThere db) (hun : Unreferenced db sources)
    (h : createArchive db frozen digest owner partner ids = .ok db') :
    BaselinesThere db' ∧ Unreferenced db' sources := by
  obtain ⟨a, d, snapshots, db₀, hplace, _, _, _, harchives, hdocuments, hdb₀, hscenery⟩ :=
    createArchive_ok h
  have hrefs : db₀.references = db.references := by rw [hdb₀]
  have hthere₀ := hthere.addArchive hplace harchives hdocuments
  have hun₀ := hun.addArchive hshelf harchives hrefs
  unfold SceneryOnly at hscenery
  rw [hscenery]
  exact ⟨hthere₀, hun₀⟩

theorem writePublication_sources {db db' : MemoirDb} {sources : List Source} {now : Time}
    {p : Publication} {documentId : String} (hcat : Catalogue db) (hthere : BaselinesThere db)
    (hun : Unreferenced db sources)
    (harchive : db.archives.find? p.archive.archiveId = some p.archive)
    (hclear : ∀ source ∈ p.sources, source ∉ sources)
    (h : writePublication db now p documentId = .ok db') :
    BaselinesThere db' ∧ Unreferenced db' sources := by
  obtain ⟨previous, hprevious, _⟩ := hcat.shown p.archive (Table.mem_of_find? harchive)
  obtain ⟨_, hdocuments, hrefs, harchives, _⟩ := writePublication_ok hprevious h
  have hkey : previous.key = (p.archive.archiveId, p.archive.publishedRevision) :=
    Table.key_of_find? hprevious
  have hself : db.documents.find? previous.key = some previous := by rw [hkey, hprevious]
  have hplaces : SamePlaces db.documents (db.documents.put (previous.supersede now)) :=
    .put hself rfl rfl
  have harch : ∀ a ∈ db'.archives.rows, ∃ b ∈ db.archives.rows, b.archiveId = a.archiveId ∧
      b.deletedAt = a.deletedAt ∧ (a = p.advanced ∨ a = b ∧ a.archiveId ≠ p.archive.archiveId) := by
    intro a ha
    rw [harchives] at ha
    rcases Table.mem_put.mp ha with ⟨rfl, _⟩ | ⟨ha, hne⟩
    · exact ⟨p.archive, Table.mem_of_find? harchive, rfl, rfl, Or.inl rfl⟩
    · exact ⟨a, ha, rfl, rfl, Or.inr ⟨rfl, hne⟩⟩
  constructor
  · intro a ha hnone
    obtain ⟨b, hb, hid, hdel, _⟩ := harch a ha
    obtain ⟨d, hd⟩ := Option.isSome_iff_exists.mp (hthere b hb (hdel.trans hnone))
    obtain ⟨d', hd', _⟩ := hplaces.find? hd
    rw [← hid]
    refine isSome_insert? hdocuments ?_
    rw [hd']
    rfl
  · intro a ha hnone r hr hid hrev
    obtain ⟨b, hb, hba, hdel, hwhich⟩ := harch a ha
    rw [hrefs] at hr
    rcases List.mem_append.mp hr with hr | hr
    · rcases hwhich with rfl | ⟨rfl, _⟩
      · -- The number of the new document was free, so no reference was to it.
        obtain ⟨_, d, hd, _⟩ := hcat.cited r hr
        obtain ⟨d', hd', _⟩ := hplaces.find? hd
        have hnew : (r.archiveId, r.revision) = (p.document documentId).key := Prod.ext hid hrev
        rw [hnew, (Table.insert?_eq_some.mp hdocuments).1] at hd'
        cases hd'
      · exact hun a hb hnone r hr hid hrev
    · obtain ⟨source, hsource, rfl⟩ := List.mem_map.mp hr
      exact hclear source hsource

end MemoryArchiveService

/-- A collection leaves the baselines that are not due. -/
theorem BaselinesThere.drop {db db' : MemoirDb} {now : Time} (hshelf : Shelf db)
    (hsafe : BaselinesSafe db now) (h : BaselinesThere db') (hplaces : SamePlaces db.documents db'.documents)
    (hlive : ∀ a' ∈ db'.archives.rows, a'.deletedAt = none → ∃ a ∈ db.archives.rows,
      a.archiveId = a'.archiveId ∧ a.deletedAt = none) :
    BaselinesThere (dropDocuments db' (expiredDocuments db now)) := by
  intro a' ha' hnone
  obtain ⟨d', hd'⟩ := Option.isSome_iff_exists.mp (h a' ha' hnone)
  obtain ⟨a, ha, hid, hnone'⟩ := hlive a' ha' hnone
  obtain ⟨d, hd, hkey, hdid⟩ := hplaces.back d' (Table.mem_of_find? hd')
  show ((db'.documents.filter _).find? _).isSome
  rw [Table.find?_filter, hd', Option.filter_some_pos]
  · rfl
  refine decide_eq_true fun hin => ?_
  refine hsafe a ha hnone' d ?_ (hshelf.expired_of_mem hd (by rw [hdid]; exact hin))
  rw [hid, ← Table.key_of_find? hd', ← hkey]
  exact Table.find?_of_mem hd

theorem Unreferenced.drop {db : MemoirDb} {sources : List Source} (h : Unreferenced db sources)
    (ids : List String) : Unreferenced (dropDocuments db ids) sources :=
  fun a ha hnone r hr => h a ha hnone r (List.mem_filter.mp hr).1

/-! ## Deleting a source -/

/-- Archives are as they were or back at their baselines, and no references
are new. -/
structure TakenBack (db db' : MemoirDb) : Prop where
  references : ∀ r ∈ db'.references, r ∈ db.references
  places : SamePlaces db.documents db'.documents
  archives : ∀ a' ∈ db'.archives.rows, a' ∈ db.archives.rows ∨
    (a'.publishedRevision = 0 ∧
      ∃ a ∈ db.archives.rows, a.archiveId = a'.archiveId ∧ a.deletedAt = none)

theorem TakenBack.refl (db : MemoirDb) : TakenBack db db :=
  ⟨fun _ hr => hr, .refl _, fun _ ha => Or.inl ha⟩

theorem TakenBack.live {db db' : MemoirDb} (h : TakenBack db db') {a' : MemoryArchive}
    (ha' : a' ∈ db'.archives.rows) (hnone : a'.deletedAt = none) :
    ∃ a ∈ db.archives.rows, a.archiveId = a'.archiveId ∧ a.deletedAt = none := by
  rcases h.archives a' ha' with ha | ⟨_, ha⟩
  · exact ⟨a', ha, rfl, hnone⟩
  · exact ha

theorem Withdrawn.takenBack {db db' : MemoirDb} {now : Time} {found : String × Nat}
    {archive : MemoryArchive} {baseline current : MemoryPlaybackDocument}
    (h : Withdrawal db found archive baseline current) (hpos : 0 < found.2)
    (w : Withdrawn db db' now archive baseline current) : TakenBack db db' := by
  obtain ⟨hfind, hnone⟩ := liveArchive_ok h.live
  refine ⟨fun r hr => ?_, w.samePlaces h hpos, fun a' ha' => ?_⟩
  · rw [w.references] at hr
    exact (List.mem_filter.mp hr).1
  · rw [w.archives] at ha'
    rcases Table.mem_put.mp ha' with ⟨rfl, _⟩ | ⟨ha', _⟩
    · exact Or.inr ⟨rfl, archive, Table.mem_of_find? hfind, rfl, hnone⟩
    · exact Or.inl ha'

theorem TakenBack.trans {a b c : MemoirDb} (h : TakenBack a b) (h' : TakenBack b c) :
    TakenBack a c := by
  refine ⟨fun r hr => h.references r (h'.references r hr), h.places.trans h'.places, ?_⟩
  intro x hx
  rcases h'.archives x hx with hx | ⟨hzero, y, hy, hid, hnone⟩
  · exact h.archives x hx
  · obtain ⟨z, hz, hid', hnone'⟩ := h.live hy hnone
    exact Or.inr ⟨hzero, z, hz, hid'.trans hid, hnone'⟩

/-- A baseline keeps its place. -/
theorem BaselinesThere.takenBack {db db' : MemoirDb} (h : BaselinesThere db)
    (ht : TakenBack db db') : BaselinesThere db' := by
  intro a' ha' hnone
  obtain ⟨a, ha, hid, hnone'⟩ := ht.live ha' hnone
  obtain ⟨d, hd⟩ := Option.isSome_iff_exists.mp (h a ha hnone')
  obtain ⟨d', hd', _⟩ := ht.places.find? hd
  rw [← hid, hd']
  rfl

/-- No archive that is not deleted publishes the revision `found`. -/
def Cleared (db : MemoirDb) (found : String × Nat) : Prop :=
  ∀ a ∈ db.archives.rows, a.deletedAt = none → (a.archiveId, a.publishedRevision) ≠ found

theorem Cleared.takenBack {db db' : MemoirDb} {found : String × Nat} (h : Cleared db found)
    (hpos : 0 < found.2) (ht : TakenBack db db') : Cleared db' found := by
  intro a' ha' hnone he
  rcases ht.archives a' ha' with ha | ⟨hzero, _⟩
  · exact h a' ha hnone he
  · rw [← he] at hpos
    exact absurd hzero (Nat.ne_of_gt hpos)

namespace MemoryDeletionCompensationService

/-- With its documents in place, a match is cleared. -/
theorem invalidateMatch_clears {db : MemoirDb} (now : Time) {found : String × Nat}
    (hcat : Catalogue db) (hthere : BaselinesThere db) (hpos : 0 < found.2) :
    TakenBack db (invalidateMatch db now found).1 ∧ Catalogue (invalidateMatch db now found).1 ∧
      Cleared (invalidateMatch db now found).1 found := by
  rcases invalidateMatch_cases hcat.toShelf now hpos with
    ⟨⟨archive, baseline, current, h, w⟩, _⟩ | ⟨hnot, hsame⟩
  · refine ⟨w.takenBack h hpos, w.catalogue hcat h hpos, fun a' ha' _ he => ?_⟩
    obtain ⟨harchive, _, _⟩ := h.keys
    rw [w.archives] at ha'
    rcases Table.mem_put.mp ha' with ⟨rfl, _⟩ | ⟨_, hne⟩
    · rw [← he] at hpos
      exact absurd hpos (Nat.lt_irrefl 0)
    · exact hne ((congrArg Prod.fst he).trans harchive.symm)
  · rw [hsame]
    refine ⟨.refl db, hcat, fun a ha hnone he => ?_⟩
    -- The match would have been carried out.
    obtain ⟨baseline, hbaseline⟩ := Option.isSome_iff_exists.mp (hthere a ha hnone)
    obtain ⟨current, hcurrent, _⟩ := hcat.shown a ha
    refine hnot a baseline current ⟨?_, congrArg Prod.snd he, ?_, he ▸ hcurrent⟩
    · rw [← he, MemoirDb.liveArchive?, Table.find?_of_mem ha]
      exact Option.filter_some_pos (by simp [hnone])
    · rw [← he]
      exact hbaseline

/-- And so are all of them. -/
theorem invalidateMatches_clears (now : Time) :
    ∀ (matched : List (String × Nat)) {db : MemoirDb}, Catalogue db → BaselinesThere db →
      (∀ m ∈ matched, 0 < m.2) →
      TakenBack db (invalidateMatches now db matched).1 ∧
        ∀ m ∈ matched, Cleared (invalidateMatches now db matched).1 m
  | [], db, _, _, _ => ⟨.refl db, fun _ hm => nomatch hm⟩
  | m :: matched, db, hcat, hthere, hpos => by
    obtain ⟨hback, hcat', hclear⟩ :=
      invalidateMatch_clears now hcat hthere (hpos m List.mem_cons_self)
    obtain ⟨hback', hclear'⟩ := invalidateMatches_clears now matched hcat'
      (hthere.takenBack hback) fun m' hm' => hpos m' (List.mem_cons_of_mem _ hm')
    unfold invalidateMatches
    refine ⟨hback.trans hback', fun m' hm' => ?_⟩
    rcases List.mem_cons.mp hm' with rfl | hm'
    · exact hclear.takenBack (hpos m' List.mem_cons_self) hback'
    · exact hclear' m' hm'

end MemoryDeletionCompensationService

theorem invalidateDeletedSource_sources {db db' : MemoirDb} {sources : List Source} {now : Time}
    {source : Source} (hcat : Catalogue db) (hthere : BaselinesThere db)
    (hun : Unreferenced db sources) (hsafe : Published db source → BaselinesSafe db now)
    (h : MemoryDeletionCompensationService.invalidateDeletedSource db now source = .ok db') :
    BaselinesThere db' ∧ Unreferenced db' (sources ++ [source]) := by
  obtain ⟨matched, hfound, h⟩ := bind_ok.mp h
  have hmatched := findPublished_ok hfound
  have hpos : ∀ m ∈ matched, 0 < m.2 := by
    intro m hm
    obtain ⟨r, hr, _, rfl, _⟩ := (hmatched m).mp hm
    exact (hcat.cited r hr).1
  obtain ⟨hback, hclear⟩ :=
    MemoryDeletionCompensationService.invalidateMatches_clears now matched hcat hthere hpos
  have hthere' := hthere.takenBack hback
  have hun' : Unreferenced (MemoryDeletionCompensationService.invalidateMatches now db matched).1
      (sources ++ [source]) := by
    intro a' ha' hnone r hr hid hrev
    have hr' := hback.references r hr
    rcases hback.archives a' ha' with ha | ⟨hzero, _⟩
    · intro hmem
      rcases List.mem_append.mp hmem with hmem | hmem
      · exact hun a' ha hnone r hr' hid hrev hmem
      · -- The reference was a match, and the archive is as it was.
        have hlive : db.liveArchive? r.archiveId = some a' := by
          rw [MemoirDb.liveArchive?, hid, Table.find?_of_mem ha]
          exact Option.filter_some_pos (by simp [hnone])
        have hm : (r.archiveId, r.revision) ∈ matched :=
          (hmatched _).mpr ⟨r, hr', List.mem_singleton.mp hmem, rfl, a', hlive, hrev.symm⟩
        exact hclear _ hm a' ha' hnone (Prod.ext hid.symm hrev.symm)
    · have := (hcat.cited r hr').1
      rw [hrev, hzero] at this
      exact absurd this (Nat.lt_irrefl 0)
  cases h
  split
  · next hcarried =>
    have hpub : Published db source := by
      cases matched with
      | nil => cases hcarried
      | cons m matched =>
        obtain ⟨r, hr, hsource, _, hlive⟩ := (hmatched m).mp List.mem_cons_self
        exact ⟨r, hr, hsource, hlive⟩
    exact ⟨BaselinesThere.drop hcat.toShelf (hsafe hpub) hthere' hback.places fun a' ha' hnone =>
      hback.live ha' hnone, hun'.drop _⟩
  · exact ⟨hthere', hun'⟩

/-! ## Runs -/

/-- A deletion of a published source that finds no baseline due finds those
it puts back not due. -/
theorem BaselinesSafe.kept {db : MemoirDb} {now : Time} {source : Source}
    (h : Published db source → BaselinesSafe db now) : BaselinesKept db now source := by
  rintro r hr hsource ⟨a, ha, hrev⟩ d hd
  obtain ⟨hfind, hnone⟩ := liveArchive_ok ha
  have hid : a.archiveId = r.archiveId := Table.key_of_find? hfind
  exact h ⟨r, hr, hsource, a, ha, hrev⟩ a (Table.mem_of_find? hfind) hnone d (hid ▸ hd)

theorem LaunchOnly.live {db db' : MemoirDb} (h : LaunchOnly db db') {a' : MemoryArchive}
    (ha' : a' ∈ db'.archives.rows) (hnone : a'.deletedAt = none) :
    ∃ a ∈ db.archives.rows, a.archiveId = a'.archiveId ∧ a.deletedAt = none := by
  have hst := h.archives a'.archiveId
  rw [Table.find?_of_mem ha'] at hst
  cases hfind : db.archives.find? a'.archiveId with
  | none => rw [hfind] at hst; cases hst
  | some a =>
    rw [hfind] at hst
    have hdel : a'.deletedAt = a.deletedAt := congrArg (·.2.2) (Option.some.inj hst)
    exact ⟨a, Table.mem_of_find? hfind, Table.key_of_find? hfind, hdel ▸ hnone⟩

theorem requestArchivePrivacyPurge_live {db db' : MemoirDb} {now : Time} {archiveId : String}
    (h : MemoryDeletionCompensationService.requestArchivePrivacyPurge db now archiveId = .ok db')
    {a' : MemoryArchive} (ha' : a' ∈ db'.archives.rows) (hnone : a'.deletedAt = none) :
    ∃ a ∈ db.archives.rows, a.archiveId = a'.archiveId ∧ a.deletedAt = none := by
  unfold MemoryDeletionCompensationService.requestArchivePrivacyPurge at h
  cases hfind : db.archives.find? archiveId with
  | none => rw [hfind] at h; cases h
  | some archive =>
    rw [hfind] at h
    dsimp only at h
    split at h
    · cases h
      exact ⟨a', ha', rfl, hnone⟩
    · cases h
      have hmoves : LaunchOnly { db with archives := db.archives.put (archive.delete now) }
          (MemoryDeletionCompensationService.requestPurges now archiveId
            { db with archives := db.archives.put (archive.delete now) }
            (db.runRefs.rows.filter (fun ref => decide (ref.archiveId = archiveId)))) :=
        requestPurges_moves _ (fun ref href => Table.find?_of_mem (List.mem_filter.mp href).1)
          ((db.runRefs.nodup).sublist (List.filter_sublist.map _))
      obtain ⟨a, ha, hid, hnone'⟩ := hmoves.live ha' hnone
      rcases Table.mem_put.mp ha with ⟨rfl, _⟩ | ⟨ha, _⟩
      · cases hnone'
      · exact ⟨a, ha, hid, hnone'⟩

theorem Backend.step_sourcesGone {text : PyText} {s : Backend} {e : Time × BackendOp}
    (hcat : Catalogue s.db) (h : SourcesGone s) (hclear : SourcesClear text s e) :
    SourcesGone (s.step text e) := by
  rcases s.step_cases text e with ⟨db', hdone, hdb, hdeleted⟩ | ⟨_, _, hdb, hdeleted⟩
  · obtain ⟨elapsed, op⟩ := e
    subst hdb
    have hlaunch : op.Launching → SourcesGone (s.step text (elapsed, op)) := fun hl => by
      have hmoves := (hl.launches text s.db _).done _ hdone
      refine h.congr hmoves.sameShelf (fun a' ha' hnone => hmoves.live ha' hnone) ?_
      rw [hdeleted]
      cases op <;> first | exact hl.elim | exact List.append_nil _
    cases op with
    | createArchives frozen ids =>
      have hsources : (s.step text (elapsed, .createArchives frozen ids)).deletedSources
          = s.deletedSources := hdeleted.trans (List.append_nil _)
      rcases MemoryArchiveService.createArchivesForRelationship_ok hdone with
        hsame | ⟨digest, db₁, hone, htwo⟩
      · exact ⟨by rw [hsame]; exact h.baselines, by rw [hsame, hsources]; exact h.unreferenced⟩
      · obtain ⟨hthere₁, hun₁⟩ := MemoryArchiveService.createArchive_sources hcat.toShelf
          h.baselines h.unreferenced hone
        obtain ⟨hthere₂, hun₂⟩ := MemoryArchiveService.createArchive_sources
          (MemoryArchiveService.createArchive_catalogue hcat hone).toShelf hthere₁ hun₁ htwo
        exact ⟨hthere₂, by rw [hsources]; exact hun₂⟩
    | publish archiveId epoch runId snapshotId document documentId =>
      obtain ⟨p, hcheck, hwrite⟩ := bind_ok.mp hdone
      obtain ⟨hfind, _, _⟩ := MemoryArchiveService.checkPublication_ok hcheck
      have harchive : s.db.archives.find? p.archive.archiveId = some p.archive := by
        rw [show p.archive.archiveId = archiveId from Table.key_of_find? hfind, hfind]
      obtain ⟨hthere, hun⟩ := MemoryArchiveService.writePublication_sources hcat h.baselines
        h.unreferenced harchive (hclear p hcheck) hwrite
      exact ⟨hthere, by rw [hdeleted]; simpa [BackendOp.deletes] using hun⟩
    | purgeExpired =>
      have hdone : MemoryRevisionGcService.purgeExpired s.db (s.now + elapsed)
          = (s.step text (elapsed, .purgeExpired)).db := Except.ok.inj hdone
      constructor
      · rw [← hdone]
        exact BaselinesThere.drop hcat.toShelf hclear h.baselines (.refl _)
          fun a' ha' hnone => ⟨a', ha', rfl, hnone⟩
      · rw [← hdone, hdeleted]
        show Unreferenced (dropDocuments s.db _) (s.deletedSources ++ [])
        rw [List.append_nil]
        exact h.unreferenced.drop _
    | invalidateDeletedSource source =>
      obtain ⟨hthere, hun⟩ :=
        invalidateDeletedSource_sources hcat h.baselines h.unreferenced hclear hdone
      exact ⟨hthere, by rw [hdeleted]; exact hun⟩
    | requestArchivePrivacyPurge archiveId =>
      exact h.congr (requestArchivePrivacyPurge_sameShelf hdone)
        (fun a' ha' hnone => requestArchivePrivacyPurge_live hdone ha' hnone)
        (hdeleted.trans (List.append_nil _))
    | _ => exact hlaunch trivial
  · exact ⟨by rw [hdb]; exact h.baselines, by rw [hdb, hdeleted]; exact h.unreferenced⟩

/-- Along a run whose steps are clear, deleted sources are gone from what is
published, and the baselines stay. -/
theorem sources_gone (text : PyText) (es : List (Time × BackendOp))
    (hclear : Along (Backend.step text) (SourcesClear text) {} es) :
    Along (Backend.step text) (fun s e => SourcesGone (s.step text e)) {} es := by
  have hstep : ∀ (s : Backend) (e : Time × BackendOp), Catalogue s.db ∧ SourcesGone s →
      SourcesClear text s e → Catalogue (s.step text e).db ∧ SourcesGone (s.step text e) := by
    rintro s e ⟨hcat, hgone⟩ hclear
    refine ⟨Backend.step_catalogue hcat fun source he => ?_, Backend.step_sourcesGone hcat hgone hclear⟩
    unfold SourcesClear at hclear
    rw [he] at hclear
    exact BaselinesSafe.kept hclear
  exact along_of_along (I := fun s => Catalogue s.db ∧ SourcesGone s) hstep
    (fun s e h hc => (hstep s e h hc).2) es {}
    ⟨.empty, ⟨fun _ h => (nomatch h), fun _ h => (nomatch h)⟩⟩ hclear

/-! ## The two ways it fails -/

namespace SourceExample

open RevisionExample

/-- The diary is published and deleted a week later, before any collection. -/
def deleted : List (Time × BackendOp) :=
  [(0, create), (1, publish 0 "first" [.str "diary:7"]),
    (1, .invalidateDeletedSource ⟨"diary", "7"⟩), (seconds (7 * 86400), .purgeExpired)]

/-- The collection comes first, and takes the baseline. -/
def baselineCollected : List (Time × BackendOp) :=
  [(0, create), (1, publish 0 "first" [.str "diary:7"]), (seconds (7 * 86400), .purgeExpired),
    (1, .invalidateDeletedSource ⟨"diary", "7"⟩)]

/-- The diary is deleted while a run generates from a snapshot that holds it. -/
def inFlight : List (Time × BackendOp) :=
  [(0, create), (1, .invalidateDeletedSource ⟨"diary", "7"⟩),
    (1, publish 0 "first" [.str "diary:7"])]

end SourceExample

open RevisionExample SourceExample in
theorem sources_gone_deleted :
    Along (Backend.step plainText) (fun s e => SourcesGone (s.step plainText e)) {} deleted :=
  sources_gone plainText deleted (by decide +kernel)

open RevisionExample SourceExample in
/-- The deletion finds no baseline, and the revision stays published. -/
theorem collected_baseline_keeps_source :
    ¬ Along (Backend.step plainText) (fun s e => SourcesGone (s.step plainText e)) {}
        baselineCollected ∧
      ¬ Unreferenced (run (Backend.step plainText) {} baselineCollected).db [⟨"diary", "7"⟩] := by
  decide +kernel

open RevisionExample SourceExample in
/-- A publication after the deletion brings the source back. -/
example : ¬ Unreferenced (run (Backend.step plainText) {} inFlight).db [⟨"diary", "7"⟩] := by
  decide +kernel

end AgentRuntime
