import AgentRuntime.DeletedSources

/-!
# Starting a superseded run

A deletion moves the archive on to another generation, and a run of the one
before must not be started any more. The binding checks the generation, but
`_deliver_start` calls `start_held` before it binds, so a start that is still
to be delivered when the deletion comes is called for all the same
(`purged_archive_started`). `starts_current` shows that this is the only way:
where every deletion finds no start pending and no run still waiting for its
start, the archive is not deleted and in the generation of the run at every
call.

The invariant is `IntentsCurrent`: a start is asked for only in the generation
the archive is in. It is `LaunchOnly` that keeps it over the launching
operations; of the others only the two deletions move a generation.
-/

namespace AgentRuntime

open Keyed Runs

/-- At the moment of the call the archive is not deleted, and in the
generation the run was created for. -/
def StartCall.Current (c : StartCall) : Prop :=
  ∃ a ∈ c.archive, a.deletedAt = none ∧ a.generationEpoch = c.generationEpoch

instance (c : StartCall) : Decidable c.Current := by
  unfold StartCall.Current; infer_instance

/-- At most one start event for an archive and a generation. -/
def MemoirDb.OneStartEach (db : MemoirDb) : Prop :=
  ∀ e ∈ db.launchEvents.rows, ∀ e' ∈ db.launchEvents.rows, e.phase = .startHeld →
    e'.phase = .startHeld → e.archiveId = e'.archiveId →
    e.generationEpoch = e'.generationEpoch → e = e'

/-- What is claimed of a state: no superseded run has been started, and there
is one run and one start event at most for an archive and a generation. -/
structure NoStaleStart (s : Backend) : Prop where
  starts : ∀ c ∈ s.starts, c.Current
  runs : s.db.OneRunEach
  events : s.db.OneStartEach

/-- What the steps of a run have to meet: a deletion finds no start that is
still to be delivered in the archives it moves on. -/
def StartsSettled (s : Backend) (e : Time × BackendOp) : Prop :=
  match e.2 with
  | .invalidateDeletedSource source =>
    ∀ r ∈ s.db.references, r.source = source → ∀ a ∈ s.db.liveArchive? r.archiveId,
      a.publishedRevision = r.revision → ¬ s.db.Intent r.archiveId a.generationEpoch
  | .requestArchivePrivacyPurge archiveId =>
    ∀ a ∈ s.db.liveArchive? archiveId, ¬ s.db.Intent archiveId a.generationEpoch
  | _ => True

/-- The same with rows, which can be computed. -/
theorem intent_iff (db : MemoirDb) (archiveId : String) (epoch : Nat) :
    db.Intent archiveId epoch ↔
      ∃ e ∈ db.launchEvents.find? (archiveId, epoch, .startHeld), e.delivered = false ∨
        ∃ ref ∈ db.runRefs.rows, e.runId = some ref.runId ∧ ref.status = "pending_start" ∧
          ref.archiveId = archiveId ∧ ref.generationEpoch = epoch := by
  refine exists_congr fun e => and_congr_right fun _ => or_congr_right (exists_congr fun ref => ?_)
  constructor
  · rintro ⟨hrun, hfind, hrest⟩
    exact ⟨Table.mem_of_find? hfind, hrun, hrest⟩
  · rintro ⟨hmem, hrun, hrest⟩
    exact ⟨hrun, Table.find?_of_mem hmem, hrest⟩

instance (db : MemoirDb) (archiveId : String) (epoch : Nat) : Decidable (db.Intent archiveId epoch) :=
  decidable_of_iff _ (intent_iff db archiveId epoch).symm

instance (s : Backend) (e : Time × BackendOp) : Decidable (StartsSettled s e) :=
  match e with
  | (_, .invalidateDeletedSource _) => by dsimp only [StartsSettled]; infer_instance
  | (_, .requestArchivePrivacyPurge _) => by dsimp only [StartsSettled]; infer_instance
  | (_, .createArchives ..) | (_, .publish ..) | (_, .purgeExpired) | (_, .enqueue ..)
  | (_, .deliver ..) | (_, .deliverPending ..) | (_, .reconcilePendingStart ..)
  | (_, .reconcileOrphanedCreate ..) | (_, .callback ..) => .isTrue trivial

instance (db : MemoirDb) : Decidable db.OneRunEach := by
  unfold MemoirDb.OneRunEach; infer_instance

instance (db : MemoirDb) : Decidable db.OneStartEach := by
  unfold MemoirDb.OneStartEach; infer_instance

instance (s : Backend) : Decidable (NoStaleStart s) :=
  decidable_of_iff ((∀ c ∈ s.starts, c.Current) ∧ s.db.OneRunEach ∧ s.db.OneStartEach)
    ⟨fun h => ⟨h.1, h.2.1, h.2.2⟩, fun h => ⟨h.1, h.2, h.3⟩⟩

/-! ## The invariant -/

/-- A start is asked for only in the generation the archive is in. -/
def IntentsCurrent (db : MemoirDb) : Prop :=
  ∀ archiveId epoch, db.Intent archiveId epoch → db.Current archiveId epoch

/-- The key of the events leaves one start for an archive and a generation. -/
theorem oneStartEach (db : MemoirDb) : db.OneStartEach := by
  intro e he e' he' hphase hphase' ha hg
  refine List.inj_on_of_nodup_map (Table.nodup _) he he' ?_
  rw [MemoryRuntimeLaunchEvent.key, MemoryRuntimeLaunchEvent.key, ha, hg, hphase, hphase']

theorem LaunchOnly.intentsCurrent {db db' : MemoirDb} (h : LaunchOnly db db')
    (hi : IntentsCurrent db) : IntentsCurrent db' := by
  intro archiveId epoch hintent
  refine (current_congr (h.archives archiveId)).mpr ?_
  exact (h.intents archiveId epoch hintent).elim (hi archiveId epoch) id

theorem CallsFrom.current {db : MemoirDb} {calls : List StartCall} (h : CallsFrom db calls)
    (hi : IntentsCurrent db) : ∀ c ∈ calls, c.Current := by
  intro c hc
  obtain ⟨hwhy, harchive⟩ := h c hc
  obtain ⟨a, hfind, hnone, hepoch⟩ := hwhy.elim (hi _ _) id
  rw [hfind] at harchive
  cases hca : c.archive with
  | none => rw [hca] at harchive; cases harchive
  | some b =>
    rw [hca] at harchive
    have hst : b.standing = a.standing := Option.some.inj harchive
    have hdel : b.deletedAt = a.deletedAt := congrArg (·.2.2) hst
    have hgen : b.generationEpoch = a.generationEpoch := congrArg (·.2.1) hst
    exact ⟨b, hca, hdel.trans hnone, hgen.trans hepoch⟩

/-- Runs and events are the same, and so are the archives that a start is
asked for in. -/
theorem IntentsCurrent.congr {db db' : MemoirDb} (hi : IntentsCurrent db)
    (hrefs : db'.runRefs = db.runRefs) (hevents : db'.launchEvents = db.launchEvents)
    (harchives : ∀ archiveId epoch, db.Intent archiveId epoch → db.Current archiveId epoch →
      db'.Current archiveId epoch) : IntentsCurrent db' := by
  intro archiveId epoch hintent
  have hold : db.Intent archiveId epoch := by
    unfold MemoirDb.Intent at hintent ⊢
    rw [hrefs, hevents] at hintent
    exact hintent
  exact harchives archiveId epoch hold (hi archiveId epoch hold)

/-! ## The other operations -/

namespace MemoryArchiveService

theorem createArchive_current {db db' : MemoirDb} {frozen : FrozenMemoryInput} {digest : String}
    {owner partner : Int} {ids : ArchiveIds}
    (h : createArchive db frozen digest owner partner ids = .ok db') :
    db'.runRefs = db.runRefs ∧ db'.launchEvents = db.launchEvents ∧
      ∀ archiveId epoch, db.Current archiveId epoch → db'.Current archiveId epoch := by
  obtain ⟨a, d, snapshots, db₀, _, _, _, _, harchives, _, hdb₀, hscenery⟩ := createArchive_ok h
  unfold SceneryOnly at hscenery
  rw [hscenery]
  refine ⟨by rw [hdb₀], by rw [hdb₀], ?_⟩
  rintro archiveId epoch ⟨b, hb, hrest⟩
  refine ⟨b, ?_, hrest⟩
  show db₀.archives.find? archiveId = some b
  rw [Table.find?_insert? harchives, if_neg, hb]
  intro hk
  rw [hk, (Table.insert?_eq_some.mp harchives).1] at hb
  cases hb

theorem supersedePrevious_apart (db : MemoirDb) (now : Time) (archive : MemoryArchive) :
    (supersedePrevious db now archive).runRefs = db.runRefs ∧
      (supersedePrevious db now archive).launchEvents = db.launchEvents ∧
      (supersedePrevious db now archive).archives = db.archives := by
  unfold supersedePrevious
  split
  · exact ⟨rfl, rfl, rfl⟩
  · exact ⟨rfl, rfl, rfl⟩

theorem writePublication_current {db db' : MemoirDb} {now : Time} {p : Publication}
    {documentId : String}
    (harchive : db.archives.find? p.archive.archiveId = some p.archive)
    (h : writePublication db now p documentId = .ok db') :
    db'.runRefs = db.runRefs ∧ db'.launchEvents = db.launchEvents ∧
      ∀ archiveId epoch, db.Current archiveId epoch → db'.Current archiveId epoch := by
  obtain ⟨db₁, hdocument, hrest⟩ := bind_ok.mp h
  obtain ⟨db₂, hscenes, hrest⟩ := bind_ok.mp hrest
  obtain ⟨db₃, hactions, hdone⟩ := bind_ok.mp hrest
  obtain ⟨_, documents, _, rfl⟩ := insertDocument_ok hdocument
  obtain ⟨hrefs, hevents, harchives⟩ := supersedePrevious_apart db now p.archive
  have hscenery := (insertScenes_scenery hscenes).trans (insertActions_scenery hactions)
  unfold SceneryOnly at hscenery
  have hfinal : db'.runRefs = db.runRefs ∧ db'.launchEvents = db.launchEvents ∧
      db'.archives = db.archives.put p.advanced := by
    cases hdone
    rw [hscenery, ← hrefs, ← hevents, ← harchives]
    exact ⟨rfl, rfl, rfl⟩
  refine ⟨hfinal.1, hfinal.2.1, ?_⟩
  rintro archiveId epoch ⟨b, hb, hnone, hepoch⟩
  unfold MemoirDb.Current
  rw [hfinal.2.2, Table.find?_put]
  by_cases hk : archiveId = p.advanced.archiveId
  · rw [hk] at hb ⊢
    have hsame : p.archive = b := Option.some.inj (harchive.symm.trans hb)
    rw [if_pos rfl, hb]
    exact ⟨p.advanced, rfl, by rw [← hsame] at hnone; exact hnone,
      by rw [← hsame] at hepoch; exact hepoch⟩
  · rw [if_neg hk]
    exact ⟨b, hb, hnone, hepoch⟩

end MemoryArchiveService

namespace MemoryDeletionCompensationService

/-- A match moves on its own archive and no other, and no run. -/
theorem invalidateMatch_apart (db : MemoirDb) (now : Time) (found : String × Nat) :
    (invalidateMatch db now found).1.runRefs = db.runRefs ∧
      (invalidateMatch db now found).1.launchEvents = db.launchEvents ∧
      ∀ id, id ≠ found.1 →
        (invalidateMatch db now found).1.archives.find? id = db.archives.find? id := by
  unfold invalidateMatch
  split
  · exact ⟨rfl, rfl, fun _ _ => rfl⟩
  · next archive hlive =>
    have hname : archive.archiveId = found.1 := Table.key_of_find? (liveArchive_ok hlive).1
    split
    · exact ⟨rfl, rfl, fun _ _ => rfl⟩
    · split
      · next baseline current _ _ =>
        have hput : ∀ id, id ≠ found.1 →
            (db.archives.put archive.invalidate).find? id = db.archives.find? id := fun id hne =>
          Table.find?_put_ne fun hk => hne (hk.trans hname)
        dsimp only
        obtain ⟨compensations, hcancel⟩ := cancelPrior_eq
          { withdrawRevision { db with archives := db.archives.put archive.invalidate } now
              baseline current with
            snapshots := (withdrawRevision
              { db with archives := db.archives.put archive.invalidate } now baseline
              current).snapshots.filter (fun s => decide (s.archiveId ≠ found.1)) } archive
        rw [hcancel]
        unfold withdrawRevision
        dsimp only
        split
        · exact ⟨rfl, rfl, hput⟩
        · exact ⟨rfl, rfl, hput⟩
      · exact ⟨rfl, rfl, fun _ _ => rfl⟩

theorem invalidateMatches_apart (now : Time) :
    ∀ (matched : List (String × Nat)) (db : MemoirDb),
      (invalidateMatches now db matched).1.runRefs = db.runRefs ∧
        (invalidateMatches now db matched).1.launchEvents = db.launchEvents ∧
        ∀ id, (∀ m ∈ matched, m.1 ≠ id) →
          (invalidateMatches now db matched).1.archives.find? id = db.archives.find? id
  | [], _ => ⟨rfl, rfl, fun _ _ => rfl⟩
  | m :: matched, db => by
    obtain ⟨hrefs, hevents, harchives⟩ := invalidateMatch_apart db now m
    obtain ⟨hrefs', hevents', harchives'⟩ :=
      invalidateMatches_apart now matched (invalidateMatch db now m).1
    unfold invalidateMatches
    refine ⟨hrefs'.trans hrefs, hevents'.trans hevents, fun id hne => ?_⟩
    exact (harchives' id fun m' hm' => hne m' (List.mem_cons_of_mem _ hm')).trans
      (harchives id fun he => hne m List.mem_cons_self he.symm)

end MemoryDeletionCompensationService

/-- Deleting a source where no start is asked for in the archives it moves
on. -/
theorem invalidateDeletedSource_intents {db db' : MemoirDb} {now : Time} {source : Source}
    (hi : IntentsCurrent db)
    (hsettled : ∀ r ∈ db.references, r.source = source → ∀ a ∈ db.liveArchive? r.archiveId,
      a.publishedRevision = r.revision → ¬ db.Intent r.archiveId a.generationEpoch)
    (h : MemoryDeletionCompensationService.invalidateDeletedSource db now source = .ok db') :
    IntentsCurrent db' ∧ db'.runRefs = db.runRefs := by
  obtain ⟨matched, hfound, h⟩ := bind_ok.mp h
  have hmatched := findPublished_ok hfound
  obtain ⟨hrefs, hevents, harchives⟩ :=
    MemoryDeletionCompensationService.invalidateMatches_apart now matched db
  have hkeep : ∀ archiveId epoch, db.Intent archiveId epoch → db.Current archiveId epoch →
      (MemoryDeletionCompensationService.invalidateMatches now db matched).1.Current archiveId
        epoch := by
    rintro archiveId epoch hintent ⟨a, hfind, hnone, hepoch⟩
    refine ⟨a, ?_, hnone, hepoch⟩
    rw [harchives archiveId, hfind]
    intro m hm he
    obtain ⟨r, hr, hsource, hplace, b, hb, hrev⟩ := (hmatched m).mp hm
    have hid : r.archiveId = archiveId := (congrArg Prod.fst hplace).trans he
    obtain ⟨hfindb, _⟩ := liveArchive_ok hb
    have hab : b = a := by
      rw [hid, hfind] at hfindb
      exact (Option.some.inj hfindb).symm
    refine hsettled r hr hsource b hb hrev ?_
    rw [hid, hab, hepoch]
    exact hintent
  cases h
  split
  · exact ⟨hi.congr hrefs hevents hkeep, hrefs⟩
  · exact ⟨hi.congr hrefs hevents hkeep, hrefs⟩

/-- Deleting an archive in which no start is asked for. -/
theorem requestArchivePrivacyPurge_intents {db db' : MemoirDb} {now : Time} {archiveId : String}
    (hi : IntentsCurrent db) (hone : db.OneRunEach)
    (hsettled : ∀ a ∈ db.liveArchive? archiveId, ¬ db.Intent archiveId a.generationEpoch)
    (h : MemoryDeletionCompensationService.requestArchivePrivacyPurge db now archiveId = .ok db') :
    IntentsCurrent db' ∧ db'.OneRunEach := by
  unfold MemoryDeletionCompensationService.requestArchivePrivacyPurge at h
  cases hfind : db.archives.find? archiveId with
  | none => rw [hfind] at h; cases h
  | some archive =>
    rw [hfind] at h
    dsimp only at h
    split at h
    · cases h
      exact ⟨hi, hone⟩
    · cases h
      have hname : archive.archiveId = archiveId := Table.key_of_find? hfind
      have hdelete : IntentsCurrent { db with archives := db.archives.put (archive.delete now) } := by
        refine hi.congr rfl rfl ?_
        rintro id epoch hintent ⟨a, hfind', hnone, hepoch⟩
        refine ⟨a, ?_, hnone, hepoch⟩
        show (db.archives.put (archive.delete now)).find? id = some a
        rw [Table.find?_put_ne, hfind']
        intro hk
        have hid : id = archiveId := hk.trans hname
        subst hid
        refine hsettled a ?_ (hepoch ▸ hintent)
        rw [MemoirDb.liveArchive?, hfind']
        exact Option.filter_some_pos (by simp [hnone])
      have hmoves : LaunchOnly { db with archives := db.archives.put (archive.delete now) }
          (MemoryDeletionCompensationService.requestPurges now archiveId
            { db with archives := db.archives.put (archive.delete now) }
            (db.runRefs.rows.filter (fun ref => decide (ref.archiveId = archiveId)))) :=
        requestPurges_moves _ (fun ref href => Table.find?_of_mem (List.mem_filter.mp href).1)
          ((db.runRefs.nodup).sublist (List.filter_sublist.map _))
      exact ⟨hmoves.intentsCurrent hdelete, hmoves.unique hone⟩

/-! ## Runs -/

/-- The invariant of a run whose steps are settled. -/
structure StartsInvariant (s : Backend) : Prop where
  starts : ∀ c ∈ s.starts, c.Current
  runs : s.db.OneRunEach
  intents : IntentsCurrent s.db

theorem Backend.step_starts (text : PyText) (s : Backend) (e : Time × BackendOp) :
    (s.step text e).starts = s.starts ++ (e.2.perform text s.db (s.now + e.1)).2 := by
  unfold Backend.step
  dsimp only
  cases (e.2.perform text s.db (s.now + e.1)).1 with
  | ok _ => rfl
  | error _ => rfl

/-- Only the launching operations start runs. -/
theorem perform_starts {op : BackendOp} (h : ¬ op.Launching) (text : PyText) (db : MemoirDb)
    (now : Time) : (op.perform text db now).2 = [] := by
  cases op with
  | createArchives => rfl
  | publish => rfl
  | purgeExpired => rfl
  | invalidateDeletedSource => rfl
  | requestArchivePrivacyPurge => rfl
  | _ => exact absurd trivial h

theorem StartsInvariant.step {text : PyText} {s : Backend} {e : Time × BackendOp}
    (h : StartsInvariant s) (hsettled : StartsSettled s e) : StartsInvariant (s.step text e) := by
  have hstarts : ∀ c ∈ (s.step text e).starts, c.Current := by
    intro c hc
    rw [Backend.step_starts] at hc
    rcases List.mem_append.mp hc with hc | hc
    · exact h.starts c hc
    · by_cases hl : e.2.Launching
      · exact (hl.launches text s.db _).calls.current h.intents c hc
      · rw [perform_starts hl] at hc
        cases hc
  rcases s.step_cases text e with ⟨db', hdone, hdb, _⟩ | ⟨_, _, hdb, _⟩
  · obtain ⟨elapsed, op⟩ := e
    subst hdb
    have hlaunch : op.Launching → StartsInvariant (s.step text (elapsed, op)) := fun hl => by
      have hmoves := (hl.launches text s.db _).done _ hdone
      exact ⟨hstarts, hmoves.unique h.runs, hmoves.intentsCurrent h.intents⟩
    -- The others keep the runs and the events; what matters is where the archives stand.
    have hkeep : (s.step text (elapsed, op)).db.runRefs = s.db.runRefs →
        IntentsCurrent (s.step text (elapsed, op)).db →
        StartsInvariant (s.step text (elapsed, op)) := fun hrefs hi => by
      refine ⟨hstarts, ?_, hi⟩
      unfold MemoirDb.OneRunEach
      rw [hrefs]
      exact h.runs
    cases op with
    | createArchives frozen ids =>
      rcases MemoryArchiveService.createArchivesForRelationship_ok hdone with
        hsame | ⟨digest, db₁, hone, htwo⟩
      · exact hkeep (by rw [hsame]) (by rw [hsame]; exact h.intents)
      · obtain ⟨hrefs₁, hevents₁, hcur₁⟩ := MemoryArchiveService.createArchive_current hone
        obtain ⟨hrefs₂, hevents₂, hcur₂⟩ := MemoryArchiveService.createArchive_current htwo
        exact hkeep (hrefs₂.trans hrefs₁) ((h.intents.congr hrefs₁ hevents₁
          fun _ _ _ hc => hcur₁ _ _ hc).congr hrefs₂ hevents₂ fun _ _ _ hc => hcur₂ _ _ hc)
    | publish archiveId epoch runId snapshotId document documentId =>
      obtain ⟨p, hcheck, hwrite⟩ := bind_ok.mp hdone
      obtain ⟨hfind, _, _⟩ := MemoryArchiveService.checkPublication_ok hcheck
      have harchive : s.db.archives.find? p.archive.archiveId = some p.archive := by
        rw [show p.archive.archiveId = archiveId from Table.key_of_find? hfind, hfind]
      obtain ⟨hrefs, hevents, hcur⟩ :=
        MemoryArchiveService.writePublication_current harchive hwrite
      exact hkeep hrefs (h.intents.congr hrefs hevents fun _ _ _ hc => hcur _ _ hc)
    | purgeExpired =>
      have hdone : MemoryRevisionGcService.purgeExpired s.db (s.now + elapsed)
          = (s.step text (elapsed, .purgeExpired)).db := Except.ok.inj hdone
      exact hkeep (by rw [← hdone]; rfl) (by
        rw [← hdone]
        exact h.intents.congr rfl rfl fun _ _ _ hc => hc)
    | invalidateDeletedSource source =>
      obtain ⟨hi, hrefs⟩ := invalidateDeletedSource_intents h.intents hsettled hdone
      exact hkeep hrefs hi
    | requestArchivePrivacyPurge archiveId =>
      obtain ⟨hi, hone⟩ := requestArchivePrivacyPurge_intents h.intents h.runs hsettled hdone
      exact ⟨hstarts, hone, hi⟩
    | _ => exact hlaunch trivial
  · exact ⟨hstarts, by rw [hdb]; exact h.runs, by rw [hdb]; exact h.intents⟩

/-- Along a run whose deletions find no start still to be delivered, no
superseded run is started, and every archive has one run and one start event
at most in a generation. -/
theorem starts_current (text : PyText) (es : List (Time × BackendOp))
    (hsettled : Along (Backend.step text) StartsSettled {} es) :
    Along (Backend.step text) (fun s e => NoStaleStart (s.step text e)) {} es := by
  have hempty : StartsInvariant {} :=
    ⟨fun _ h => (nomatch h), fun _ h => (nomatch h), fun _ _ ⟨_, h, _⟩ => (nomatch h)⟩
  refine along_of_along (I := StartsInvariant) (fun s e h hs => h.step hs)
    (fun s e h hs => ?_) es {} hempty hsettled
  have hnext : StartsInvariant (s.step text e) := h.step hs
  exact ⟨hnext.starts, hnext.runs, oneStartEach _⟩

/-! ## A purge between the two phases -/

namespace StartExample

open RevisionExample

/-- A Runtime that does what it is asked to. -/
def willing : RuntimeGateway where
  createHeld _ := some ⟨"run-1", "1.0.0", "digest", 1⟩
  startHeld _ _ := true
  getRunSummary _ := some none
  cancelRun _ _ := true

/-- Created, bound and started, and then the archive is deleted. -/
def startedFirst : List (Time × BackendOp) :=
  [(0, create), (1, .enqueue "archive-a" "event-1"), (1, .deliver willing "event-1" "event-2"),
    (1, .deliver willing "event-2" ""), (1, .requestArchivePrivacyPurge "archive-a")]

/-- The archive is deleted after the run has been created and bound. -/
def purgedFirst : List (Time × BackendOp) :=
  [(0, create), (1, .enqueue "archive-a" "event-1"), (1, .deliver willing "event-1" "event-2"),
    (1, .requestArchivePrivacyPurge "archive-a"), (1, .deliver willing "event-2" "")]

end StartExample

open RevisionExample StartExample in
theorem starts_current_started :
    Along (Backend.step plainText) (fun s e => NoStaleStart (s.step plainText e)) {}
      startedFirst :=
  starts_current plainText startedFirst (by decide +kernel)

open RevisionExample StartExample in
/-- The run of a deleted archive is started. -/
theorem purged_archive_started :
    ¬ Along (Backend.step plainText) (fun s e => NoStaleStart (s.step plainText e)) {}
      purgedFirst := by
  decide +kernel

end AgentRuntime
