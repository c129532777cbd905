import AgentRuntime.Strangers

/-!
# One pinned archive

Pinning takes the pins of the owner's other archives off, of those that are
not deleted. `one_pinned`: at any time a user has at most one pinned archive
that is not deleted. What this needs of the backend is `KeepsArchives`: an
archive stays, with its owner, and a deleted one is not brought back.
-/

namespace AgentRuntime

open Keyed Runs

/-! ## The backend -/

/-- Archives stay, with their owners, and deleted ones stay deleted. -/
structure KeepsArchives (db db' : MemoirDb) : Prop where
  rows : ∀ a' ∈ db'.archives.rows, db.archives.find? a'.archiveId = none ∨
    ∃ a ∈ db.archives.rows, a.archiveId = a'.archiveId ∧ a.ownerUserId = a'.ownerUserId ∧
      (a'.deletedAt = none → a.deletedAt = none)
  there : ∀ id, (db.archives.find? id).isSome → (db'.archives.find? id).isSome

namespace KeepsArchives

variable {a b c : MemoirDb}

theorem refl (db : MemoirDb) : KeepsArchives db db :=
  ⟨fun a ha => .inr ⟨a, ha, rfl, rfl, id⟩, fun _ h => h⟩

theorem trans (h : KeepsArchives a b) (h' : KeepsArchives b c) : KeepsArchives a c := by
  refine ⟨fun z hz => ?_, fun id hid => h'.there id (h.there id hid)⟩
  rcases h'.rows z hz with hnone | ⟨y, hy, hyid, hyowner, hylive⟩
  · left
    cases hfind : a.archives.find? z.archiveId with
    | none => rfl
    | some x =>
      have hthere := h.there z.archiveId (by rw [hfind]; rfl)
      rw [hnone] at hthere
      cases hthere
  · rcases h.rows y hy with hnone | ⟨x, hx, hxid, hxowner, hxlive⟩
    · exact .inl (hyid ▸ hnone)
    · exact .inr ⟨x, hx, hxid.trans hyid, hxowner.trans hyowner, fun hlive => hxlive (hylive hlive)⟩

theorem of_eq {db db' : MemoirDb} (h : db'.archives = db.archives) : KeepsArchives db db' := by
  refine ⟨fun a ha => .inr ⟨a, h ▸ ha, rfl, rfl, id⟩, fun id hid => ?_⟩
  rw [h]
  exact hid

/-- An archive is overwritten by one of the same owner. -/
theorem put {db db' : MemoirDb} {archive archive' : MemoryArchive}
    (hfind : db.archives.find? archive'.archiveId = some archive)
    (howner : archive'.ownerUserId = archive.ownerUserId)
    (hlive : archive'.deletedAt = none → archive.deletedAt = none)
    (hput : db'.archives = db.archives.put archive') : KeepsArchives db db' := by
  refine ⟨fun a ha => .inr ?_, fun id hid => ?_⟩
  · rw [hput] at ha
    rcases Table.mem_put.mp ha with ⟨rfl, _⟩ | ⟨ha, _⟩
    · exact ⟨archive, Table.mem_of_find? hfind, Table.key_of_find? hfind, howner.symm, hlive⟩
    · exact ⟨a, ha, rfl, rfl, fun h => h⟩
  · rw [hput, Table.find?_put]
    split
    · rw [Option.isSome_map]
      exact hid
    · exact hid

theorem insert {db db' : MemoirDb} {archive : MemoryArchive}
    (h : db.archives.insert? archive = some db'.archives) : KeepsArchives db db' := by
  obtain ⟨hnone, hrows⟩ := Table.insert?_eq_some.mp h
  refine ⟨fun a ha => ?_, fun id hid => isSome_insert? h hid⟩
  rw [hrows, List.mem_append, List.mem_singleton] at ha
  rcases ha with ha | rfl
  · exact .inr ⟨a, ha, rfl, rfl, fun h => h⟩
  · exact .inl hnone

theorem of_launch {db db' : MemoirDb} (h : LaunchOnly db db') : KeepsArchives db db' := by
  have hsome (id : String) : (db'.archives.find? id).isSome = (db.archives.find? id).isSome := by
    have hstanding := congrArg Option.isSome (h.archives id)
    rw [Option.isSome_map, Option.isSome_map] at hstanding
    exact hstanding
  refine ⟨fun a' ha' => ?_, fun id hid => (hsome id).trans hid⟩
  have hstanding := h.archives a'.archiveId
  have howner := h.owners a'.archiveId
  rw [Table.find?_of_mem ha'] at hstanding howner
  cases hfind : db.archives.find? a'.archiveId with
  | none => exact .inl rfl
  | some a =>
    rw [hfind] at hstanding howner
    refine .inr ⟨a, Table.mem_of_find? hfind, Table.key_of_find? hfind,
      (Option.some.inj howner).symm, fun hlive => ?_⟩
    have hdeleted : a'.deletedAt = a.deletedAt := congrArg (·.2.2) (Option.some.inj hstanding)
    rw [← hdeleted]
    exact hlive

end KeepsArchives

theorem createArchive_keeps {db db' : MemoirDb} {frozen : FrozenMemoryInput} {digest : String}
    {owner partner : Int} {ids : ArchiveIds}
    (h : MemoryArchiveService.createArchive db frozen digest owner partner ids = .ok db') :
    KeepsArchives db db' := by
  obtain ⟨a, d, _, db₀, _, _, _, _, harchives, _, _, hscenery⟩ :=
    MemoryArchiveService.createArchive_ok h
  unfold SceneryOnly at hscenery
  have hadded : db.archives.insert? a = some db'.archives := by
    rw [hscenery]
    exact harchives
  exact .insert hadded

theorem writePublication_archives {db db' : MemoirDb} {now : Time}
    {p : MemoryArchiveService.Publication} {documentId : String}
    (h : MemoryArchiveService.writePublication db now p documentId = .ok db') :
    db'.archives = db.archives.put p.advanced := by
  obtain ⟨db₁, hdocument, h⟩ := bind_ok.mp h
  obtain ⟨db₂, hscenes, h⟩ := bind_ok.mp h
  obtain ⟨db₃, hactions, h⟩ := bind_ok.mp h
  cases h
  obtain ⟨_, documents, _, rfl⟩ := insertDocument_ok hdocument
  have hscenery := (insertScenes_scenery hscenes).trans (insertActions_scenery hactions)
  obtain ⟨_, _, _, harchives⟩ := MemoryArchiveService.supersedePrevious_places db now p.archive
  unfold SceneryOnly at hscenery
  show db₃.archives.put _ = _
  rw [hscenery]
  exact congrArg (Table.put · p.advanced) harchives

theorem invalidateMatch_keeps (db : MemoirDb) (now : Time) (found : String × Nat) :
    KeepsArchives db (MemoryDeletionCompensationService.invalidateMatch db now found).1 := by
  unfold MemoryDeletionCompensationService.invalidateMatch
  split
  · exact .refl db
  · next archive hlive =>
    split
    · exact .refl db
    · split
      · next baseline current _ _ =>
        have hfind := (liveArchive_ok hlive).1
        have hname : archive.archiveId = found.1 := Table.key_of_find? hfind
        dsimp only
        obtain ⟨_, hcancel⟩ := MemoryDeletionCompensationService.cancelPrior_eq
          { MemoryDeletionCompensationService.withdrawRevision
              { db with archives := db.archives.put archive.invalidate } now baseline current with
            snapshots := (MemoryDeletionCompensationService.withdrawRevision
              { db with archives := db.archives.put archive.invalidate } now baseline
              current).snapshots.filter (fun s => decide (s.archiveId ≠ found.1)) } archive
        have hself : db.archives.find? archive.invalidate.archiveId = some archive := by
          show db.archives.find? archive.archiveId = some archive
          rw [hname, hfind]
        rw [hcancel]
        refine .put hself rfl (fun h => h) ?_
        unfold MemoryDeletionCompensationService.withdrawRevision
        dsimp only
        split
        · rfl
        · rfl
      · exact .refl db

theorem invalidateMatches_keeps (now : Time) :
    ∀ (matched : List (String × Nat)) (db : MemoirDb),
      KeepsArchives db (MemoryDeletionCompensationService.invalidateMatches now db matched).1
  | [], db => .refl db
  | found :: matched, db =>
    (invalidateMatch_keeps db now found).trans (invalidateMatches_keeps now matched _)

theorem requestArchivePrivacyPurge_keeps {db db' : MemoirDb} {now : Time} {archiveId : String}
    (h : MemoryDeletionCompensationService.requestArchivePrivacyPurge db now archiveId = .ok db') :
    KeepsArchives db db' := by
  cases hfind : db.archives.find? archiveId with
  | none =>
    unfold MemoryDeletionCompensationService.requestArchivePrivacyPurge at h
    rw [hfind] at h
    cases h
  | some a =>
    have hname : a.archiveId = archiveId := Table.key_of_find? hfind
    rw [← hname] at hfind h
    obtain ⟨db₁, hdone, harchives, _⟩ := requestArchivePrivacyPurge_ok now hfind
    cases hdone.symm.trans h
    split at harchives
    · exact .of_eq harchives
    · have hdeleted : (a.delete now).deletedAt = none → a.deletedAt = none := fun h => by cases h
      have hself : db.archives.find? (a.delete now).archiveId = some a := hfind
      exact .put hself rfl hdeleted harchives

theorem Backend.step_keepsArchives (text : PyText) (s : Backend) (e : Time × BackendOp) :
    KeepsArchives s.db (s.step text e).db := by
  rcases s.step_cases text e with ⟨db', hdone, hdb, _⟩ | ⟨_, _, hdb, _⟩
  · rw [hdb]
    obtain ⟨elapsed, op⟩ := e
    have hlaunch (hop : op.Launching) : KeepsArchives s.db db' :=
      .of_launch ((hop.launches text s.db _).done db' hdone)
    cases op with
    | createArchives frozen ids =>
      rcases MemoryArchiveService.createArchivesForRelationship_ok hdone with
        rfl | ⟨digest, db₁, hone, htwo⟩
      · exact .refl s.db
      · exact (createArchive_keeps hone).trans (createArchive_keeps htwo)
    | publish archiveId epoch runId snapshotId document documentId =>
      obtain ⟨p, hcheck, hwrite⟩ := bind_ok.mp hdone
      have hfind := (MemoryArchiveService.checkPublication_ok hcheck).1
      have hself : s.db.archives.find? p.advanced.archiveId = some p.archive := by
        show s.db.archives.find? p.archive.archiveId = some p.archive
        rw [show p.archive.archiveId = archiveId from Table.key_of_find? hfind, hfind]
      exact .put hself rfl (fun h => h) (writePublication_archives hwrite)
    | purgeExpired =>
      cases hdone
      exact .of_eq rfl
    | invalidateDeletedSource source =>
      obtain ⟨matched, _, hdone⟩ := bind_ok.mp hdone
      cases hdone
      split
      · exact (invalidateMatches_keeps _ matched s.db).trans (.of_eq rfl)
      · exact invalidateMatches_keeps _ matched s.db
    | requestArchivePrivacyPurge archiveId => exact requestArchivePrivacyPurge_keeps hdone
    | _ => exact hlaunch trivial
  · rw [hdb]
    exact .refl s.db

/-! ## The pins -/

/-- A user has one pinned archive that is not deleted, at most. -/
def OnePinned (s : MemoryApi) : Prop :=
  ∀ a ∈ s.backend.db.archives.rows, ∀ b ∈ s.backend.db.archives.rows,
    a.ownerUserId = b.ownerUserId → a.deletedAt = none → b.deletedAt = none →
    a.archiveId ∈ s.pinned → b.archiveId ∈ s.pinned → a = b

/-- And what is pinned is there. -/
structure Pins (s : MemoryApi) : Prop where
  one : OnePinned s
  there : ∀ id ∈ s.pinned, (s.backend.db.archives.find? id).isSome

/-- The archives are kept, and no pin is set. -/
theorem Pins.keeps {s s' : MemoryApi} (h : Pins s)
    (hkeeps : KeepsArchives s.backend.db s'.backend.db) (hpins : ∀ id ∈ s'.pinned, id ∈ s.pinned) :
    Pins s' := by
  refine ⟨fun a ha b hb howner hlive hlive' hpin hpin' => ?_, fun id hid =>
    hkeeps.there id (h.there id (hpins id hid))⟩
  have hback : ∀ x ∈ s'.backend.db.archives.rows, x.archiveId ∈ s'.pinned →
      ∃ y ∈ s.backend.db.archives.rows, y.archiveId = x.archiveId ∧
        y.ownerUserId = x.ownerUserId ∧ (x.deletedAt = none → y.deletedAt = none) := by
    intro x hx hxpin
    rcases hkeeps.rows x hx with hnone | hold
    · have hthere := h.there x.archiveId (hpins _ hxpin)
      rw [hnone] at hthere
      cases hthere
    · exact hold
  obtain ⟨x, hx, hxid, hxowner, hxlive⟩ := hback a ha hpin
  obtain ⟨y, hy, hyid, hyowner, hylive⟩ := hback b hb hpin'
  have hsame := h.one x hx y hy (hxowner.trans (howner.trans hyowner.symm)) (hxlive hlive)
    (hylive hlive') (hxid ▸ hpins _ hpin) (hyid ▸ hpins _ hpin')
  refine List.inj_on_of_nodup_map (Table.nodup _) ha hb ?_
  rw [← hxid, ← hyid, hsame]

theorem Pins.serve {s : MemoryApi} (h : Pins s) (now : Time) {identity : UserIdentity}
    {archive : MemoryArchive} (hmem : archive ∈ (s.archivesOf identity.userId).rows)
    (request : ArchiveRequest) : Pins (s.serve now identity archive request).2 := by
  obtain ⟨hrow, howner⟩ := mem_archivesOf.mp hmem
  cases request with
  | detail =>
    unfold MemoryApi.serve
    dsimp only
    split
    · exact h
    · exact h
  | delete =>
    unfold MemoryApi.serve
    dsimp only
    split
    · next hdone => exact h.keeps (requestArchivePrivacyPurge_keeps hdone) fun _ hid => hid
    · exact h
  | pin =>
    have hpin : ∀ a ∈ s.backend.db.archives.rows, a.deletedAt = none →
        a.archiveId ∈ s.unpinAll identity.userId ++ [archive.archiveId] →
        a = archive ∨ (a.archiveId ∈ s.pinned ∧ a.ownerUserId ≠ identity.userId) := by
      intro a ha hlive hin
      rw [List.mem_append, List.mem_singleton, MemoryApi.unpinAll, List.mem_filter,
        decide_eq_true_eq] at hin
      rcases hin with ⟨hin, hnot⟩ | heq
      · refine .inr ⟨hin, fun hown => hnot (List.mem_map_of_mem (List.mem_filter.mpr ⟨ha, ?_⟩))⟩
        rw [hlive, decide_eq_true hown]
        rfl
      · exact .inl (List.inj_on_of_nodup_map (Table.nodup _) ha hrow heq)
    refine ⟨fun a ha b hb hsame hlive hlive' hpin₁ hpin₂ => ?_, fun id hid => ?_⟩
    · rcases hpin a ha hlive hpin₁ with rfl | ⟨hin, hne⟩
      · rcases hpin b hb hlive' hpin₂ with rfl | ⟨_, hne⟩
        · rfl
        · exact absurd (hsame.symm.trans howner) hne
      · rcases hpin b hb hlive' hpin₂ with rfl | ⟨hin', _⟩
        · exact absurd (hsame.trans howner) hne
        · exact h.one a ha b hb hsame hlive hlive' hin hin'
    · rcases List.mem_append.mp hid with hid | hid
      · exact h.there id (List.mem_filter.mp hid).1
      · rw [List.mem_singleton.mp hid]
        show (s.backend.db.archives.find? archive.archiveId).isSome
        rw [Table.find?_of_mem hrow]
        rfl
  | unpin => exact h.keeps (.refl _) fun _ hid => (List.mem_filter.mp hid).1

theorem Pins.handle {s : MemoryApi} (text : PyText) (hashes : Hashes) (h : Pins s) (now : Time)
    (request : MemoryRequest) : Pins (s.handle text hashes now request).2 := by
  cases request with
  | setupPassword who password salt =>
    rcases s.setupPassword_cases text hashes now who password salt with ⟨_, _, hdone⟩ | hsame
    · rw [hdone]
      exact ⟨h.one, h.there⟩
    · rw [hsame]
      exact h
  | verifyPassword who password credential =>
    show Pins (s.verifyPassword hashes now who password credential).2
    rcases s.verifyPassword_cases hashes now who password credential with
      ⟨_, _, _, _, hdone⟩ | ⟨hsame, _⟩
    · rw [hdone]
      exact ⟨h.one, h.there⟩
    · rw [hsame]
      exact h
  | listArchives who => exact h
  | archive who request archiveId unlockCredential =>
    unfold MemoryApi.handle
    dsimp only
    cases hguard : s.requireOwnedUnlockedArchive hashes now who archiveId unlockCredential
        (decide (request = .delete)) with
    | error answer => exact h
    | ok a =>
      exact h.serve now (owned_mem (requireOwnedUnlockedArchive_ok hashes hguard).1) request

/-- Whatever the users and the backend do, a user has at most one pinned
archive that is not deleted. -/
theorem one_pinned (text : PyText) (hashes : Hashes) (es : List (Time × MemoryEvent)) :
    OnePinned (MemoryApi.after text hashes es) := by
  suffices h : Pins (MemoryApi.after text hashes es) from h.one
  refine run_inv (I := Pins) (fun s e h => ?_) es {} ⟨fun _ h => (nomatch h), fun _ h => (nomatch h)⟩
  obtain ⟨elapsed, event⟩ := e
  cases event with
  | op op =>
    exact h.keeps (s.backend.step_keepsArchives text (elapsed, op)) fun _ hid => hid
  | request request =>
    have hwait : Pins (s.wait elapsed) := ⟨h.one, h.there⟩
    exact hwait.handle text hashes (s.backend.now + elapsed) request

end AgentRuntime
