import AgentRuntime.MemoryUnlock

/-!
# What others request

The requests of one user are answered from what is theirs: their password, the
archives they own and whether these are pinned, and the published rows. A
request of somebody else changes none of it (`handle_stranger`), and a request
of their own changes it in a way that depends on nothing else (`handle_alike`).
So all that others do can be left out, the time they take apart, and the user
gets the same answers (`strangers_change_nothing`).
-/

namespace AgentRuntime

open Keyed

/-! ## What a user's answers are read from -/

/-- The archives of a user. -/
def MemoryApi.archivesOf (s : MemoryApi) (userId : Int) : Table MemoryArchive.archiveId :=
  s.backend.db.archives.filter fun a => decide (a.ownerUserId = userId)

/-- The two states hold the same for the user. -/
structure Alike (userId : Int) (s s' : MemoryApi) : Prop where
  now : s.backend.now = s'.backend.now
  password : s.passwords.find? userId = s'.passwords.find? userId
  archives : s.archivesOf userId = s'.archivesOf userId
  pinned : ∀ a ∈ (s.archivesOf userId).rows, a.archiveId ∈ s.pinned ↔ a.archiveId ∈ s'.pinned
  documents : s.backend.db.documents = s'.backend.db.documents
  scenes : s.backend.db.scenes = s'.backend.db.scenes
  actions : s.backend.db.actions = s'.backend.db.actions

namespace Alike

variable {userId : Int} {s s' s'' : MemoryApi}

theorem refl (userId : Int) (s : MemoryApi) : Alike userId s s :=
  ⟨rfl, rfl, rfl, fun _ _ => Iff.rfl, rfl, rfl, rfl⟩

theorem symm (h : Alike userId s s') : Alike userId s' s :=
  ⟨h.now.symm, h.password.symm, h.archives.symm, fun a ha => (h.pinned a (h.archives ▸ ha)).symm,
    h.documents.symm, h.scenes.symm, h.actions.symm⟩

theorem trans (h : Alike userId s s') (h' : Alike userId s' s'') : Alike userId s s'' where
  now := h.now.trans h'.now
  password := h.password.trans h'.password
  archives := h.archives.trans h'.archives
  pinned a ha := (h.pinned a ha).trans (h'.pinned a (h.archives ▸ ha))
  documents := h.documents.trans h'.documents
  scenes := h.scenes.trans h'.scenes
  actions := h.actions.trans h'.actions

theorem wait (h : Alike userId s s') (elapsed : Time) :
    Alike userId (s.wait elapsed) (s'.wait elapsed) :=
  ⟨congrArg (· + elapsed) h.now, h.password, h.archives, h.pinned, h.documents, h.scenes,
    h.actions⟩

end Alike

/-! ## Lookups -/

section Lookups

variable {s s' : MemoryApi} {identity : UserIdentity}

theorem mem_archivesOf {userId : Int} {a : MemoryArchive} :
    a ∈ (s.archivesOf userId).rows ↔ a ∈ s.backend.db.archives.rows ∧ a.ownerUserId = userId := by
  show a ∈ s.backend.db.archives.rows.filter _ ↔ _
  rw [List.mem_filter, decide_eq_true_eq]

theorem owned?_eq (s : MemoryApi) (identity : UserIdentity) (archiveId : String)
    (allowDeleted : Bool) : s.owned? identity archiveId allowDeleted =
      ((s.archivesOf identity.userId).find? archiveId).filter
        fun a => allowDeleted || a.deletedAt.isNone := by
  unfold MemoryApi.owned? MemoryApi.archivesOf
  rw [Table.find?_filter, Option.filter_filter]

theorem liveOf_eq (s : MemoryApi) (userId : Int) :
    s.liveOf userId = (s.archivesOf userId).rows.filter fun a => a.deletedAt.isNone := by
  show s.backend.db.archives.rows.filter _ = (s.backend.db.archives.rows.filter _).filter _
  rw [List.filter_filter]
  exact List.filter_congr fun a _ => Bool.and_comm _ _

theorem Alike.owned? (h : Alike identity.userId s s') (archiveId : String) (allowDeleted : Bool) :
    s.owned? identity archiveId allowDeleted = s'.owned? identity archiveId allowDeleted := by
  rw [owned?_eq, owned?_eq, h.archives]

theorem Alike.liveOf {userId : Int} (h : Alike userId s s') : s.liveOf userId = s'.liveOf userId := by
  rw [liveOf_eq, liveOf_eq, h.archives]

theorem Alike.entry {userId : Int} (h : Alike userId s s') {a : MemoryArchive}
    (ha : a ∈ (s.archivesOf userId).rows) : s.entry a = s'.entry a := by
  unfold MemoryApi.entry
  rw [decide_eq_decide.mpr (h.pinned a ha)]

theorem Alike.guard (h : Alike identity.userId s s') (hashes : Hashes) (now : Time)
    (archiveId : String) (unlockCredential : Option String) (allowDeleted : Bool) :
    s.requireOwnedUnlockedArchive hashes now identity archiveId unlockCredential allowDeleted =
      s'.requireOwnedUnlockedArchive hashes now identity archiveId unlockCredential
        allowDeleted := by
  unfold MemoryApi.requireOwnedUnlockedArchive MemoryPasswordService.isUnlocked
    MemoryPasswordService.get
  rw [h.owned?, h.password]

/-- An archive that passes the guard is one of the user's. -/
theorem owned_mem {archiveId : String} {allowDeleted : Bool} {a : MemoryArchive}
    (h : s.owned? identity archiveId allowDeleted = some a) :
    a ∈ (s.archivesOf identity.userId).rows := by
  rw [owned?_eq] at h
  exact Table.mem_of_find? (Option.filter_eq_some_iff.mp h).1

end Lookups

/-! ## Deleting an archive -/

theorem requestPurges_archives (now : Time) (archiveId : String) :
    ∀ (refs : List MemoryAgentRunRef) (db : MemoirDb),
      (MemoryDeletionCompensationService.requestPurges now archiveId db refs).archives = db.archives
  | [], _ => rfl
  | ref :: refs, db => by
    unfold MemoryDeletionCompensationService.requestPurges
    split
    · exact requestPurges_archives now archiveId refs db
    · dsimp only
      refine (requestPurges_archives now archiveId refs _).trans ?_
      obtain ⟨events, henqueue⟩ := enqueueCompensation_eq
        { db with runRefs := db.runRefs.put (ref.requestPurge now archiveId) } {
          archiveId := archiveId
          runId := ref.runId
          generationEpoch := ref.generationEpoch
          action := "privacy_purge"
          idempotencyKey := ref.purgeKey archiveId }
      rw [henqueue]

/-- What the request of a purge writes, apart from the runs. -/
theorem requestArchivePrivacyPurge_ok {db : MemoirDb} (now : Time) {a : MemoryArchive}
    (hfind : db.archives.find? a.archiveId = some a) :
    ∃ db', MemoryDeletionCompensationService.requestArchivePrivacyPurge db now a.archiveId
        = .ok db' ∧
      db'.archives = (if a.deletedAt.isSome then db.archives else db.archives.put (a.delete now)) ∧
      db'.documents = db.documents ∧ db'.scenes = db.scenes ∧ db'.actions = db.actions := by
  have hdone : ∃ db', MemoryDeletionCompensationService.requestArchivePrivacyPurge db now
      a.archiveId = .ok db' ∧ db'.archives
        = (if a.deletedAt.isSome then db.archives else db.archives.put (a.delete now)) := by
    unfold MemoryDeletionCompensationService.requestArchivePrivacyPurge
    rw [hfind]
    dsimp only
    by_cases hdeleted : a.deletedAt.isSome = true
    · rw [if_pos hdeleted, if_pos hdeleted]
      exact ⟨db, rfl, rfl⟩
    · rw [if_neg hdeleted, if_neg hdeleted]
      exact ⟨_, rfl, requestPurges_archives now a.archiveId _ _⟩
  obtain ⟨db', hdone, harchives⟩ := hdone
  obtain ⟨hscenes, hactions⟩ := requestArchivePrivacyPurge_rows hdone
  exact ⟨db', hdone, harchives, (requestArchivePrivacyPurge_sameShelf hdone).documents, hscenes,
    hactions⟩

/-! ## Somebody else's request -/

section Stranger

variable {userId : Int} (text : PyText) (hashes : Hashes)

/-- Passwords of others, and archives of others. -/
theorem Alike.of_others {s s' : MemoryApi} (hnow : s'.backend.now = s.backend.now)
    (hpassword : s'.passwords.find? userId = s.passwords.find? userId)
    (harchives : s'.archivesOf userId = s.archivesOf userId)
    (hpinned : ∀ a ∈ (s.archivesOf userId).rows, a.archiveId ∈ s.pinned ↔ a.archiveId ∈ s'.pinned)
    (hrows : s'.backend.db.documents = s.backend.db.documents ∧
      s'.backend.db.scenes = s.backend.db.scenes ∧ s'.backend.db.actions = s.backend.db.actions) :
    Alike userId s s' :=
  ⟨hnow.symm, hpassword.symm, harchives.symm, hpinned, hrows.1.symm, hrows.2.1.symm,
    hrows.2.2.symm⟩

theorem serve_stranger {s : MemoryApi} {identity : UserIdentity} (hne : identity.userId ≠ userId)
    (now : Time) {archive : MemoryArchive} (hmem : archive ∈ (s.archivesOf identity.userId).rows)
    (request : ArchiveRequest) : Alike userId s (s.serve now identity archive request).2 := by
  obtain ⟨hrow, howner⟩ := mem_archivesOf.mp hmem
  have hfind : s.backend.db.archives.find? archive.archiveId = some archive :=
    Table.find?_of_mem hrow
  -- An archive of the user is another one.
  have hother : ∀ a ∈ (s.archivesOf userId).rows, a.archiveId ≠ archive.archiveId := by
    intro a ha heq
    obtain ⟨ha, howner'⟩ := mem_archivesOf.mp ha
    have hsame := Table.find?_of_mem ha
    rw [heq, hfind] at hsame
    cases hsame
    exact hne (howner.symm.trans howner')
  cases request with
  | detail =>
    unfold MemoryApi.serve
    dsimp only
    split
    · exact .refl userId s
    · exact .refl userId s
  | delete =>
    obtain ⟨db', hdone, harchives, hrest⟩ := requestArchivePrivacyPurge_ok now hfind
    unfold MemoryApi.serve
    dsimp only
    rw [hdone]
    refine .of_others rfl rfl ?_ (fun _ _ => Iff.rfl) hrest
    show db'.archives.filter _ = s.backend.db.archives.filter _
    rw [harchives]
    split
    · rfl
    · rw [Table.filter_put, Table.put_of_none]
      · rw [Table.find?_filter]
        show (s.backend.db.archives.find? archive.archiveId).filter _ = none
        rw [hfind, Option.filter_some_neg]
        exact decide_eq_false fun h => hne (howner.symm.trans h)
      · intro r hr
        cases hfind.symm.trans hr
        rfl
  | pin =>
    refine .of_others rfl rfl rfl (fun a ha => ?_) ⟨rfl, rfl, rfl⟩
    show _ ↔ a.archiveId ∈ s.unpinAll identity.userId ++ [archive.archiveId]
    have hnot : a.archiveId ∉ (s.liveOf identity.userId).map (·.archiveId) := by
      intro hin
      obtain ⟨b, hb, hid⟩ := List.mem_map.mp hin
      obtain ⟨hb, hpass⟩ := List.mem_filter.mp hb
      obtain ⟨ha, howner'⟩ := mem_archivesOf.mp ha
      have hsame := Table.find?_of_mem ha
      rw [← hid, Table.find?_of_mem hb] at hsame
      cases hsame
      rw [Bool.and_eq_true, decide_eq_true_eq] at hpass
      exact hne (hpass.1.symm.trans howner')
    rw [List.mem_append, List.mem_singleton, MemoryApi.unpinAll, List.mem_filter,
      decide_eq_true_eq]
    refine ⟨fun h => .inl ⟨h, hnot⟩, fun h => ?_⟩
    rcases h with ⟨h, _⟩ | h
    · exact h
    · exact absurd h (hother a ha)
  | unpin =>
    refine .of_others rfl rfl rfl (fun a ha => ?_) ⟨rfl, rfl, rfl⟩
    show _ ↔ a.archiveId ∈ s.pinned.filter _
    rw [List.mem_filter, decide_eq_true_eq]
    exact ⟨fun h => ⟨h, hother a ha⟩, fun h => h.1⟩

/-- A request of somebody else leaves everything of the user as it is. -/
theorem handle_stranger (s : MemoryApi) (now : Time) {request : MemoryRequest}
    (hne : request.identity.userId ≠ userId) :
    Alike userId s (s.handle text hashes now request).2 := by
  cases request with
  | setupPassword who password salt =>
    rcases s.setupPassword_cases text hashes now who password salt with
      ⟨passwords, hinsert, hdone⟩ | hsame
    · rw [hdone]
      refine .of_others rfl ?_ rfl (fun _ _ => Iff.rfl) ⟨rfl, rfl, rfl⟩
      show passwords.find? userId = _
      rw [Table.find?_insert? hinsert, if_neg]
      exact fun h => hne h.symm
    · rw [hsame]
      exact .refl userId s
  | verifyPassword who password credential =>
    show Alike userId s (s.verifyPassword hashes now who password credential).2
    rcases s.verifyPassword_cases hashes now who password credential with
      ⟨record, hfind, _, _, hdone⟩ | ⟨hsame, _⟩
    · rw [hdone]
      refine .of_others rfl ?_ rfl (fun _ _ => Iff.rfl) ⟨rfl, rfl, rfl⟩
      show (s.passwords.put _).find? userId = _
      refine Table.find?_put_ne fun h => hne ?_
      exact (h.trans (show record.userId = who.userId from Table.key_of_find? hfind)).symm
    · rw [hsame]
      exact .refl userId s
  | listArchives who => exact .refl userId s
  | archive who request archiveId unlockCredential =>
    unfold MemoryApi.handle
    dsimp only
    cases hguard : s.requireOwnedUnlockedArchive hashes now who archiveId unlockCredential
        (decide (request = .delete)) with
    | error answer => exact .refl userId s
    | ok a =>
      have hmem := owned_mem (requireOwnedUnlockedArchive_ok hashes hguard).1
      exact serve_stranger hne now hmem request

/-! ## The user's own request -/

theorem getPublishedPlayback_congr {db db' : MemoirDb} {archiveId : String}
    (harchive : db.archives.find? archiveId = db'.archives.find? archiveId)
    (hdocuments : db.documents = db'.documents) (hscenes : db.scenes = db'.scenes)
    (hactions : db.actions = db'.actions) :
    MemoryPlayerService.getPublishedPlayback db archiveId
      = MemoryPlayerService.getPublishedPlayback db' archiveId := by
  unfold MemoryPlayerService.getPublishedPlayback MemoryPlayerService.getPublishedDocument
    MemoirDb.liveArchive? actionsOf scenesOf
  rw [harchive, hdocuments, hscenes, hactions]

theorem serve_alike {s s' : MemoryApi} {identity : UserIdentity} (h : Alike identity.userId s s')
    (now : Time) {archive : MemoryArchive} (hmem : archive ∈ (s.archivesOf identity.userId).rows)
    (request : ArchiveRequest) :
    (s.serve now identity archive request).1 = (s'.serve now identity archive request).1 ∧
      Alike identity.userId (s.serve now identity archive request).2
        (s'.serve now identity archive request).2 := by
  have hmem' : archive ∈ (s'.archivesOf identity.userId).rows := h.archives ▸ hmem
  have hfind : s.backend.db.archives.find? archive.archiveId = some archive :=
    Table.find?_of_mem (mem_archivesOf.mp hmem).1
  have hfind' : s'.backend.db.archives.find? archive.archiveId = some archive :=
    Table.find?_of_mem (mem_archivesOf.mp hmem').1
  cases request with
  | detail =>
    have hplayed := getPublishedPlayback_congr (hfind.trans hfind'.symm) h.documents h.scenes
      h.actions
    unfold MemoryApi.serve
    dsimp only
    rw [hplayed, h.entry hmem]
    split
    · exact ⟨rfl, h⟩
    · exact ⟨rfl, h⟩
  | delete =>
    obtain ⟨db₁, hdone, harchives, hdocuments, hscenes, hactions⟩ :=
      requestArchivePrivacyPurge_ok now hfind
    obtain ⟨db₂, hdone', harchives', hdocuments', hscenes', hactions'⟩ :=
      requestArchivePrivacyPurge_ok now hfind'
    unfold MemoryApi.serve
    dsimp only
    rw [hdone, hdone']
    have hown (db : MemoirDb) (hfind : db.archives.find? archive.archiveId = some archive)
        (p : MemoryArchive → Bool) (hp : p (archive.delete now) = p archive) :
        (db.archives.put (archive.delete now)).filter p
          = (db.archives.filter p).put (archive.delete now) := by
      refine Table.filter_put fun r hr => ?_
      cases hfind.symm.trans hr
      exact hp.symm
    have hsame : db₁.archives.filter (fun a => decide (a.ownerUserId = identity.userId))
        = db₂.archives.filter (fun a => decide (a.ownerUserId = identity.userId)) := by
      rw [harchives, harchives']
      split
      · exact h.archives
      · rw [hown _ hfind _ rfl, hown _ hfind' _ rfl]
        exact congrArg (Table.put · _) h.archives
    refine ⟨rfl, h.now, h.password, hsame, fun a ha => ?_, ?_, ?_, ?_⟩
    · have hold : ∃ b ∈ (s.archivesOf identity.userId).rows, b.archiveId = a.archiveId := by
        have ha : a ∈ (db₁.archives.filter
          (fun a => decide (a.ownerUserId = identity.userId))).rows := ha
        rw [harchives] at ha
        split at ha
        · exact ⟨a, ha, rfl⟩
        · rw [hown _ hfind _ rfl] at ha
          rcases Table.mem_put.mp ha with ⟨rfl, _⟩ | ⟨ha, _⟩
          · exact ⟨archive, hmem, rfl⟩
          · exact ⟨a, ha, rfl⟩
      obtain ⟨b, hb, hid⟩ := hold
      rw [← hid]
      exact h.pinned b hb
    · exact hdocuments.trans (h.documents.trans hdocuments'.symm)
    · exact hscenes.trans (h.scenes.trans hscenes'.symm)
    · exact hactions.trans (h.actions.trans hactions'.symm)
  | pin =>
    refine ⟨rfl, h.now, h.password, h.archives, fun a ha => ?_, h.documents, h.scenes, h.actions⟩
    show a.archiveId ∈ s.unpinAll identity.userId ++ [archive.archiveId] ↔
      a.archiveId ∈ s'.unpinAll identity.userId ++ [archive.archiveId]
    unfold MemoryApi.unpinAll
    rw [List.mem_append, List.mem_append, List.mem_filter, List.mem_filter, h.liveOf]
    exact or_congr_left (and_congr_left fun _ => h.pinned a ha)
  | unpin =>
    refine ⟨rfl, h.now, h.password, h.archives, fun a ha => ?_, h.documents, h.scenes, h.actions⟩
    show a.archiveId ∈ s.pinned.filter _ ↔ a.archiveId ∈ s'.pinned.filter _
    rw [List.mem_filter, List.mem_filter]
    exact and_congr_left fun _ => h.pinned a ha

/-- A setup of a user without a record. -/
theorem setup_free {t t' : Table MemoryPassword.userId} {who : Int} {password salt : String}
    (h : t.insert? ⟨who, salt, hashes.scrypt password salt, 0, none, none, none, none⟩ = some t') :
    MemoryPasswordService.setup text hashes t who password salt = (do
      MemoryPasswordService.validatePassword text password
      pure t') := by
  unfold MemoryPasswordService.setup
  rw [h]

/-- A setup of a user who has one. -/
theorem setup_taken {t : Table MemoryPassword.userId} {who : Int} {old : MemoryPassword}
    (h : t.find? who = some old) (password salt : String) :
    MemoryPasswordService.setup text hashes t who password salt = (do
      MemoryPasswordService.validatePassword text password
      .error (invalid "MEMORY_PASSWORD_ALREADY_SET")) := by
  have hnone : t.insert? ⟨who, salt, hashes.scrypt password salt, 0, none, none, none, none⟩
      = none := by
    cases hinsert : t.insert? ⟨who, salt, hashes.scrypt password salt, 0, none, none, none, none⟩ with
    | none => rfl
    | some t' =>
      have hfree : t.find? who = none := (Table.insert?_eq_some.mp hinsert).1
      rw [h] at hfree
      cases hfree
  unfold MemoryPasswordService.setup
  rw [hnone]

/-- A setup looks at the user's own record alone. -/
theorem setup_alike {t t' : Table MemoryPassword.userId} {who : Int}
    (h : t.find? who = t'.find? who) (password salt : String) :
    (∃ e, MemoryPasswordService.setup text hashes t who password salt = .error e ∧
        MemoryPasswordService.setup text hashes t' who password salt = .error e) ∨
      ∃ t₁ t₂, MemoryPasswordService.setup text hashes t who password salt = .ok t₁ ∧
        MemoryPasswordService.setup text hashes t' who password salt = .ok t₂ ∧
        t₁.find? who = t₂.find? who := by
  cases hfind : t.find? who with
  | none =>
    obtain ⟨t₁, hone⟩ := Table.exists_insert?
      (a := (⟨who, salt, hashes.scrypt password salt, 0, none, none, none, none⟩ :
        MemoryPassword)) hfind
    obtain ⟨t₂, htwo⟩ := Table.exists_insert?
      (a := (⟨who, salt, hashes.scrypt password salt, 0, none, none, none, none⟩ :
        MemoryPassword)) (h ▸ hfind)
    rw [setup_free text hashes hone, setup_free text hashes htwo]
    cases MemoryPasswordService.validatePassword text password with
    | error e => exact .inl ⟨e, rfl, rfl⟩
    | ok _ =>
      refine .inr ⟨t₁, t₂, rfl, rfl, ?_⟩
      rw [Table.find?_insert? hone, Table.find?_insert? htwo, if_pos rfl, if_pos rfl]
  | some old =>
    rw [setup_taken text hashes hfind, setup_taken text hashes (h ▸ hfind)]
    cases MemoryPasswordService.validatePassword text password with
    | error e => exact .inl ⟨e, rfl, rfl⟩
    | ok _ => exact .inl ⟨_, rfl, rfl⟩

/-- A request of the user is answered alike, and leaves the two states alike. -/
theorem handle_alike {s s' : MemoryApi} (now : Time) {request : MemoryRequest}
    (h : Alike request.identity.userId s s') :
    (s.handle text hashes now request).1 = (s'.handle text hashes now request).1 ∧
      Alike request.identity.userId (s.handle text hashes now request).2
        (s'.handle text hashes now request).2 := by
  cases request with
  | setupPassword who password salt =>
    unfold MemoryApi.handle
    dsimp only
    rcases setup_alike text hashes h.password password salt with
      ⟨e, hone, htwo⟩ | ⟨t₁, t₂, hone, htwo, hfind⟩
    · rw [show MemoryPasswordService.setup text hashes s.passwords who.userId password salt
          = .error e from hone,
        show MemoryPasswordService.setup text hashes s'.passwords who.userId password salt
          = .error e from htwo]
      cases e with
      | value code => exact ⟨rfl, h⟩
      | _ => exact ⟨rfl, h⟩
    · rw [show MemoryPasswordService.setup text hashes s.passwords who.userId password salt
          = .ok t₁ from hone,
        show MemoryPasswordService.setup text hashes s'.passwords who.userId password salt
          = .ok t₂ from htwo]
      exact ⟨rfl, h.now, hfind, h.archives, h.pinned, h.documents, h.scenes, h.actions⟩
  | verifyPassword who password credential =>
    show (s.verifyPassword hashes now who password credential).1
        = (s'.verifyPassword hashes now who password credential).1 ∧
      Alike who.userId (s.verifyPassword hashes now who password credential).2
        (s'.verifyPassword hashes now who password credential).2
    unfold MemoryApi.verifyPassword MemoryPasswordService.get
    rw [show s.passwords.find? who.userId = s'.passwords.find? who.userId from h.password]
    cases hfind : s'.passwords.find? who.userId with
    | none => exact ⟨rfl, h⟩
    | some record =>
      dsimp only [pure, Except.pure]
      cases hverify : MemoryPasswordService.verify hashes record password who.sessionId now
          credential with
      | mk result record' =>
        cases result with
        | error e =>
          cases e with
          | value code => exact ⟨rfl, h⟩
          | _ => exact ⟨rfl, h⟩
        | ok issued =>
          refine ⟨rfl, h.now, ?_, h.archives, h.pinned, h.documents, h.scenes, h.actions⟩
          show (s.passwords.put record').find? who.userId = (s'.passwords.put record').find? who.userId
          rw [Table.find?_put, Table.find?_put,
            show s.passwords.find? who.userId = s'.passwords.find? who.userId from h.password]
  | listArchives who =>
    have h : Alike who.userId s s' := h
    refine ⟨congrArg MemoryAnswer.archives ?_, h⟩
    rw [← h.liveOf]
    refine List.map_congr_left fun a ha => h.entry ?_
    rw [liveOf_eq] at ha
    exact (List.mem_filter.mp ha).1
  | archive who request archiveId unlockCredential =>
    have h : Alike who.userId s s' := h
    unfold MemoryApi.handle
    dsimp only
    rw [← h.guard]
    cases hguard : s.requireOwnedUnlockedArchive hashes now who archiveId unlockCredential
        (decide (request = .delete)) with
    | error answer => exact ⟨rfl, h⟩
    | ok a =>
      have hmem := owned_mem (requireOwnedUnlockedArchive_ok hashes hguard).1
      exact serve_alike h now hmem request

end Stranger

/-! ## Runs of requests -/

/-- The answers that the user gets. -/
def answersTo (text : PyText) (hashes : Hashes) (userId : Int) :
    MemoryApi → List (Time × MemoryRequest) → List MemoryAnswer
  | _, [] => []
  | s, r :: rs =>
    let later := answersTo text hashes userId (s.step text hashes (r.1, .request r.2)) rs
    if r.2.identity.userId = userId then s.answer text hashes r.1 r.2 :: later else later

/-- The requests of the user, at the times they come; `waited` is the time
since the one before. -/
def alone (userId : Int) : Time → List (Time × MemoryRequest) → List (Time × MemoryRequest)
  | _, [] => []
  | waited, r :: rs =>
    if r.2.identity.userId = userId then (waited + r.1, r.2) :: alone userId 0 rs
    else alone userId (waited + r.1) rs

theorem answersTo_own (text : PyText) (hashes : Hashes) (s : MemoryApi) (elapsed : Time)
    (request : MemoryRequest) (rs : List (Time × MemoryRequest)) :
    answersTo text hashes request.identity.userId s ((elapsed, request) :: rs)
      = s.answer text hashes elapsed request :: answersTo text hashes request.identity.userId
        (s.step text hashes (elapsed, .request request)) rs :=
  if_pos rfl

theorem answersTo_other (text : PyText) (hashes : Hashes) {userId : Int} (s : MemoryApi)
    (elapsed : Time) {request : MemoryRequest} (h : request.identity.userId ≠ userId)
    (rs : List (Time × MemoryRequest)) :
    answersTo text hashes userId s ((elapsed, request) :: rs)
      = answersTo text hashes userId (s.step text hashes (elapsed, .request request)) rs :=
  if_neg h

theorem alone_own (waited elapsed : Time) (request : MemoryRequest)
    (rs : List (Time × MemoryRequest)) :
    alone request.identity.userId waited ((elapsed, request) :: rs)
      = (waited + elapsed, request) :: alone request.identity.userId 0 rs :=
  if_pos rfl

theorem alone_other {userId : Int} (waited elapsed : Time) {request : MemoryRequest}
    (h : request.identity.userId ≠ userId) (rs : List (Time × MemoryRequest)) :
    alone userId waited ((elapsed, request) :: rs) = alone userId (waited + elapsed) rs :=
  if_neg h

theorem answersTo_alone (text : PyText) (hashes : Hashes) (userId : Int) :
    ∀ (rs : List (Time × MemoryRequest)) (s s' : MemoryApi) (waited : Time),
      Alike userId s (s'.wait waited) →
      answersTo text hashes userId s rs = answersTo text hashes userId s' (alone userId waited rs)
  | [], _, _, _, _ => rfl
  | r :: rs, s, s', waited, h => by
    obtain ⟨elapsed, request⟩ := r
    have hwaited : (s'.wait waited).wait elapsed = s'.wait (waited + elapsed) := by
      unfold MemoryApi.wait
      rw [← Nat.add_assoc]
    have hnow : s.backend.now + elapsed = s'.backend.now + (waited + elapsed) := by
      rw [h.now, ← Nat.add_assoc]
      rfl
    have hthen := h.wait elapsed
    rw [hwaited] at hthen
    by_cases hown : request.identity.userId = userId
    · subst hown
      obtain ⟨hanswer, hnext⟩ := handle_alike text hashes (s.backend.now + elapsed) hthen
      rw [hnow] at hanswer hnext
      rw [answersTo_own, alone_own, answersTo_own]
      refine List.cons_eq_cons.mpr ⟨?_, answersTo_alone text hashes _ rs _ _ 0 ?_⟩
      · unfold MemoryApi.answer
        rw [hnow]
        exact hanswer
      · unfold MemoryApi.step
        dsimp only
        rw [hnow]
        exact hnext
    · rw [answersTo_other text hashes s elapsed hown, alone_other waited elapsed hown]
      refine answersTo_alone text hashes userId rs _ s' (waited + elapsed) ?_
      have hsame := handle_stranger text hashes (s.wait elapsed) (s.backend.now + elapsed) hown
      exact hsame.symm.trans hthen

/-- The answers a user gets are those they would get if nobody else had
requested anything. -/
theorem strangers_change_nothing (text : PyText) (hashes : Hashes) (userId : Int) (s : MemoryApi)
    (rs : List (Time × MemoryRequest)) :
    answersTo text hashes userId s rs = answersTo text hashes userId s (alone userId 0 rs) :=
  answersTo_alone text hashes userId rs s s 0 (.refl userId s)

end AgentRuntime
