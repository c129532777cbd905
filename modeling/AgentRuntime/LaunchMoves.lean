import AgentRuntime.CallbackProjection
import AgentRuntime.RuntimeLaunch

/-!
# What launching does

One relation covers every operation that launches a run or hears from it
(`LaunchOnly`): nothing of what is published changes and no generation, a
start event keeps its run, and a start is only ever asked for while the
archive is in the generation it is asked for. The lemmas show it of each
function and at last of the loops, together with where the calls of
`start_held` come from (`CallsFrom`).
-/

namespace AgentRuntime

open Keyed

/-- The archive is there, not deleted, and in the generation `epoch`. -/
def MemoirDb.Current (db : MemoirDb) (archiveId : String) (epoch : Nat) : Prop :=
  ∃ a, db.archives.find? archiveId = some a ∧ a.deletedAt = none ∧ a.generationEpoch = epoch

/-- A start that is still to be delivered, or may be delivered again because
its run does not seem to have started. -/
def MemoirDb.Intent (db : MemoirDb) (archiveId : String) (epoch : Nat) : Prop :=
  ∃ e, db.launchEvents.find? (archiveId, epoch, .startHeld) = some e ∧
    (e.delivered = false ∨ ∃ ref, e.runId = some ref.runId ∧
      db.runRefs.find? ref.runId = some ref ∧ ref.status = "pending_start" ∧
      ref.archiveId = archiveId ∧ ref.generationEpoch = epoch)

/-- No two references are for one archive and generation. -/
def MemoirDb.OneRunEach (db : MemoirDb) : Prop :=
  ∀ r ∈ db.runRefs.rows, ∀ r' ∈ db.runRefs.rows, r.archiveId = r'.archiveId →
    r.generationEpoch = r'.generationEpoch → r = r'

/-- What is published of an archive, its generation, and whether it is
deleted. -/
def MemoryArchive.standing (a : MemoryArchive) : Nat × Nat × Option Time :=
  (a.publishedRevision, a.generationEpoch, a.deletedAt)

structure LaunchOnly (db db' : MemoirDb) : Prop where
  documents : db'.documents = db.documents
  references : db'.references = db.references
  scenes : db'.scenes = db.scenes
  actions : db'.actions = db.actions
  snapshots : db'.snapshots = db.snapshots
  archives : ∀ id,
    (db'.archives.find? id).map (·.standing) = (db.archives.find? id).map (·.standing)
  owners : ∀ id,
    (db'.archives.find? id).map (·.ownerUserId) = (db.archives.find? id).map (·.ownerUserId)
  runs : ∀ archiveId epoch e, db.launchEvents.find? (archiveId, epoch, .startHeld) = some e →
    ∃ e', db'.launchEvents.find? (archiveId, epoch, .startHeld) = some e' ∧ e'.runId = e.runId
  bindings : ∀ runId ref, db.runRefs.find? runId = some ref →
    ∃ ref', db'.runRefs.find? runId = some ref' ∧ ref'.archiveId = ref.archiveId ∧
      ref'.generationEpoch = ref.generationEpoch
  intents : ∀ archiveId epoch, db'.Intent archiveId epoch →
    db.Intent archiveId epoch ∨ db.Current archiveId epoch
  unique : db.OneRunEach → db'.OneRunEach

theorem current_congr {db db' : MemoirDb} {archiveId : String} {epoch : Nat}
    (h : (db'.archives.find? archiveId).map (·.standing)
      = (db.archives.find? archiveId).map (·.standing)) :
    db'.Current archiveId epoch ↔ db.Current archiveId epoch := by
  have hiff : ∀ db : MemoirDb, db.Current archiveId epoch ↔
      ∃ x ∈ (db.archives.find? archiveId).map (·.standing), x.2 = (epoch, none) := by
    intro db
    unfold MemoirDb.Current MemoryArchive.standing
    cases db.archives.find? archiveId with
    | none => simp
    | some a => simp [and_comm]
  rw [hiff, hiff, h]

theorem LaunchOnly.refl (db : MemoirDb) : LaunchOnly db db :=
  ⟨rfl, rfl, rfl, rfl, rfl, fun _ => rfl, fun _ => rfl, fun _ _ e he => ⟨e, he, rfl⟩,
    fun _ r hr => ⟨r, hr, rfl, rfl⟩, fun _ _ h => Or.inl h, id⟩

theorem LaunchOnly.trans {a b c : MemoirDb} (h : LaunchOnly a b) (h' : LaunchOnly b c) :
    LaunchOnly a c where
  documents := h'.documents.trans h.documents
  references := h'.references.trans h.references
  scenes := h'.scenes.trans h.scenes
  actions := h'.actions.trans h.actions
  snapshots := h'.snapshots.trans h.snapshots
  archives id := (h'.archives id).trans (h.archives id)
  owners id := (h'.owners id).trans (h.owners id)
  runs archiveId epoch e he := by
    obtain ⟨e', he', hrun⟩ := h.runs archiveId epoch e he
    obtain ⟨e'', he'', hrun'⟩ := h'.runs archiveId epoch e' he'
    exact ⟨e'', he'', hrun'.trans hrun⟩
  bindings runId r hr := by
    obtain ⟨r', hr', ha, hg⟩ := h.bindings runId r hr
    obtain ⟨r'', hr'', ha', hg'⟩ := h'.bindings runId r' hr'
    exact ⟨r'', hr'', ha'.trans ha, hg'.trans hg⟩
  intents archiveId epoch hi := by
    rcases h'.intents archiveId epoch hi with hi | hcur
    · exact h.intents archiveId epoch hi
    · exact Or.inr ((current_congr (h.archives archiveId)).mp hcur)
  unique hu := h'.unique (h.unique hu)

/-! ## One row -/

theorem LaunchOnly.putArchive {db : MemoirDb} {a a' : MemoryArchive}
    (hfind : db.archives.find? a'.archiveId = some a) (hsame : a'.standing = a.standing)
    (howner : a'.ownerUserId = a.ownerUserId) :
    LaunchOnly db { db with archives := db.archives.put a' } := by
  have hput {β : Type} (f : MemoryArchive → β) (hf : f a' = f a) (id : String) :
      ((db.archives.put a').find? id).map f = (db.archives.find? id).map f := by
    rw [Table.find?_put]
    by_cases hk : id = a'.archiveId
    · rw [if_pos hk, hk, hfind]
      exact congrArg some hf
    · rw [if_neg hk]
  exact ⟨rfl, rfl, rfl, rfl, rfl, hput _ hsame, hput _ howner, fun _ _ e he => ⟨e, he, rfl⟩,
    fun _ r hr => ⟨r, hr, rfl, rfl⟩, fun _ _ h => Or.inl h, id⟩

/-- A reference is overwritten by one for the same run, archive and
generation, and does not go back to waiting for its start. -/
theorem LaunchOnly.putRef {db : MemoirDb} {ref ref' : MemoryAgentRunRef}
    (hfind : db.runRefs.find? ref'.runId = some ref) (harchive : ref'.archiveId = ref.archiveId)
    (hepoch : ref'.generationEpoch = ref.generationEpoch)
    (hstatus : ref'.status = "pending_start" → ref.status = "pending_start") :
    LaunchOnly db { db with runRefs := db.runRefs.put ref' } := by
  have hrun : ref.runId = ref'.runId := Table.key_of_find? hfind
  refine ⟨rfl, rfl, rfl, rfl, rfl, fun _ => rfl, fun _ => rfl, fun _ _ e he => ⟨e, he, rfl⟩, ?_, ?_, ?_⟩
  · intro runId r hr
    show ∃ r', (db.runRefs.put ref').find? runId = some r' ∧ _
    rw [Table.find?_put]
    by_cases hk : runId = ref'.runId
    · rw [hk, hfind] at hr
      cases hr
      rw [if_pos hk, hk, hfind]
      exact ⟨ref', rfl, harchive, hepoch⟩
    · rw [if_neg hk]
      exact ⟨r, hr, rfl, rfl⟩
  · rintro archiveId epoch ⟨e, he, hwhy⟩
    refine Or.inl ⟨e, he, hwhy.imp_right ?_⟩
    rintro ⟨r, hr, hput, hpending, ha, hg⟩
    have hput : (db.runRefs.put ref').find? r.runId = some r := hput
    rw [Table.find?_put] at hput
    by_cases hk : r.runId = ref'.runId
    · rw [if_pos hk, hk, hfind] at hput
      cases Option.some.inj hput
      exact ⟨ref, hr.trans (congrArg some hrun.symm), by rw [hrun, hfind], hstatus hpending,
        harchive.symm.trans ha, hepoch.symm.trans hg⟩
    · rw [if_neg hk] at hput
      exact ⟨r, hr, hput, hpending, ha, hg⟩
  · -- The keys of the rows are those of before.
    intro hu x hx y hy hxy hxy'
    have hback : ∀ z ∈ (db.runRefs.put ref').rows, ∃ w ∈ db.runRefs.rows, w.runId = z.runId ∧
        w.archiveId = z.archiveId ∧ w.generationEpoch = z.generationEpoch := by
      intro z hz
      rcases Table.mem_put.mp hz with ⟨rfl, _⟩ | ⟨hz, _⟩
      · exact ⟨ref, Table.mem_of_find? hfind, hrun, harchive.symm, hepoch.symm⟩
      · exact ⟨z, hz, rfl, rfl, rfl⟩
    obtain ⟨x₀, hx₀, hrx, hax, hex⟩ := hback x hx
    obtain ⟨y₀, hy₀, hry, hay, hey⟩ := hback y hy
    have hsame := hu x₀ hx₀ y₀ hy₀ (hax.trans (hxy.trans hay.symm))
      (hex.trans (hxy'.trans hey.symm))
    refine List.inj_on_of_nodup_map (Table.nodup _) hx hy ?_
    rw [← hrx, ← hry, hsame]

/-- A reference is added, for the generation the archive is in. -/
theorem LaunchOnly.addRef {db : MemoirDb} {ref : MemoryAgentRunRef}
    {refs : Table MemoryAgentRunRef.runId} (hinsert : db.runRefs.insert? ref = some refs)
    (hfree : ∀ r ∈ db.runRefs.rows,
      ¬ (r.archiveId = ref.archiveId ∧ r.generationEpoch = ref.generationEpoch))
    (hcurrent : db.Current ref.archiveId ref.generationEpoch) :
    LaunchOnly db { db with runRefs := refs } := by
  obtain ⟨hnone, hrows⟩ := Table.insert?_eq_some.mp hinsert
  refine ⟨rfl, rfl, rfl, rfl, rfl, fun _ => rfl, fun _ => rfl, fun _ _ e he => ⟨e, he, rfl⟩, ?_, ?_, ?_⟩
  · intro runId r hr
    refine ⟨r, ?_, rfl, rfl⟩
    show refs.find? runId = some r
    rw [Table.find?_insert? hinsert, if_neg, hr]
    intro hk
    rw [hk, hnone] at hr
    cases hr
  · rintro archiveId epoch ⟨e, he, hwhy⟩
    rcases hwhy with hwhy | ⟨r, hr, hfind, hpending, ha, hg⟩
    · exact Or.inl ⟨e, he, Or.inl hwhy⟩
    · have hfind : refs.find? r.runId = some r := hfind
      rw [Table.find?_insert? hinsert] at hfind
      split at hfind
      · cases Option.some.inj hfind
        rw [← ha, ← hg]
        exact Or.inr hcurrent
      · exact Or.inl ⟨e, he, Or.inr ⟨r, hr, hfind, hpending, ha, hg⟩⟩
  · intro hu x hx y hy hxy hxy'
    have hmem : ∀ z ∈ refs.rows, z ∈ db.runRefs.rows ∨ z = ref := fun z hz => by
      rw [hrows, List.mem_append, List.mem_singleton] at hz
      exact hz
    rcases hmem x hx with hx | rfl
    · rcases hmem y hy with hy | rfl
      · exact hu x hx y hy hxy hxy'
      · exact absurd ⟨hxy, hxy'⟩ (hfree x hx)
    · rcases hmem y hy with hy | rfl
      · exact absurd ⟨hxy.symm, hxy'.symm⟩ (hfree y hy)
      · rfl

/-- An event is overwritten, after what led from `base` to `db`; one of a
start keeps its run, and is pending again only where there was a start to
deliver. -/
theorem LaunchOnly.putEvent {base db : MemoirDb} {e e' : MemoryRuntimeLaunchEvent}
    (h : LaunchOnly base db) (hfind : db.launchEvents.find? e'.key = some e)
    (hstart : e'.phase = .startHeld → e'.runId = e.runId ∧
      (e'.delivered = false → base.Intent e'.archiveId e'.generationEpoch)) :
    LaunchOnly base { db with launchEvents := db.launchEvents.put e' } := by
  refine ⟨h.documents, h.references, h.scenes, h.actions, h.snapshots, h.archives, h.owners, ?_,
    h.bindings, ?_, h.unique⟩
  · intro archiveId epoch x hx
    obtain ⟨y, hy, hrun⟩ := h.runs archiveId epoch x hx
    show ∃ y, (db.launchEvents.put e').find? _ = some y ∧ _
    rw [Table.find?_put]
    by_cases hk : (archiveId, epoch, LaunchPhase.startHeld) = e'.key
    · rw [hk, hfind] at hy
      cases hy
      rw [if_pos hk, hk, hfind]
      exact ⟨e', rfl, (hstart (congrArg (·.2.2) hk).symm).1.trans hrun⟩
    · rw [if_neg hk]
      exact ⟨y, hy, hrun⟩
  · rintro archiveId epoch ⟨x, hx, hwhy⟩
    have hx : (db.launchEvents.put e').find? (archiveId, epoch, .startHeld) = some x := hx
    rw [Table.find?_put] at hx
    by_cases hk : (archiveId, epoch, LaunchPhase.startHeld) = e'.key
    · rw [if_pos hk, hk, hfind] at hx
      cases Option.some.inj hx
      obtain ⟨hrun, hpending⟩ := hstart (congrArg (·.2.2) hk).symm
      rcases hwhy with hwhy | ⟨r, hr, hrest⟩
      · have ha : archiveId = e'.archiveId := congrArg (·.1) hk
        have hg : epoch = e'.generationEpoch := congrArg (·.2.1) hk
        rw [ha, hg]
        exact Or.inl (hpending hwhy)
      · exact h.intents _ _ ⟨e, by rw [hk, hfind], Or.inr ⟨r, hrun.symm.trans hr, hrest⟩⟩
    · rw [if_neg hk] at hx
      exact h.intents _ _ ⟨x, hx, hwhy⟩

/-- An event of a creation is overwritten. -/
theorem LaunchOnly.putCreated {db : MemoirDb} {e : MemoryRuntimeLaunchEvent}
    (hphase : e.phase = .createHeld) :
    LaunchOnly db { db with launchEvents := db.launchEvents.put e } := by
  have hsame : ∀ archiveId epoch, (db.launchEvents.put e).find? (archiveId, epoch, .startHeld)
      = db.launchEvents.find? (archiveId, epoch, .startHeld) := fun archiveId epoch =>
    Table.find?_put_ne fun hk => by
      have hstart : LaunchPhase.startHeld = e.phase := congrArg (·.2.2) hk
      rw [hphase] at hstart
      cases hstart
  refine ⟨rfl, rfl, rfl, rfl, rfl, fun _ => rfl, fun _ => rfl, fun archiveId epoch x hx => ⟨x, ?_, rfl⟩,
    fun _ r hr => ⟨r, hr, rfl, rfl⟩, ?_, id⟩
  · exact (hsame archiveId epoch).trans hx
  · rintro archiveId epoch ⟨x, hx, hwhy⟩
    exact Or.inl ⟨x, (hsame archiveId epoch).symm.trans hx, hwhy⟩

/-- An event is added; a start, for the generation the archive is in. -/
theorem LaunchOnly.addEvent {db : MemoirDb} {e : MemoryRuntimeLaunchEvent}
    {events : Table MemoryRuntimeLaunchEvent.key} (hinsert : db.launchEvents.insert? e = some events)
    (hstart : e.phase = .startHeld → db.Current e.archiveId e.generationEpoch) :
    LaunchOnly db { db with launchEvents := events } := by
  obtain ⟨hnone, _⟩ := Table.insert?_eq_some.mp hinsert
  refine ⟨rfl, rfl, rfl, rfl, rfl, fun _ => rfl, fun _ => rfl, ?_, fun _ r hr => ⟨r, hr, rfl, rfl⟩, ?_, id⟩
  · intro archiveId epoch x hx
    refine ⟨x, ?_, rfl⟩
    show events.find? _ = some x
    rw [Table.find?_insert? hinsert, if_neg, hx]
    intro hk
    rw [hk, hnone] at hx
    cases hx
  · rintro archiveId epoch ⟨x, hx, hwhy⟩
    have hx : events.find? (archiveId, epoch, .startHeld) = some x := hx
    rw [Table.find?_insert? hinsert] at hx
    by_cases hk : (archiveId, epoch, LaunchPhase.startHeld) = e.key
    · have ha : archiveId = e.archiveId := congrArg (·.1) hk
      have hg : epoch = e.generationEpoch := congrArg (·.2.1) hk
      rw [ha, hg]
      exact Or.inr (hstart (congrArg (·.2.2) hk).symm)
    · rw [if_neg hk] at hx
      exact Or.inl ⟨x, hx, hwhy⟩

theorem insertLaunchEvent_ok {db db' : MemoirDb} {event : MemoryRuntimeLaunchEvent}
    (h : insertLaunchEvent db event = .ok db') :
    ∃ events, db.launchEvents.insert? event = some events ∧
      db' = { db with launchEvents := events } := by
  obtain ⟨_, _, h⟩ := bind_ok.mp h
  split at h
  · cases h
  · next events hinsert =>
    cases h
    exact ⟨events, hinsert, rfl⟩

theorem insertRunRef_ok {db db' : MemoirDb} {ref : MemoryAgentRunRef}
    (h : insertRunRef db ref = .ok db') :
    (∀ r ∈ db.runRefs.rows, ¬ (r.archiveId = ref.archiveId ∧
      r.generationEpoch = ref.generationEpoch)) ∧
      ∃ refs, db.runRefs.insert? ref = some refs ∧ db' = { db with runRefs := refs } := by
  obtain ⟨_, hfree, h⟩ := bind_ok.mp h
  split at h
  · cases h
  · next refs hinsert =>
    cases h
    exact ⟨fun r hr => of_decide_eq_true (List.all_eq_true.mp (require_ok.mp hfree) r hr),
      refs, hinsert, rfl⟩

namespace MemoryAgentBindingService

/-- A binding completes a reference that is there, or adds one and makes its
run the active one. -/
theorem bind_ok {stored db db' : MemoirDb} {now : Time} {archiveId runId : String} {epoch : Nat}
    {m : LifecycleMetadata} {ref : MemoryAgentRunRef}
    (h : bind stored db now archiveId runId epoch m = .ok (db', ref)) :
    ∃ archive, db.liveArchive? archiveId = some archive ∧ archive.generationEpoch = epoch ∧
      ref.runId = runId ∧ ref.archiveId = archiveId ∧ ref.generationEpoch = epoch ∧
      ((∃ existing, db.runRefs.find? runId = some existing ∧ existing.archiveId = archiveId ∧
          existing.generationEpoch = epoch ∧ ref = existing.fillMissing now m ∧
          db' = { db with runRefs := db.runRefs.put ref }) ∨
        (ref.status = "pending_start" ∧
          (∀ r ∈ db.runRefs.rows, ¬ (r.archiveId = archiveId ∧ r.generationEpoch = epoch)) ∧
          ∃ refs, db.runRefs.insert? ref = some refs ∧ db' = { db with
            archives := db.archives.put { archive with activeRunId := some runId }
            runRefs := refs })) := by
  unfold bind at h
  cases hlive : db.liveArchive? archiveId with
  | none => rw [hlive] at h; cases h
  | some archive =>
    rw [hlive] at h
    obtain ⟨_, hepoch, h⟩ := AgentRuntime.bind_ok.mp h
    refine ⟨archive, rfl, require_ok.mp hepoch, ?_⟩
    cases hseen : seenRef stored db runId with
    | some existing =>
      rw [hseen] at h
      obtain ⟨_, hsame, h⟩ := AgentRuntime.bind_ok.mp h
      obtain ⟨harchive, hepoch'⟩ := require_ok.mp hsame
      cases h
      have hfind : db.runRefs.find? runId = some existing := by
        unfold seenRef at hseen
        split at hseen
        · exact hseen
        · cases hseen
      have hrun : existing.runId = runId := Table.key_of_find? hfind
      exact ⟨hrun, harchive, hepoch', Or.inl ⟨existing, hfind, harchive, hepoch', rfl, rfl⟩⟩
    | none =>
      rw [hseen] at h
      obtain ⟨_, _, h⟩ := AgentRuntime.bind_ok.mp h
      obtain ⟨db₁, hinsert, h⟩ := AgentRuntime.bind_ok.mp h
      cases h
      obtain ⟨hfree, refs, hadd, rfl⟩ := insertRunRef_ok hinsert
      exact ⟨rfl, rfl, rfl, Or.inr ⟨rfl, hfree, refs, hadd, rfl⟩⟩

/-- A binding is made in the generation the archive is in, and touches no
event. -/
theorem bind_moves {stored db db' : MemoirDb} {now : Time} {archiveId runId : String}
    {epoch : Nat} {m : LifecycleMetadata} {ref : MemoryAgentRunRef}
    (h : bind stored db now archiveId runId epoch m = .ok (db', ref)) :
    LaunchOnly db db' ∧ db'.Current archiveId epoch ∧ db'.launchEvents = db.launchEvents ∧
      db'.runRefs.find? ref.runId = some ref := by
  obtain ⟨archive, hlive, hepoch, hrun, harchive, hgen, hwhich⟩ := bind_ok h
  obtain ⟨hfind, hdeleted⟩ := Option.filter_eq_some_iff.mp hlive
  have hcurrent : db.Current archiveId epoch := ⟨archive, hfind, by simpa using hdeleted, hepoch⟩
  rcases hwhich with ⟨existing, hexisting, ha, hg, rfl, rfl⟩ | ⟨hpending, hfree, refs, hadd, rfl⟩
  · have hput : (db.runRefs.put (existing.fillMissing now m)).find?
        (existing.fillMissing now m).runId = some (existing.fillMissing now m) :=
      Table.find?_put_self (by rw [hrun]; exact hexisting)
    have hself : db.runRefs.find? (existing.fillMissing now m).runId = some existing := by
      rw [hrun, hexisting]
    exact ⟨.putRef hself rfl rfl id, hcurrent, rfl, hput⟩
  · have hname : archive.archiveId = archiveId := Table.key_of_find? hfind
    have hactive : LaunchOnly db
        { db with archives := db.archives.put { archive with activeRunId := some runId } } :=
      .putArchive (a := archive) (by
        show db.archives.find? archive.archiveId = some archive
        rw [hname, hfind]) rfl rfl
    have hcurrent' := (current_congr (hactive.archives archiveId)).mpr hcurrent
    refine ⟨hactive.trans (.addRef hadd ?_ ?_), hcurrent', rfl, ?_⟩
    · rw [harchive, hgen]
      exact hfree
    · rw [harchive, hgen]
      exact hcurrent'
    · show refs.find? ref.runId = some ref
      rw [Table.find?_insert? hadd, if_pos rfl]

end MemoryAgentBindingService

/-! ## Deliveries -/

/-- The calls are for starts that are asked for, or that the archive is in
the generation of, and they find the archive as it is. -/
def CallsFrom (db : MemoirDb) (calls : List StartCall) : Prop :=
  ∀ c ∈ calls, (db.Intent c.archiveId c.generationEpoch ∨ db.Current c.archiveId c.generationEpoch) ∧
    c.archive.map (·.standing) = (db.archives.find? c.archiveId).map (·.standing)

theorem CallsFrom.back {db db' : MemoirDb} {calls : List StartCall} (h : LaunchOnly db db')
    (hc : CallsFrom db' calls) : CallsFrom db calls := by
  intro c hmem
  obtain ⟨hwhy, harchive⟩ := hc c hmem
  refine ⟨?_, harchive.trans (h.archives c.archiveId)⟩
  rcases hwhy with hwhy | hwhy
  · exact h.intents _ _ hwhy
  · exact Or.inr ((current_congr (h.archives c.archiveId)).mp hwhy)

/-- An operation that launches, from the database `db` on. -/
structure Launches (db : MemoirDb) (out : Result MemoirDb × List StartCall) : Prop where
  done : ∀ db', out.1 = .ok db' → LaunchOnly db db'
  calls : CallsFrom db out.2

theorem Launches.back {db db' : MemoirDb} {out : Result MemoirDb × List StartCall}
    (h : LaunchOnly db db') (hout : Launches db' out) : Launches db out :=
  ⟨fun db'' hd => h.trans (hout.done db'' hd), hout.calls.back h⟩

theorem Launches.silent {db : MemoirDb} {r : Result MemoirDb}
    (h : ∀ db', r = .ok db' → LaunchOnly db db') : Launches db (r, []) :=
  ⟨h, fun _ hc => nomatch hc⟩

namespace MemoryRuntimeLaunchService

theorem enqueueStart_moves {stored db db' : MemoirDb} {now : Time}
    {event : MemoryRuntimeLaunchEvent} {runId eventId : String}
    (hcurrent : db.Current event.archiveId event.generationEpoch)
    (h : enqueueStart stored db now event runId eventId = .ok db') :
    LaunchOnly db db' ∧ ∀ e, db.launchEvents.find? e.key = some e →
      db'.launchEvents.find? e.key = some e := by
  unfold enqueueStart at h
  split at h
  · cases h
    exact ⟨.refl _, fun _ he => he⟩
  · obtain ⟨events, hinsert, rfl⟩ := insertLaunchEvent_ok h
    refine ⟨.addEvent hinsert fun _ => hcurrent, fun e he => ?_⟩
    show events.find? e.key = some e
    rw [Table.find?_insert? hinsert, if_neg, he]
    intro hk
    rw [hk, (Table.insert?_eq_some.mp hinsert).1] at he
    cases he

theorem enqueue_moves {db db' : MemoirDb} {now : Time} {archiveId eventId : String}
    (h : enqueue db now archiveId eventId = .ok db') : LaunchOnly db db' := by
  unfold enqueue at h
  split at h
  · cases h
  · split at h
    · cases h
    · split at h
      · cases h
        exact .refl _
      · obtain ⟨_, hinsert, rfl⟩ := insertLaunchEvent_ok h
        exact .addEvent hinsert fun hstart => nomatch hstart

section Deliver

variable {g : RuntimeGateway} {stored db : MemoirDb} {now : Time}
  {event : MemoryRuntimeLaunchEvent}

theorem createFailed_moves (hphase : event.phase = .createHeld) (runId : Option String) :
    LaunchOnly db (createFailed db now event runId) := by
  unfold createFailed
  split
  · exact .putCreated hphase
  · exact .putCreated hphase

theorem deliverCreate_moves {eventId : String} (hphase : event.phase = .createHeld)
    {r : MemoirDb × Bool} (h : deliverCreate g stored db now event eventId = .ok r) :
    LaunchOnly db r.1 := by
  unfold deliverCreate at h
  cases hcreate : g.createHeld (launchKey "create" event.archiveId event.generationEpoch) with
  | none =>
    rw [hcreate] at h
    cases h
    exact createFailed_moves hphase _
  | some held =>
    rw [hcreate] at h
    dsimp only at h
    split at h
    · cases h
    · cases h
      exact createFailed_moves hphase (some held.runId)
    · next db₁ ref hbind =>
      obtain ⟨hbound, hcurrent, _, _⟩ := MemoryAgentBindingService.bind_moves hbind
      obtain ⟨db₂, henqueue, h⟩ := bind_ok.mp h
      cases h
      have hput : LaunchOnly db₁
          (putEvent db₁ ({ event with runId := some held.runId }.markDelivered now)) :=
        .putCreated hphase
      have hcurrent' := (current_congr (hput.archives event.archiveId)).mpr hcurrent
      exact hbound.trans (hput.trans (enqueueStart_moves hcurrent' henqueue).1)

/-- Where a start is asked for, delivering it launches and nothing else. -/
theorem deliverStart_moves {old : MemoryRuntimeLaunchEvent}
    (hfind : db.launchEvents.find? event.key = some old) (hrun : event.runId = old.runId)
    (hintent : db.Intent event.archiveId event.generationEpoch) :
    Launches db ((deliverStart g stored db now event).1.map (·.1),
      (deliverStart g stored db now event).2) := by
  have hpending : LaunchOnly db
      (putEvent db (event.markPending now "MEMORY_RUNTIME_START_FAILED")) :=
    (LaunchOnly.refl db).putEvent hfind fun _ => ⟨hrun, fun _ => hintent⟩
  unfold deliverStart
  cases hid : event.runId with
  | none => exact .silent fun _ h => nomatch h
  | some runId =>
    dsimp only
    have hcalls : CallsFrom db [⟨runId, event.archiveId, event.generationEpoch,
        db.archives.find? event.archiveId⟩] := by
      intro c hc
      rw [List.mem_singleton] at hc
      subst hc
      exact ⟨Or.inl hintent, rfl⟩
    split
    · refine ⟨fun db' hdone => ?_, hcalls⟩
      dsimp only at hdone
      unfold bindStarted at hdone
      split at hdone
      · cases hdone
      · cases hdone
        exact hpending
      · next db₁ ref hbind =>
        cases hdone
        obtain ⟨hbound, _, hevents, href⟩ := MemoryAgentBindingService.bind_moves hbind
        have hstarted : LaunchOnly db₁
            { db₁ with runRefs := db₁.runRefs.put (ref.noteStarted now) } := by
          unfold MemoryAgentRunRef.noteStarted
          split
          · next hpending => exact LaunchOnly.putRef (show db₁.runRefs.find? _ = some ref from href) rfl rfl fun _ => hpending
          · exact .putRef href rfl rfl id
        refine (hbound.trans hstarted).putEvent (e := old) ?_ fun _ => ⟨hrun, ?_⟩
        · show db₁.launchEvents.find? event.key = some old
          rw [hevents, hfind]
        · exact fun hno => nomatch hno
    · refine ⟨fun db' hdone => ?_, hcalls⟩
      cases hdone
      exact hpending

/-- Delivering an event launches and nothing else. -/
theorem deliverEvent_moves {newEventId : String}
    (hfind : db.launchEvents.find? event.key = some event) :
    Launches db ((deliverEvent g stored db now event newEventId).1.map (·.1),
      (deliverEvent g stored db now event newEventId).2) := by
  unfold deliverEvent
  split
  · exact .silent fun _ h => by cases h; exact .refl _
  · next hpending =>
    split
    · next hphase =>
      refine .silent fun db' hdone => ?_
      dsimp only at hdone
      cases hcreate : deliverCreate g stored db now event newEventId with
      | error e => rw [hcreate] at hdone; cases hdone
      | ok r =>
        rw [hcreate] at hdone
        cases hdone
        exact deliverCreate_moves hphase hcreate
    · next hphase =>
      have hkey : event.key = (event.archiveId, event.generationEpoch, .startHeld) := by
        rw [← hphase]
        rfl
      refine deliverStart_moves hfind rfl ⟨event, by rw [← hkey, hfind], Or.inl ?_⟩
      simpa using hpending

theorem deliverNext_moves {newEventId : String → String} {eventId : String} :
    Launches db (deliverNext g stored db now newEventId eventId) := by
  unfold deliverNext deliver eventById
  cases hrow : db.launchEvents.rows.find? (fun e => decide (e.eventId = eventId)) with
  | none => exact .silent fun _ h => nomatch h
  | some event => exact deliverEvent_moves (Table.find?_of_mem (List.mem_of_find?_eq_some hrow))

end Deliver

/-! ## Loops -/

/-- A loop launches when its every turn does, from any state the turns
before may have left. -/
theorem sweep_moves {α : Type} {db : MemoirDb}
    {one : MemoirDb → α → Result MemoirDb × List StartCall} :
    ∀ (rows : List α) (db₁ : MemoirDb), LaunchOnly db db₁ →
      (∀ db₁, LaunchOnly db db₁ → ∀ row ∈ rows, Launches db (one db₁ row)) →
      Launches db (sweep one db₁ rows)
  | [], db₁, h, _ => .silent fun db' hdone => by cases hdone; exact h
  | row :: rows, db₁, h, hone => by
    have hturn := hone db₁ h row List.mem_cons_self
    have hrest : ∀ db₂, LaunchOnly db db₂ → Launches db (sweep one db₂ rows) := fun db₂ h₂ =>
      sweep_moves rows db₂ h₂ fun db₃ h₃ row' hrow' =>
        hone db₃ h₃ row' (List.mem_cons_of_mem _ hrow')
    have happend : ∀ {calls calls'}, CallsFrom db calls → CallsFrom db calls' →
        CallsFrom db (calls ++ calls') := fun hc hc' c hmem =>
      (List.mem_append.mp hmem).elim (hc c) (hc' c)
    unfold sweep
    split
    · next db₂ calls heq =>
      rw [heq] at hturn
      have hnext := hrest db₂ (hturn.done db₂ rfl)
      exact ⟨hnext.done, happend hturn.calls hnext.calls⟩
    · next calls heq =>
      rw [heq] at hturn
      exact ⟨fun _ hdone => (nomatch hdone), happend hturn.calls (hrest db₁ h).calls⟩
    · next calls _ heq =>
      rw [heq] at hturn
      exact ⟨fun _ hdone => (nomatch hdone), hturn.calls⟩

theorem deliverPending_moves {g : RuntimeGateway} {db : MemoirDb} {now : Time} {limit : Nat}
    {newEventId : String → String} : Launches db (deliverPending g db now limit newEventId) :=
  sweep_moves _ db (.refl db) fun _ h _ _ => deliverNext_moves.back h

theorem noteUnstarted_moves {db : MemoirDb} {ref : MemoryAgentRunRef}
    (hfind : db.runRefs.find? ref.runId = some ref) (now : Time) :
    LaunchOnly db { db with runRefs := db.runRefs.put (ref.noteUnstarted now) } :=
  .putRef (show db.runRefs.find? (ref.noteUnstarted now).runId = some ref from hfind) rfl rfl id

theorem seenEvent_ok {stored db : MemoirDb} {key : String × Nat × LaunchPhase}
    {e : MemoryRuntimeLaunchEvent} (h : seenEvent stored db key = some e) :
    db.launchEvents.find? key = some e ∧ ∃ e₀, stored.launchEvents.find? key = some e₀ := by
  unfold seenEvent at h
  split at h
  · next hsome => exact ⟨h, Option.isSome_iff_exists.mp hsome⟩
  · cases h

/-- A run that was waiting for its start, after the turns before. -/
theorem reconcileStart_moves {g : RuntimeGateway} {stored db : MemoirDb} {now : Time}
    {ref₀ : MemoryAgentRunRef} (h : LaunchOnly stored db)
    (hfind₀ : stored.runRefs.find? ref₀.runId = some ref₀) (hpending : ref₀.status = "pending_start") :
    Launches stored (reconcileStart g stored db now ref₀.runId) := by
  unfold reconcileStart
  obtain ⟨ref, href, harchive, hepoch⟩ := h.bindings _ _ hfind₀
  have hkey : ref.runId = ref₀.runId := Table.key_of_find? href
  have hnote : LaunchOnly stored { db with runRefs := db.runRefs.put (ref.noteUnstarted now) } :=
    h.trans (noteUnstarted_moves (by rw [hkey, href]) now)
  rw [href]
  dsimp only
  split
  · exact .silent fun _ hdone => by cases hdone; exact h
  · split
    · exact .silent fun _ hdone => by cases hdone; exact hnote
    · next event hseen =>
      split
      · next hrun =>
        obtain ⟨hevent, e₀, he₀⟩ := seenEvent_ok hseen
        have hplace : event.key = (ref.archiveId, ref.generationEpoch, .startHeld) :=
          Table.key_of_find? hevent
        -- The stored event is of the same run, so the start was asked for.
        have hintent : stored.Intent event.archiveId event.generationEpoch := by
          obtain ⟨e', he', hsame⟩ := h.runs _ _ e₀ he₀
          rw [hevent] at he'
          cases he'
          have ha : event.archiveId = ref.archiveId := congrArg (·.1) hplace
          have hg : event.generationEpoch = ref.generationEpoch := congrArg (·.2.1) hplace
          rw [ha, hg]
          exact ⟨e₀, he₀, Or.inr ⟨ref₀, hsame.symm.trans hrun, hfind₀, hpending, harchive.symm,
            hepoch.symm⟩⟩
        have hself : db.launchEvents.find? event.key = some event := by rw [hplace, hevent]
        have hput : LaunchOnly stored (putEvent db { event with delivered := false }) :=
          h.putEvent (e := event) hself fun _ => ⟨rfl, fun _ => hintent⟩
        have hnow : (putEvent db { event with delivered := false }).launchEvents.find? event.key
            = some { event with delivered := false } := by
          show (db.launchEvents.put _).find? (MemoryRuntimeLaunchEvent.key _) = _
          exact Table.find?_put_self hself
        exact (deliverEvent_moves hnow).back hput
      · exact .silent fun _ hdone => by cases hdone; exact hnote

theorem reconcilePendingStart_moves {g : RuntimeGateway} {db : MemoirDb} {now : Time} :
    Launches db (reconcilePendingStart g db now) := by
  refine sweep_moves _ db (.refl db) fun db₁ h runId hrun => ?_
  obtain ⟨ref, href, rfl⟩ := List.mem_map.mp hrun
  obtain ⟨hmem, hpending⟩ := List.mem_filter.mp href
  exact reconcileStart_moves h (Table.find?_of_mem hmem) (of_decide_eq_true hpending)

/-- Recovering or cancelling an orphan. -/
theorem recoverOrphan_moves {g : RuntimeGateway} {stored db db' : MemoirDb} {now : Time}
    {event : MemoryRuntimeLaunchEvent} (hphase : event.phase = .createHeld) {held : RuntimeHeldRun}
    {eventId : String} (h : recoverOrphan g stored db now event held eventId = .ok db') :
    LaunchOnly db db' := by
  have hcancel : LaunchOnly db (cancelOrphan g db now event held.runId) := by
    unfold cancelOrphan
    split
    · exact .putCreated hphase
    · exact .putCreated hphase
  unfold recoverOrphan at h
  split at h
  · split at h
    · cases h
    · cases h
      exact hcancel
    · next db₁ ref hbind =>
      obtain ⟨hbound, hcurrent, _, _⟩ := MemoryAgentBindingService.bind_moves hbind
      obtain ⟨db₂, henqueue, h⟩ := bind_ok.mp h
      cases h
      exact hbound.trans ((enqueueStart_moves hcurrent henqueue).1.trans (.putCreated hphase))
  · cases h
    exact hcancel

theorem reconcileOrphan_moves {g : RuntimeGateway} {stored db db' : MemoirDb} {now : Time}
    {event : MemoryRuntimeLaunchEvent} (hphase : event.phase = .createHeld)
    {runId eventId : String} (h : reconcileOrphan g stored db now event runId eventId = .ok db') :
    LaunchOnly db db' := by
  unfold reconcileOrphan at h
  split at h
  · cases h
    exact .refl _
  · split at h
    · cases h
      exact .refl _
    · split at h
      · cases h
      · cases h
        exact .putCreated hphase
      · split at h
        · exact recoverOrphan_moves hphase h
        · cases h
          exact .putCreated hphase

theorem reconcileOrphans_moves {g : RuntimeGateway} {stored : MemoirDb} {now : Time}
    {newEventId : String → String} :
    ∀ {events : List MemoryRuntimeLaunchEvent} {db db' : MemoirDb},
      (∀ e ∈ events, e.phase = .createHeld) →
      reconcileOrphans g stored now newEventId db events = .ok db' → LaunchOnly db db'
  | [], _, _, _, h => by cases h; exact .refl _
  | event :: events, db, db', hphase, h => by
    have hrest := fun e he => hphase e (List.mem_cons_of_mem event he)
    unfold reconcileOrphans at h
    split at h
    · exact reconcileOrphans_moves hrest h
    · obtain ⟨db₁, hone, h⟩ := bind_ok.mp h
      exact (reconcileOrphan_moves (hphase event List.mem_cons_self) hone).trans
        (reconcileOrphans_moves hrest h)

theorem reconcileOrphanedCreate_moves {g : RuntimeGateway} {db db' : MemoirDb} {now : Time}
    {newEventId : String → String} (h : reconcileOrphanedCreate g db now newEventId = .ok db') :
    LaunchOnly db db' := by
  refine reconcileOrphans_moves (fun e he => ?_) h
  have := (List.mem_filter.mp he).2
  simp only [Bool.and_eq_true, decide_eq_true_eq] at this
  exact this.1

end MemoryRuntimeLaunchService

/-! ## Callbacks -/

/-- A callback never takes a run back to waiting for its start. -/
theorem statusByEvent_ne (event : RunEvent) :
    MemoryAgentCallbackService.statusByEvent event ≠ "pending_start" := by
  cases event <;> decide

theorem deliverCallback_moves (db : MemoirDb) (d : Delivery) :
    LaunchOnly db (deliverCallback db d) := by
  unfold deliverCallback
  cases happly : MemoryAgentCallbackService.apply db d.now d.payload with
  | error _ => exact .refl db
  | ok r =>
    obtain ⟨c, ref, archive, _, htarget, rfl⟩ := apply_ok.mp happly
    have hrun : ref.runId = c.runId := Table.key_of_find? htarget.bound
    have hself : db.runRefs.find? ref.runId = some ref := by rw [hrun, htarget.bound]
    show LaunchOnly db (MemoryAgentCallbackService.applyTo db d.now c ref archive).1
    unfold MemoryAgentCallbackService.applyTo
    split
    · exact .refl db
    · split
      · exact .putRef (show db.runRefs.find? (ref.awaitPublication d.now).runId = _ from hself)
          rfl rfl id
      · have hname : archive.archiveId = c.archiveId := Table.key_of_find? htarget.found
        have hfind : db.archives.find? (archive.project c).archiveId = some archive := by
          rw [project_archiveId, hname, htarget.found]
        have hstanding : (archive.project c).standing = archive.standing := by
          rw [project_eq]
          rfl
        have howner : (archive.project c).ownerUserId = archive.ownerUserId := by
          rw [project_eq]
        have hput : LaunchOnly db { db with archives := db.archives.put (archive.project c) } :=
          .putArchive hfind hstanding howner
        exact hput.trans (.putRef (show db.runRefs.find? (ref.advance d.now c).runId = _ from hself)
          rfl rfl fun hpending => absurd hpending (statusByEvent_ne c.event))

/-! ## Purging an archive -/

theorem LaunchOnly.compensations {db : MemoirDb} (events : List MemoryRuntimeCompensationEvent) :
    LaunchOnly db { db with compensations := events } :=
  ⟨rfl, rfl, rfl, rfl, rfl, fun _ => rfl, fun _ => rfl, fun _ _ e he => ⟨e, he, rfl⟩,
    fun _ r hr => ⟨r, hr, rfl, rfl⟩, fun _ _ h => Or.inl h, id⟩

theorem enqueueCompensation_eq (db : MemoirDb) (event : MemoryRuntimeCompensationEvent) :
    ∃ events, (enqueueCompensation db event).1 = { db with compensations := events } := by
  unfold enqueueCompensation
  split
  · exact ⟨_, rfl⟩
  · exact ⟨_, rfl⟩

/-- Requesting the purge of runs leaves what they are for and where they
stand. -/
theorem requestPurges_moves {now : Time} {archiveId : String} :
    ∀ (refs : List MemoryAgentRunRef) {db : MemoirDb},
      (∀ ref ∈ refs, db.runRefs.find? ref.runId = some ref) →
      (refs.map (·.runId)).Nodup →
      LaunchOnly db (MemoryDeletionCompensationService.requestPurges now archiveId db refs)
  | [], _, _, _ => .refl _
  | ref :: refs, db, hrows, hnd => by
    obtain ⟨hnew, hnd⟩ := List.nodup_cons.mp hnd
    have hrest := fun r hr => hrows r (List.mem_cons_of_mem ref hr)
    unfold MemoryDeletionCompensationService.requestPurges
    split
    · exact requestPurges_moves refs hrest hnd
    · obtain ⟨events, henqueue⟩ := enqueueCompensation_eq
        { db with runRefs := db.runRefs.put (ref.requestPurge now archiveId) } {
          archiveId := archiveId
          runId := ref.runId
          generationEpoch := ref.generationEpoch
          action := "privacy_purge"
          idempotencyKey := ref.purgeKey archiveId }
      have hput : LaunchOnly db
          { db with runRefs := db.runRefs.put (ref.requestPurge now archiveId) } :=
        .putRef (show db.runRefs.find? (ref.requestPurge now archiveId).runId = some ref from
          hrows ref List.mem_cons_self) rfl rfl id
      dsimp only
      rw [henqueue]
      refine (hput.trans (.compensations events)).trans (requestPurges_moves refs ?_ hnd)
      intro r hr
      show (db.runRefs.put _).find? r.runId = some r
      rw [Table.find?_put_ne, hrest r hr]
      exact fun hk => hnew (List.mem_map.mpr ⟨r, hr, hk⟩)

end AgentRuntime
