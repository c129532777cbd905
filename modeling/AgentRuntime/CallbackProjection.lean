import AgentRuntime.Lib.Latest
import AgentRuntime.Lib.Runs
import AgentRuntime.MemoryArchive

/-!
# The projection of callbacks

`MemoryAgentCallbackService.apply` carries a callback of the Runtime over to
the run reference and, before the first publication, to the status of the
archive. It moves a cursor (`event_seq`, `status_version`) and refuses what
lies behind it, and it refuses a success that no publication backs, without
moving the cursor.

`callback_order_irrelevant` is the result: what a set of callbacks leaves
behind does not depend on the order they arrive in, nor on how often. The
projection is a register (`Latest`): it shows the last callback of those
that the reference and the archive, as they were before, would have taken.
-/

namespace AgentRuntime

open Keyed Runs

/-- The entries of `public_trace_json`: step, status and label. -/
abbrev SafeTrace := List (String × String × Option String)

/-- The events a callback can report. -/
inductive RunEvent
  | runStarted | stepChanged | waitingHuman | runFailed | runCancelled
  | runSucceeded | partialSucceeded
  deriving DecidableEq, Repr

/-- A callback that is well formed. -/
structure Callback where
  runId : String
  archiveId : String
  event : RunEvent
  eventSeq : Int
  statusVersion : Int
  publicTrace : SafeTrace
  deriving DecidableEq, Repr

namespace MemoryAgentCallbackService

/-- The events under their names. -/
def eventNames : List (String × RunEvent) :=
  [("run_started", .runStarted), ("step_changed", .stepChanged), ("waiting_human", .waitingHuman),
    ("run_failed", .runFailed), ("run_cancelled", .runCancelled),
    ("run_succeeded", .runSucceeded), ("partial_succeeded", .partialSucceeded)]

/-- `_STATUS_BY_EVENT`. -/
def statusByEvent : RunEvent → String
  | .runStarted => "running"
  | .stepChanged => "running"
  | .waitingHuman => "waiting_human"
  | .runFailed => "failed"
  | .runCancelled => "cancelled"
  | .runSucceeded => "succeeded"
  | .partialSucceeded => "partial"

/-- `_ARCHIVE_STATUS_BY_EVENT`. -/
def archiveStatusByEvent : RunEvent → Option ContentStatus
  | .runStarted => some .running
  | .stepChanged => some .running
  | .waitingHuman => some .waitingHuman
  | .runFailed => some .failed
  | .runCancelled => some .cancelled
  | .runSucceeded => none
  | .partialSucceeded => none

def traceItem : Json → Option (String × String × Option String)
  | .obj item => do
    let step ← (Json.get? "step" item).bind Json.str?
    let status ← (Json.get? "status" item).bind Json.str?
    pure (step, status, (Json.get? "label" item).bind Json.str?)
  | _ => none

/-- `_safe_public_trace`. -/
def safePublicTrace : Json → Result SafeTrace
  | .arr items =>
    match items.mapM traceItem with
    | some trace =>
      if items.length ≤ 8 then pure trace else .error (invalid "MEMORY_CALLBACK_TRACE_INVALID")
    | none => .error (invalid "MEMORY_CALLBACK_TRACE_INVALID")
  | _ => .error (invalid "MEMORY_CALLBACK_TRACE_INVALID")

/-- `payload[key]`. -/
def entry (payload : List (String × Json)) (key : String) : Result Json :=
  match Json.get? key payload with
  | some value => pure value
  | none => .error (invalid "KeyError")

/-- What `apply` reads and checks before it looks at the database. -/
def read (payload : List (String × Json)) : Result Callback := do
  let runId ← entry payload "run_id"
  let archiveId ← entry payload "business_id"
  let event ← entry payload "event"
  let eventSeq ← entry payload "event_seq"
  let statusVersion ← entry payload "status_version"
  match runId.str?, archiveId.str?, event.str?, eventSeq.column?, statusVersion.column? with
  | some runId, some archiveId, some event, some eventSeq, some statusVersion =>
    match eventNames.lookup event with
    | none => .error (invalid "MEMORY_CALLBACK_EVENT_INVALID")
    | some event => do
      require ((Json.get? "status" payload).bind Json.str? = some (statusByEvent event))
        (invalid "MEMORY_CALLBACK_EVENT_INVALID")
      let trace ← safePublicTrace ((Json.get? "public_trace" payload).getD (.arr []))
      pure ⟨runId, archiveId, event, eventSeq, statusVersion, trace⟩
  | _, _, _, _, _ => .error (invalid "MEMORY_CALLBACK_PAYLOAD_INVALID")

end MemoryAgentCallbackService

open MemoryAgentCallbackService

/-- The callback is behind the cursor of the reference. -/
def MemoryAgentRunRef.Outdated (ref : MemoryAgentRunRef) (c : Callback) : Prop :=
  c.eventSeq ≤ ref.eventSeq ∨ c.statusVersion < ref.statusVersion

instance (ref : MemoryAgentRunRef) (c : Callback) : Decidable (ref.Outdated c) := by
  unfold MemoryAgentRunRef.Outdated; infer_instance

/-- The callback reports a success, and there is no publication to confirm. -/
def MemoryArchive.Unbacked (archive : MemoryArchive) (c : Callback) : Prop :=
  c.event ∈ [.runSucceeded, .partialSucceeded] ∧
    (archive.publishedRevision = 0 ∨ archive.contentStatus ≠ .succeeded)

instance (archive : MemoryArchive) (c : Callback) : Decidable (archive.Unbacked c) := by
  unfold MemoryArchive.Unbacked; infer_instance

/-- The reference moves on to the callback. -/
def MemoryAgentRunRef.advance (ref : MemoryAgentRunRef) (now : Time) (c : Callback) :
    MemoryAgentRunRef :=
  { ref with
    status := statusByEvent c.event
    eventSeq := c.eventSeq
    statusVersion := c.statusVersion
    rowVersion := ref.rowVersion + 1
    reconciliationNeeded := false
    publicTrace := c.publicTrace
    updatedAt := now }

/-- The publication is left to the reconciliation. -/
def MemoryAgentRunRef.awaitPublication (ref : MemoryAgentRunRef) (now : Time) :
    MemoryAgentRunRef :=
  { ref with
    reconciliationNeeded := true
    updatedAt := if ref.reconciliationNeeded then ref.updatedAt else now }

/-- The status of an archive that has published nothing follows the run. -/
def MemoryArchive.project (archive : MemoryArchive) (c : Callback) : MemoryArchive :=
  match archiveStatusByEvent c.event with
  | some status =>
    if archive.publishedRevision = 0 then { archive with contentStatus := status } else archive
  | none => archive

namespace MemoryAgentCallbackService

/-- The end of `apply`, for a callback of the active run: what is written,
and whether the projection moved. -/
def applyTo (db : MemoirDb) (now : Time) (c : Callback) (ref : MemoryAgentRunRef)
    (archive : MemoryArchive) : MemoirDb × Bool :=
  if ref.Outdated c then (db, false)
  else if archive.Unbacked c then
    ({ db with runRefs := db.runRefs.put (ref.awaitPublication now) }, false)
  else
    ({ db with
      runRefs := db.runRefs.put (ref.advance now c)
      archives := db.archives.put (archive.project c) }, true)

/-- `apply`. -/
def apply (db : MemoirDb) (now : Time) (payload : List (String × Json)) :
    Result (MemoirDb × Bool) := do
  let c ← read payload
  match db.runRefs.find? c.runId with
  | none => .error (invalid "MEMORY_CALLBACK_RUN_UNAVAILABLE")
  | some ref => do
    require (ref.archiveId = c.archiveId) (invalid "MEMORY_CALLBACK_RUN_UNAVAILABLE")
    match db.archives.find? c.archiveId with
    | none => .error (invalid "MEMORY_CALLBACK_RUN_NOT_ACTIVE")
    | some archive => do
      require (archive.activeRunId = some c.runId ∧ archive.generationEpoch = ref.generationEpoch)
        (invalid "MEMORY_CALLBACK_RUN_NOT_ACTIVE")
      pure (applyTo db now c ref archive)

end MemoryAgentCallbackService

/-- A payload, and when it arrives. -/
structure Delivery where
  now : Time
  payload : List (String × Json)

/-- The endpoint commits what `apply` did; an error leaves everything as it
was. -/
def deliverCallback (db : MemoirDb) (d : Delivery) : MemoirDb :=
  match apply db d.now d.payload with
  | .ok (db', _) => db'
  | .error _ => db

/-! ## What a callback meets -/

/-- The callback is about the active run of the current generation. -/
structure Target (db : MemoirDb) (c : Callback) (ref : MemoryAgentRunRef)
    (archive : MemoryArchive) : Prop where
  bound : db.runRefs.find? c.runId = some ref
  same : ref.archiveId = c.archiveId
  found : db.archives.find? c.archiveId = some archive
  active : archive.activeRunId = some c.runId
  current : archive.generationEpoch = ref.generationEpoch

/-- A callback is carried over exactly when it is well formed and about the
active run. -/
theorem apply_ok {db : MemoirDb} {now : Time} {payload : List (String × Json)}
    {r : MemoirDb × Bool} :
    apply db now payload = .ok r ↔ ∃ c ref archive, read payload = .ok c ∧
      Target db c ref archive ∧ r = applyTo db now c ref archive := by
  unfold apply
  constructor
  · intro h
    obtain ⟨c, hread, h⟩ := bind_ok.mp h
    cases href : db.runRefs.find? c.runId with
    | none => rw [href] at h; cases h
    | some ref =>
      rw [href] at h
      obtain ⟨_, hsame, h⟩ := bind_ok.mp h
      cases hfound : db.archives.find? c.archiveId with
      | none => rw [hfound] at h; cases h
      | some archive =>
        rw [hfound] at h
        obtain ⟨_, hactive, h⟩ := bind_ok.mp h
        have hactive := require_ok.mp hactive
        cases h
        exact ⟨c, ref, archive, hread,
          ⟨href, require_ok.mp hsame, hfound, hactive.1, hactive.2⟩, rfl⟩
  · rintro ⟨c, ref, archive, hread, ⟨href, hsame, hfound, hactive, hcurrent⟩, rfl⟩
    refine bind_ok.mpr ⟨c, hread, ?_⟩
    rw [href]
    refine bind_ok.mpr ⟨(), require_ok.mpr hsame, ?_⟩
    rw [hfound]
    exact bind_ok.mpr ⟨(), require_ok.mpr ⟨hactive, hcurrent⟩, rfl⟩

@[simp] theorem advance_runId (ref : MemoryAgentRunRef) (now : Time) (c : Callback) :
    (ref.advance now c).runId = ref.runId := rfl

@[simp] theorem awaitPublication_runId (ref : MemoryAgentRunRef) (now : Time) :
    (ref.awaitPublication now).runId = ref.runId := rfl

/-- A projection changes nothing of an archive but its status. -/
theorem project_eq (archive : MemoryArchive) (c : Callback) :
    archive.project c = { archive with contentStatus := (archive.project c).contentStatus } := by
  unfold MemoryArchive.project
  split
  · split <;> rfl
  · rfl

@[simp] theorem project_archiveId (archive : MemoryArchive) (c : Callback) :
    (archive.project c).archiveId = archive.archiveId := by
  rw [project_eq]

/-! ## The register -/

/-- What a reference shows of its run. -/
structure RunView where
  status : String
  eventSeq : Int
  statusVersion : Int
  publicTrace : SafeTrace
  deriving DecidableEq, Repr

def MemoryAgentRunRef.view (ref : MemoryAgentRunRef) : RunView :=
  ⟨ref.status, ref.eventSeq, ref.statusVersion, ref.publicTrace⟩

def Callback.view (c : Callback) : RunView :=
  ⟨statusByEvent c.event, c.eventSeq, c.statusVersion, c.publicTrace⟩

/-- The reference and the archive, as they are, would take the callback. -/
def Takes (ref : MemoryAgentRunRef) (archive : MemoryArchive) (c : Callback) : Prop :=
  c.runId = ref.runId ∧ c.archiveId = ref.archiveId ∧ ¬ ref.Outdated c ∧ ¬ archive.Unbacked c

instance (ref : MemoryAgentRunRef) (archive : MemoryArchive) :
    DecidablePred (Takes ref archive) := fun _ => by unfold Takes; infer_instance

/-- The database shows the callback `r` where it showed `ref` and `archive`
before. -/
structure Shows (ref : MemoryAgentRunRef) (archive : MemoryArchive) (r : Option Callback)
    (db : MemoirDb) : Prop where
  bound : ∃ ref', db.runRefs.find? ref.runId = some ref' ∧ ref'.archiveId = ref.archiveId ∧
    ref'.generationEpoch = ref.generationEpoch ∧ ref'.view = (r.map Callback.view).getD ref.view
  found : db.archives.find? ref.archiveId = some ((r.map archive.project).getD archive)

theorem unbacked_project (archive : MemoryArchive) (c d : Callback) :
    (archive.project d).Unbacked c ↔ archive.Unbacked c := by
  unfold MemoryArchive.Unbacked MemoryArchive.project
  cases archiveStatusByEvent d.event with
  | none => rfl
  | some status =>
    by_cases h : archive.publishedRevision = 0
    · simp [h]
    · simp [h]

/-- A callback that is taken decides the status of an archive without
publication. -/
theorem project_project {archive : MemoryArchive} {c : Callback} (d : Callback)
    (h : ¬ archive.Unbacked c) : (archive.project d).project c = archive.project c := by
  by_cases hpub : archive.publishedRevision = 0
  · have hkind : ∃ status, archiveStatusByEvent c.event = some status := by
      unfold MemoryArchive.Unbacked at h
      cases he : c.event <;> simp [he, hpub, archiveStatusByEvent] at h ⊢
    obtain ⟨status, hstatus⟩ := hkind
    unfold MemoryArchive.project
    rw [hstatus]
    cases archiveStatusByEvent d.event <;> simp [hpub]
  · have hsame : ∀ e, archive.project e = archive := by
      intro e
      unfold MemoryArchive.project
      cases archiveStatusByEvent e.event <;> simp [hpub]
    rw [hsame d]

/-- A reference that shows `r` refuses what is not later than `r`. -/
theorem outdated_iff {ref ref' : MemoryAgentRunRef} {archive : MemoryArchive}
    {r : Option Callback} {c : Callback}
    (hview : ref'.view = (r.map Callback.view).getD ref.view)
    (hr : ∀ q ∈ r, Takes ref archive q)
    (hmono : ∀ q ∈ r, q.eventSeq ≤ c.eventSeq → q.statusVersion ≤ c.statusVersion) :
    ¬ ref'.Outdated c ↔ ¬ ref.Outdated c ∧ ∀ q ∈ r, q.eventSeq < c.eventSeq := by
  unfold MemoryAgentRunRef.Outdated
  cases r with
  | none =>
    have hseq : ref'.eventSeq = ref.eventSeq := congrArg RunView.eventSeq hview
    have hversion : ref'.statusVersion = ref.statusVersion :=
      congrArg RunView.statusVersion hview
    rw [hseq, hversion]
    simp
  | some q =>
    have hseq : ref'.eventSeq = q.eventSeq := congrArg RunView.eventSeq hview
    have hversion : ref'.statusVersion = q.statusVersion :=
      congrArg RunView.statusVersion hview
    have htake := (hr q rfl).2.2.1
    have hle := hmono q rfl
    unfold MemoryAgentRunRef.Outdated at htake
    rw [hseq, hversion]
    simp only [Option.mem_def, Option.some.injEq, forall_eq']
    omega

/-- What the register of the callback `c` does to the register `r`. -/
abbrev offered (ref : MemoryAgentRunRef) (archive : MemoryArchive) (r : Option Callback)
    (c : Callback) : Option Callback :=
  Latest.offer (Takes ref archive) Callback.eventSeq r c

/-- The callbacks among the payloads. -/
def callbacks (ds : List Delivery) : List Callback :=
  ds.filterMap (fun d => (read d.payload).toOption)

theorem mem_callbacks {ds : List Delivery} {c : Callback} :
    c ∈ callbacks ds ↔ ∃ d ∈ ds, read d.payload = .ok c := by
  unfold callbacks
  rw [List.mem_filterMap]
  refine exists_congr fun d => and_congr_right fun _ => ?_
  cases read d.payload <;> simp [Except.toOption]

section Step

variable {db : MemoirDb} {ref : MemoryAgentRunRef} {archive : MemoryArchive}
  {r : Option Callback} {d : Delivery}

/-- The archive under the name the reference has for it. -/
structure Active (ref : MemoryAgentRunRef) (archive : MemoryArchive) : Prop where
  named : archive.archiveId = ref.archiveId
  active : archive.activeRunId = some ref.runId
  current : archive.generationEpoch = ref.generationEpoch

theorem Active.shown (h : Active ref archive) (r : Option Callback) :
    Active ref ((r.map archive.project).getD archive) := by
  cases r with
  | none => exact h
  | some q =>
    show Active ref (archive.project q)
    rw [project_eq]
    exact ⟨h.named, h.active, h.current⟩

theorem Shows.target (h : Shows ref archive r db) (hactive : Active ref archive) {c : Callback}
    (hrun : c.runId = ref.runId) (harchive : c.archiveId = ref.archiveId) :
    ∃ ref', Target db c ref' ((r.map archive.project).getD archive) := by
  obtain ⟨ref', hbound, hsame, hepoch, _⟩ := h.bound
  have hshown := hactive.shown r
  exact ⟨ref', ⟨by rw [hrun, hbound], by rw [hsame, harchive], by rw [harchive, h.found],
    by rw [hrun, hshown.active], by rw [hshown.current, hepoch]⟩⟩

theorem Shows.congr {db' : MemoirDb} (h : Shows ref archive r db)
    (hrefs : db'.runRefs.find? ref.runId = db.runRefs.find? ref.runId)
    (harchives : db'.archives.find? ref.archiveId = db.archives.find? ref.archiveId) :
    Shows ref archive r db' :=
  ⟨by rw [hrefs]; exact h.bound, by rw [harchives]; exact h.found⟩

/-- A callback of another run leaves the reference and the archive alone. -/
theorem Shows.frame (h : Shows ref archive r db) (hactive : Active ref archive) {c : Callback}
    {ref' : MemoryAgentRunRef} {archive' : MemoryArchive} (htarget : Target db c ref' archive')
    (hrun : c.runId ≠ ref.runId) (now : Time) :
    Shows ref archive r (applyTo db now c ref' archive').1 := by
  have hkey : ref'.runId = c.runId := Table.key_of_find? htarget.bound
  have hne : c.archiveId ≠ ref.archiveId := by
    intro he
    have hfound := htarget.found
    rw [he, h.found] at hfound
    cases hfound
    have := htarget.active.symm.trans (hactive.shown r).active
    exact hrun (Option.some.inj this)
  have hkey' : archive'.archiveId = c.archiveId := Table.key_of_find? htarget.found
  have hrefs : ∀ ref'' : MemoryAgentRunRef, ref''.runId = ref'.runId →
      (db.runRefs.put ref'').find? ref.runId = db.runRefs.find? ref.runId := fun ref'' he =>
    Table.find?_put_ne fun hk => hrun (by rw [hk, he, hkey])
  unfold applyTo
  split
  · exact h
  · split
    · exact h.congr (hrefs _ rfl) rfl
    · exact h.congr (hrefs _ rfl)
        (Table.find?_put_ne fun hk => hne (by rw [hk, project_archiveId, hkey']))

/-- A callback of the run is offered to the register. -/
theorem Shows.applyTo (h : Shows ref archive r db) (hactive : Active ref archive)
    (hr : ∀ q ∈ r, Takes ref archive q) {c : Callback}
    (hmono : ∀ q ∈ r, q.eventSeq ≤ c.eventSeq → q.statusVersion ≤ c.statusVersion)
    (hrun : c.runId = ref.runId) (harchive : c.archiveId = ref.archiveId)
    {ref' : MemoryAgentRunRef} {archive' : MemoryArchive} (htarget : Target db c ref' archive')
    (now : Time) :
    Shows ref archive (offered ref archive r c) (applyTo db now c ref' archive').1 := by
  obtain ⟨ref'', hbound, hsame, hepoch, hview⟩ := h.bound
  have href : ref'' = ref' := by
    have := htarget.bound
    rw [hrun, hbound] at this
    exact Option.some.inj this
  have harch : (r.map archive.project).getD archive = archive' := by
    have := htarget.found
    rw [harchive, h.found] at this
    exact Option.some.inj this
  subst href harch
  have hkey : ref''.runId = ref.runId := Table.key_of_find? hbound
  have hback : ((r.map archive.project).getD archive).Unbacked c ↔ archive.Unbacked c := by
    cases r with
    | none => rfl
    | some q => exact unbacked_project archive c q
  have hout := outdated_iff hview hr hmono
  have hfind : ∀ ref' : MemoryAgentRunRef, ref'.runId = ref.runId →
      (db.runRefs.put ref').find? ref.runId = some ref' := by
    intro ref' he
    rw [← he]
    exact Table.find?_put_self (by rw [he]; exact hbound)
  unfold MemoryAgentCallbackService.applyTo
  by_cases hlate : ref''.Outdated c
  · rw [if_pos hlate, offered, Latest.offer_neg]
    · exact h
    · rintro ⟨htake, hlater⟩
      exact hout.mpr ⟨htake.2.2.1, hlater⟩ hlate
  · rw [if_neg hlate]
    obtain ⟨hnew, hlater⟩ := hout.mp hlate
    by_cases hun : archive.Unbacked c
    · rw [if_pos (hback.mpr hun), offered, Latest.offer_neg]
      · exact ⟨⟨_, hfind _ hkey, hsame, hepoch, hview⟩, h.found⟩
      · exact fun htake => htake.1.2.2.2 hun
    · rw [if_neg (fun hu => hun (hback.mp hu)), offered,
        Latest.offer_pos ⟨⟨hrun, harchive, hnew, hun⟩, hlater⟩]
      refine ⟨⟨_, hfind _ hkey, hsame, hepoch, rfl⟩, ?_⟩
      have hproject : ((r.map archive.project).getD archive).project c = archive.project c := by
        cases r with
        | none => rfl
        | some q => exact project_project q hun
      have hname : (archive.project c).archiveId = ref.archiveId := by
        rw [project_archiveId, hactive.named]
      show (db.archives.put _).find? ref.archiveId = some (archive.project c)
      rw [hproject, ← hname]
      exact Table.find?_put_self (by rw [hname]; exact h.found)

/-- One delivery is one offer, and none when the payload is no callback. -/
theorem Shows.deliver (h : Shows ref archive r db) (hactive : Active ref archive)
    (hr : ∀ q ∈ r, Takes ref archive q)
    (hmono : ∀ c, read d.payload = .ok c → c.runId = ref.runId →
      ∀ q ∈ r, q.eventSeq ≤ c.eventSeq → q.statusVersion ≤ c.statusVersion) :
    Shows ref archive ((callbacks [d]).foldl (offered ref archive) r) (deliverCallback db d) := by
  unfold deliverCallback callbacks
  cases hread : read d.payload with
  | error e =>
    have hfail : ∀ r, apply db d.now d.payload ≠ .ok r := by
      intro r hok
      obtain ⟨c, _, _, hc, _⟩ := apply_ok.mp hok
      rw [hread] at hc
      cases hc
    cases happly : apply db d.now d.payload with
    | error _ => simpa [hread, Except.toOption] using h
    | ok r => exact absurd happly (hfail r)
  | ok c =>
    have hone : [d].filterMap (fun d => (read d.payload).toOption) = [c] := by
      simp [hread, Except.toOption]
    rw [hone]
    show Shows ref archive (offered ref archive r c) _
    have hmono := hmono c hread
    cases happly : apply db d.now d.payload with
    | error e =>
      -- Had the callback been one to take, it would have met its target.
      rw [offered, Latest.offer_neg]
      · exact h
      · rintro ⟨⟨hrun, harchive, _⟩, _⟩
        obtain ⟨ref', htarget⟩ := h.target hactive hrun harchive
        have hok : ∃ r, apply db d.now d.payload = .ok r :=
          ⟨_, apply_ok.mpr ⟨c, ref', _, hread, htarget, rfl⟩⟩
        rw [happly] at hok
        cases hok.choose_spec
    | ok result =>
      obtain ⟨c', ref', archive', hread', htarget, rfl⟩ := apply_ok.mp happly
      rw [hread] at hread'
      cases hread'
      by_cases hrun : c.runId = ref.runId
      · have harchive : c.archiveId = ref.archiveId := by
          obtain ⟨ref'', hbound, hsame, _⟩ := h.bound
          have hfind := htarget.bound
          rw [hrun, hbound] at hfind
          cases hfind
          exact htarget.same.symm.trans hsame
        exact h.applyTo hactive hr (hmono hrun) hrun harchive htarget d.now
      · rw [offered, Latest.offer_neg (fun ht => hrun ht.1.1)]
        exact h.frame hactive htarget hrun d.now

end Step

/-! ## Delivery orders -/

/-- The callbacks of a run are told apart by their number, which is unique
among the callback events of the Runtime, and their status versions do not
decrease with it. -/
def Numbered (runId : String) (ds : List Delivery) : Prop :=
  ∀ c ∈ callbacks ds, ∀ d ∈ callbacks ds, c.runId = runId → d.runId = runId →
    (c.eventSeq ≤ d.eventSeq → c.statusVersion ≤ d.statusVersion) ∧
      (c.eventSeq = d.eventSeq → c = d)

instance (runId : String) (ds : List Delivery) : Decidable (Numbered runId ds) := by
  unfold Numbered; infer_instance

theorem callbacks_append (ds ds' : List Delivery) :
    callbacks (ds ++ ds') = callbacks ds ++ callbacks ds' :=
  List.filterMap_append ..

/-- After any deliveries the database shows the latest callback it would
have taken. -/
theorem run_shows {db : MemoirDb} {ref : MemoryAgentRunRef} {archive : MemoryArchive}
    (hbound : db.runRefs.find? ref.runId = some ref)
    (hfound : db.archives.find? ref.archiveId = some archive) (hactive : Active ref archive)
    (ds : List Delivery) (hnum : Numbered ref.runId ds) :
    Shows ref archive (Latest.offers (Takes ref archive) Callback.eventSeq none (callbacks ds))
      (run deliverCallback db ds) := by
  induction ds using List.reverseRecOn with
  | nil => exact ⟨⟨ref, hbound, rfl, rfl, rfl⟩, hfound⟩
  | append_singleton ds d ih =>
    have hsub : ∀ c ∈ callbacks ds, c ∈ callbacks (ds ++ [d]) := fun c hc => by
      rw [callbacks_append]
      exact List.mem_append_left _ hc
    have hshows := ih fun c hc c' hc' => hnum c (hsub c hc) c' (hsub c' hc')
    -- What the register holds is one of the callbacks delivered before.
    have hlatest : Latest.IsLatest (Takes ref archive) Callback.eventSeq (callbacks ds)
        (Latest.offers (Takes ref archive) Callback.eventSeq none (callbacks ds)) :=
      Latest.offers_latest _
    have hheld : ∀ q ∈ Latest.offers (Takes ref archive) Callback.eventSeq none (callbacks ds),
        q ∈ callbacks ds ∧ Takes ref archive q := by
      intro q hq
      rw [Option.mem_def.mp hq] at hlatest
      exact ⟨hlatest.1, hlatest.2.1⟩
    rw [run_append, callbacks_append, Latest.offers, List.foldl_append]
    refine hshows.deliver hactive (fun q hq => (hheld q hq).2) fun c hread hrun q hq hle => ?_
    obtain ⟨hmem, htake⟩ := hheld q hq
    have hc : c ∈ callbacks (ds ++ [d]) := mem_callbacks.mpr ⟨d, by simp, hread⟩
    exact (hnum q (hsub q hmem) c hc htake.1 hrun).1 hle

/-- What the business side shows of a run and its archive. -/
def projection (db : MemoirDb) (runId archiveId : String) :
    Option RunView × Option ContentStatus :=
  ((db.runRefs.find? runId).map (·.view), (db.archives.find? archiveId).map (·.contentStatus))

/-- An `apply` that returns `True` moves the cursor of the run forward. -/
def CursorRises (db : MemoirDb) (d : Delivery) : Prop :=
  ∀ db', apply db d.now d.payload = .ok (db', true) →
    ∃ runId, ∃ ref ∈ db.runRefs.find? runId, ∃ ref' ∈ db'.runRefs.find? runId,
      (read d.payload).toOption.map (·.runId) = some runId ∧ ref.eventSeq < ref'.eventSeq

theorem apply_cursorRises (db : MemoirDb) (d : Delivery) : CursorRises db d := by
  intro db' happly
  obtain ⟨c, ref, archive, hread, htarget, hdb⟩ := apply_ok.mp happly
  have hkey : ref.runId = c.runId := Table.key_of_find? htarget.bound
  unfold applyTo at hdb
  split at hdb
  · cases hdb
  · next hnew =>
    split at hdb
    · cases hdb
    · cases hdb
      have hput : (db.runRefs.put (ref.advance d.now c)).find? c.runId
          = some (ref.advance d.now c) := by
        rw [← hkey]
        exact Table.find?_put_self (a := ref.advance d.now c) (by
          rw [advance_runId, hkey]
          exact htarget.bound)
      refine ⟨c.runId, ref, htarget.bound, _, hput, by rw [hread]; rfl, ?_⟩
      exact not_le.mp fun hle => hnew (Or.inl hle)

/-- Any two delivery orders of the same callbacks leave the same projection,
and the cursor rises at every `apply` that returns `True`. -/
theorem callback_order_irrelevant {db : MemoirDb} {ref : MemoryAgentRunRef}
    {archive : MemoryArchive} (hbound : db.runRefs.find? ref.runId = some ref)
    (hfound : db.archives.find? ref.archiveId = some archive) (hactive : Active ref archive)
    {ds ds' : List Delivery} (hnum : Numbered ref.runId ds)
    (hset : ∀ payload, payload ∈ ds.map (·.payload) ↔ payload ∈ ds'.map (·.payload)) :
    projection (run deliverCallback db ds) ref.runId ref.archiveId
        = projection (run deliverCallback db ds') ref.runId ref.archiveId ∧
      Along deliverCallback CursorRises db ds ∧ Along deliverCallback CursorRises db ds' := by
  have hmem : ∀ c, c ∈ callbacks ds ↔ c ∈ callbacks ds' := by
    intro c
    have hpayload : ∀ l : List Delivery,
        c ∈ callbacks l ↔ ∃ payload ∈ l.map (·.payload), read payload = .ok c := fun l => by
      rw [mem_callbacks]
      simp
    rw [hpayload, hpayload]
    exact exists_congr fun payload => and_congr_left fun _ => hset payload
  have hnum' : Numbered ref.runId ds' := fun c hc c' hc' =>
    hnum c ((hmem c).mpr hc) c' ((hmem c').mpr hc')
  have hsame : Latest.offers (Takes ref archive) Callback.eventSeq none (callbacks ds)
      = Latest.offers (Takes ref archive) Callback.eventSeq none (callbacks ds') :=
    Latest.offers_congr hmem fun c hc c' hc' htake htake' =>
      (hnum c hc c' hc' htake.1 htake'.1).2
  have hfirst := run_shows hbound hfound hactive ds hnum
  have hsecond := run_shows hbound hfound hactive ds' hnum'
  rw [← hsame] at hsecond
  have hproject : ∀ {r db'}, Shows ref archive r db' →
      projection db' ref.runId ref.archiveId = (some ((r.map Callback.view).getD ref.view),
        some ((r.map archive.project).getD archive).contentStatus) := by
    intro r db' h
    obtain ⟨ref', hbound, _, _, hview⟩ := h.bound
    unfold projection
    rw [hbound, h.found, Option.map_some, hview, Option.map_some]
  have hrises : ∀ l, Along deliverCallback CursorRises db l := fun l =>
    along_of_inv (I := fun _ => True) (fun _ _ _ => trivial)
      (fun db d _ => apply_cursorRises db d) l db trivial
  exact ⟨(hproject hfirst).trans (hproject hsecond).symm, hrises ds, hrises ds'⟩

/-! A run that waits for its user and goes on, and a success that comes
before the publication. -/

namespace CallbackExample

def archive : MemoryArchive :=
  { archiveId := "archive-1", relationshipId := 1, spaceId := "space-1",
    relationshipSegmentNo := 1, ownerUserId := 1, partnerUserId := 2, contentStatus := .pending,
    generationEpoch := 2, activeRunId := some "run-1" }

def ref : MemoryAgentRunRef :=
  { runId := "run-1", archiveId := "archive-1", generationEpoch := 2, updatedAt := 0 }

def db : MemoirDb :=
  { archives := ⟨[archive], by decide⟩, runRefs := ⟨[ref], by decide⟩ }

def payload (event status : String) (eventSeq statusVersion : Int) : List (String × Json) :=
  [("run_id", .str "run-1"), ("business_id", .str "archive-1"), ("event", .str event),
    ("event_seq", .int eventSeq), ("status_version", .int statusVersion), ("status", .str status),
    ("public_trace", .arr [.obj [("step", .str event), ("status", .str "done")]])]

def waiting : List (String × Json) := payload "waiting_human" "waiting_human" 1 2
def changed : List (String × Json) := payload "step_changed" "running" 2 3
def success : List (String × Json) := payload "run_succeeded" "succeeded" 3 4

def inOrder : List Delivery := [⟨1, waiting⟩, ⟨2, changed⟩, ⟨3, success⟩]
def disordered : List Delivery := [⟨1, success⟩, ⟨2, changed⟩, ⟨3, waiting⟩, ⟨4, changed⟩]

end CallbackExample

open CallbackExample in
theorem callback_order_irrelevant_waiting :
    projection (run deliverCallback db inOrder) "run-1" "archive-1"
        = projection (run deliverCallback db disordered) "run-1" "archive-1" ∧
      Along deliverCallback CursorRises db inOrder ∧
      Along deliverCallback CursorRises db disordered :=
  @callback_order_irrelevant db ref archive (by decide) (by decide) ⟨rfl, rfl, rfl⟩
    inOrder disordered (by decide) (by simp [inOrder, disordered]; tauto)

end AgentRuntime
