import AgentRuntime.Recovery
import AgentRuntime.Lib.JsonText
import Mathlib.Data.List.Induction

/-!
# The encrypted store of checkpoints

Mirrors `FernetCheckpointCipher` and `CheckpointStore` of `checkpoint.py`,
`_safe_checkpoint_state` and the reading of a checkpoint in `resume` of
`executor.py`. What the executor saves is a dictionary; the table has the token
its text is sealed in, the digest of the token and a summary for display.

The other modules keep the routing state itself in the row. That is right:
under one key, any sequence of saves, purges and loads by any workers, with
anything done to the runs in between, gives the answers of a store that keeps
the states as they are (`store_reads_back`). A worker with another key is
refused, and never told a state.

Fernet is a parameter: sealing may differ from one time to the next.
-/

namespace AgentRuntime

open JsonText Runs

/-! ## The state as a dictionary -/

/-- What `_safe_checkpoint_state` gives, with the target of a fallback if the
node waits for a human. -/
structure SafeState where
  completedSteps : Nat
  completedNodeIds : List String
  fallbackFlags : List String
  resumeFromNodeId : Option String := none
  deriving DecidableEq, Repr

/-- A list of strings as a value. -/
def stringItems (xs : List String) : Tree := .arr (xs.map fun x => .str x.toList)

def stringOf? : Tree → Option String
  | .str s => some (String.ofList s)
  | _ => none

/-- `isinstance(value, list) and all(isinstance(item, str) for item in value)`. -/
def stringItems? : Tree → Option (List String)
  | .arr items => items.mapM stringOf?
  | _ => none

namespace SafeState

def dict (s : SafeState) : List (List Char × Tree) :=
  [("completed_steps".toList, .int s.completedSteps),
    ("completed_node_ids".toList, stringItems s.completedNodeIds),
    ("fallback_flags".toList, stringItems s.fallbackFlags)] ++
  match s.resumeFromNodeId with
  | none => []
  | some nodeId => [("resume_from_node_id".toList, .str nodeId.toList)]

/-- The routing state that the rows of the other modules have. -/
def routing (s : SafeState) : CheckpointState :=
  { completedSteps := s.completedSteps
    completedNodeIds := s.completedNodeIds
    resumeFromNodeId := s.resumeFromNodeId }

end SafeState

/-- What `resume` takes from a checkpoint. -/
structure ResumedState where
  completedNodeIds : List String
  fallbackFlags : List String
  resumeFromNodeId : Option String
  deriving DecidableEq, Repr

def SafeState.resumed (s : SafeState) : ResumedState :=
  ⟨s.completedNodeIds, s.fallbackFlags, s.resumeFromNodeId⟩

/-- `_SAFE_CHECKPOINT_KEYS`. -/
def safeCheckpointKeys : List (List Char) :=
  ["completed_steps".toList, "completed_node_ids".toList, "fallback_flags".toList,
    "resume_from_node_id".toList]

/-- `resume` on what `load_latest` gives, up to `_execute`; the validation of
`AgentState` is the one of its two lists. -/
def resumeState (state : List (List Char × Tree)) : Except String ResumedState :=
  if state.any (fun f => !safeCheckpointKeys.contains f.1) = true then
    .error "CHECKPOINT_STATE_INVALID"
  else
    match stringItems? ((field? state "completed_node_ids".toList).getD (.arr [])) with
    | none => .error "CHECKPOINT_STATE_INVALID"
    | some completedNodeIds =>
      match stringItems? ((field? state "fallback_flags".toList).getD (.arr [])) with
      | none => .error "ValidationError"
      | some fallbackFlags =>
        -- a target that is no string is refused as one that is missing
        .ok ⟨completedNodeIds, fallbackFlags,
          (field? state "resume_from_node_id".toList).bind stringOf?⟩

/-! ## The cipher -/

variable {Key Nonce Token : Type} (fernetEncrypt : Key → Nonce → ByteArray → Token)
  (fernetDecrypt : Key → Token → Option ByteArray)

/-- `FernetCheckpointCipher.encrypt`. -/
def encrypt (key : Key) (nonce : Nonce) (state : List (List Char × Tree)) : Token :=
  fernetEncrypt key nonce (String.ofList (canonical (.obj state))).toUTF8

/-- `FernetCheckpointCipher.decrypt`. -/
def decrypt (key : Key) (encryptedBlob : Token) : Except String (List (List Char × Tree)) :=
  match ((fernetDecrypt key encryptedBlob).bind ByteArray.utf8Decode?).bind fun cs => loads cs.toList with
  | none => .error "检查点密文无效或无法解密"
  | some (.obj state) => .ok state
  | some _ => .error "检查点恢复状态格式无效"

/-! ## The table -/

/-- A row of the table, over what it keeps of the state. -/
structure CheckpointRow (β : Type) where
  runId : String
  checkpointKey : String
  privacyVersion : Nat
  createdAt : Time
  expiresAt : Time
  body : β

/-- What the table keeps of the state. -/
structure SealedState (Token : Type) where
  encryptedStateBlob : Option Token
  contentDigest : String
  stateSummary : List (List Char × Tree)

/-- `_safe_summary`. -/
def safeSummary (state : List (List Char × Tree)) : List (List Char × Tree) :=
  let listOf (key : List Char) : List (List Char × Tree) :=
    match field? state key with
    | some value => if (stringItems? value).isSome then [(key, value)] else []
    | none => []
  listOf "completed_node_ids".toList ++ listOf "fallback_flags".toList ++
    match field? state "completed_steps".toList with
    | some (.int n) => if 0 ≤ n then [("completed_steps".toList, .int n)] else []
    | _ => []

namespace CheckpointRow

variable {β γ : Type}

/-- A row is put in, or written anew if the key is there. -/
def put (rows : List (CheckpointRow β)) (now : Time) (run : AgentRun) (ctx : LeaseContext)
    (key : String) (body : β) : List (CheckpointRow β) :=
  if rows.any (fun c => decide (c.runId = run.runId ∧ c.checkpointKey = key)) then
    rows.map fun c =>
      if c.runId = run.runId ∧ c.checkpointKey = key then
        { c with
          privacyVersion := ctx.privacyVersion
          body := body
          expiresAt := run.runDeadlineAt }
      else c
  else rows ++ [{
    runId := run.runId
    checkpointKey := key
    privacyVersion := ctx.privacyVersion
    createdAt := now
    expiresAt := run.runDeadlineAt
    body := body }]

/-- The row that the query of `load_latest` prefers. -/
def later : Option (CheckpointRow β) → CheckpointRow β → Option (CheckpointRow β)
  | some found, row => if row.createdAt < found.createdAt then some found else some row
  | none, row => some row

def latest (rows : List (CheckpointRow β)) (runId : String) : Option (CheckpointRow β) :=
  (rows.filter fun row => decide (row.runId = runId)).foldl later none

/-- The rows of a run are deleted. -/
def delete (rows : List (CheckpointRow β)) (runId : String) : List (CheckpointRow β) :=
  rows.filter fun row => decide (row.runId ≠ runId)

/-- The body of the row that is to be loaded. -/
def loadable (rows : List (CheckpointRow β)) (runId : String) (ctx : LeaseContext) :
    Except String (CheckpointRow β) :=
  match latest rows runId with
  | none => .error "不存在可恢复的检查点"
  | some row =>
    if row.privacyVersion ≠ ctx.privacyVersion then .error "检查点隐私版本不兼容"
    else .ok row

/-- The row has not expired. -/
def inTime (row : CheckpointRow β) (now : Time) : Except String Unit :=
  if row.expiresAt ≤ now then .error "检查点已过期" else .ok ()

end CheckpointRow

/-! ## The store -/

/-- `_require_writable_run`. -/
def requireWritableRun (db : Db) (now : Time) (runId : String) (ctx : LeaseContext) :
    Except String AgentRun :=
  if LeaseService.canWrite db now runId ctx = false then .error "当前 Worker 无权读写检查点"
  else
    match db.runs.find? runId with
    | none => .error "运行不存在"
    | some run => .ok run

namespace CheckpointStore

variable (digest : Token → String)

/-- What the table keeps of a state that is saved. -/
def sealedState (key : Key) (nonce : Nonce) (state : List (List Char × Tree)) :
    SealedState Token :=
  let blob := encrypt fernetEncrypt key nonce state
  ⟨some blob, digest blob, safeSummary state⟩

def save (rows : List (CheckpointRow (SealedState Token))) (db : Db) (now : Time) (runId : String)
    (checkpointKey : String) (state : SafeState) (ctx : LeaseContext) (key : Key) (nonce : Nonce) :
    Except String (List (CheckpointRow (SealedState Token))) := do
  let run ← requireWritableRun db now runId ctx
  pure (CheckpointRow.put rows now run ctx checkpointKey (sealedState fernetEncrypt digest key nonce state.dict))

def loadLatest (rows : List (CheckpointRow (SealedState Token))) (db : Db) (now : Time)
    (runId : String) (ctx : LeaseContext) (key : Key) :
    Except String (List (List Char × Tree)) := do
  let _ ← requireWritableRun db now runId ctx
  let row ← CheckpointRow.loadable rows runId ctx
  match row.body.encryptedStateBlob with
  | none => throw "检查点不含可恢复的加密状态"
  | some blob => do
    row.inTime now
    decrypt fernetDecrypt key blob

/-- `purge_for_run`, with the number of rows. -/
def purgeForRun {β : Type} (rows : List (CheckpointRow β)) (db : Db) (now : Time) (runId : String)
    (ctx : LeaseContext) : Except String (List (CheckpointRow β) × Nat) := do
  let _ ← requireWritableRun db now runId ctx
  pure (CheckpointRow.delete rows runId, rows.length - (CheckpointRow.delete rows runId).length)

end CheckpointStore

/-! ## Runs of the store -/

/-- What happens to the table: a worker saves, loads or purges, and rows are
deleted with the private data of a run. The database is as the other services
have left it, the time any. -/
inductive StoreEvent (Key Nonce : Type)
  | save (db : Db) (now : Time) (runId checkpointKey : String) (state : SafeState)
      (ctx : LeaseContext) (key : Key) (nonce : Nonce)
  | load (db : Db) (now : Time) (runId : String) (ctx : LeaseContext) (key : Key)
  | purge (db : Db) (now : Time) (runId : String) (ctx : LeaseContext)
  | deleted (runId : String)

/-- What the worker is told. -/
inductive StoreAnswer
  | saved
  | resumed (state : ResumedState)
  | purged (count : Nat)
  | refused (message : String)
  deriving DecidableEq, Repr

/-- The table after an operation, and the answer. -/
structure StoreReply (β : Type) where
  rows : List (CheckpointRow β)
  answer : StoreAnswer

namespace StoreReply

variable {β : Type}

/-- The table, unless the operation raises. -/
def wrote (rows : List (CheckpointRow β)) (answer : StoreAnswer) :
    Except String (List (CheckpointRow β)) → StoreReply β
  | .ok rows' => ⟨rows', answer⟩
  | .error message => ⟨rows, .refused message⟩

/-- What a load gives to `resume`. -/
def read (rows : List (CheckpointRow β)) : Except String ResumedState → StoreReply β
  | .ok state => ⟨rows, .resumed state⟩
  | .error message => ⟨rows, .refused message⟩

def purged (rows : List (CheckpointRow β)) :
    Except String (List (CheckpointRow β) × Nat) → StoreReply β
  | .ok (rows', count) => ⟨rows', .purged count⟩
  | .error message => ⟨rows, .refused message⟩

end StoreReply

section Sealed

variable (digest : Token → String)

/-- The encrypted store. -/
def sealedStep (rows : List (CheckpointRow (SealedState Token))) :
    StoreEvent Key Nonce → StoreReply (SealedState Token)
  | .save db now runId checkpointKey state ctx key nonce => .wrote rows .saved
      (CheckpointStore.save fernetEncrypt digest rows db now runId checkpointKey state ctx key nonce)
  | .load db now runId ctx key => .read rows
      ((CheckpointStore.loadLatest fernetDecrypt rows db now runId ctx key).bind resumeState)
  | .purge db now runId ctx => .purged rows (CheckpointStore.purgeForRun rows db now runId ctx)
  | .deleted runId => ⟨CheckpointRow.delete rows runId, .saved⟩

/-- The encrypted table after events. -/
def sealedRows (es : List (StoreEvent Key Nonce)) : List (CheckpointRow (SealedState Token)) :=
  Runs.run (fun rows e => (sealedStep fernetEncrypt fernetDecrypt digest rows e).rows) [] es

end Sealed

/-! ## The store that keeps the states -/

/-- A state as it was saved, and with which key. -/
structure KeptState (Key Nonce : Type) where
  key : Key
  nonce : Nonce
  state : SafeState

section Plain

variable [DecidableEq Key]

/-- A worker with the key reads the state that was saved last. -/
def plainLoad (rows : List (CheckpointRow (KeptState Key Nonce))) (db : Db) (now : Time)
    (runId : String) (ctx : LeaseContext) (key : Key) : Except String ResumedState := do
  let _ ← requireWritableRun db now runId ctx
  let row ← CheckpointRow.loadable rows runId ctx
  row.inTime now
  if row.body.key = key then pure row.body.state.resumed else throw "检查点密文无效或无法解密"

def plainStep (rows : List (CheckpointRow (KeptState Key Nonce))) :
    StoreEvent Key Nonce → StoreReply (KeptState Key Nonce)
  | .save db now runId checkpointKey state ctx key nonce => .wrote rows .saved do
      let run ← requireWritableRun db now runId ctx
      pure (CheckpointRow.put rows now run ctx checkpointKey ⟨key, nonce, state⟩)
  | .load db now runId ctx key => .read rows (plainLoad rows db now runId ctx key)
  | .purge db now runId ctx => .purged rows (CheckpointStore.purgeForRun rows db now runId ctx)
  | .deleted runId => ⟨CheckpointRow.delete rows runId, .saved⟩

def plainRows (es : List (StoreEvent Key Nonce)) : List (CheckpointRow (KeptState Key Nonce)) :=
  Runs.run (fun rows e => (plainStep rows e).rows) [] es

end Plain

/-! ## Rows under a change of their bodies -/

namespace CheckpointRow

variable {β γ : Type}

def map (f : β → γ) (row : CheckpointRow β) : CheckpointRow γ :=
  { runId := row.runId
    checkpointKey := row.checkpointKey
    privacyVersion := row.privacyVersion
    createdAt := row.createdAt
    expiresAt := row.expiresAt
    body := f row.body }

theorem put_map (f : β → γ) (rows : List (CheckpointRow β)) (now : Time) (run : AgentRun)
    (ctx : LeaseContext) (key : String) (body : β) :
    put (rows.map (map f)) now run ctx key (f body) = (put rows now run ctx key body).map (map f) := by
  unfold put
  have hany : (rows.map (map f)).any
      (fun c => decide (c.runId = run.runId ∧ c.checkpointKey = key)) =
        rows.any (fun c => decide (c.runId = run.runId ∧ c.checkpointKey = key)) := by
    rw [List.any_map]
    rfl
  rw [hany]
  by_cases hfound : rows.any (fun c => decide (c.runId = run.runId ∧ c.checkpointKey = key)) = true
  · rw [if_pos hfound, if_pos hfound, List.map_map, List.map_map]
    apply List.map_congr_left
    intro c _
    by_cases hc : c.runId = run.runId ∧ c.checkpointKey = key
    · show (if c.runId = run.runId ∧ c.checkpointKey = key then _ else _) = map f (if _ then _ else _)
      rw [if_pos hc, if_pos hc]
      rfl
    · show (if c.runId = run.runId ∧ c.checkpointKey = key then _ else _) = map f (if _ then _ else _)
      rw [if_neg hc, if_neg hc]
  · rw [if_neg hfound, if_neg hfound, List.map_append]
    rfl

theorem delete_map (f : β → γ) (rows : List (CheckpointRow β)) (runId : String) :
    delete (rows.map (map f)) runId = (delete rows runId).map (map f) :=
  List.filter_map ..

theorem foldl_later_map (f : β → γ) : ∀ (rows : List (CheckpointRow β)) (found : Option (CheckpointRow β)),
    (rows.map (map f)).foldl later (found.map (map f)) = (rows.foldl later found).map (map f)
  | [], _ => rfl
  | row :: rows, none => foldl_later_map f rows (some row)
  | row :: rows, some found => by
    rw [List.map_cons, List.foldl_cons, List.foldl_cons, ← foldl_later_map f rows]
    refine congrArg (fun found => (rows.map (map f)).foldl later found) ?_
    show (if row.createdAt < found.createdAt then _ else _) =
      Option.map (map f) (if row.createdAt < found.createdAt then _ else _)
    split <;> rfl

theorem mem_of_foldl_later : ∀ {rows : List (CheckpointRow β)} {found : Option (CheckpointRow β)}
    {row : CheckpointRow β}, rows.foldl later found = some row → found = some row ∨ row ∈ rows
  | [], _, _, h => Or.inl h
  | row :: rows, found, row', h => by
    rcases (mem_of_foldl_later h : later found row = some row' ∨ row' ∈ rows) with hlater | hmem
    · have hcases : later found row = found ∨ later found row = some row := by
        cases found with
        | none => exact Or.inr rfl
        | some found =>
          unfold later
          by_cases hlt : row.createdAt < found.createdAt
          · exact Or.inl (if_pos hlt)
          · exact Or.inr (if_neg hlt)
      rcases hcases with heq | heq
      · exact Or.inl (heq.symm.trans hlater)
      · refine Or.inr ?_
        rw [Option.some.inj (heq.symm.trans hlater)]
        exact List.mem_cons_self
    · exact Or.inr (List.mem_cons_of_mem _ hmem)

/-- The row to load is one of the table. -/
theorem mem_of_latest {rows : List (CheckpointRow β)} {runId : String} {row : CheckpointRow β}
    (h : latest rows runId = some row) : row ∈ rows := by
  rcases mem_of_foldl_later h with hnone | hmem
  · cases hnone
  · exact (List.mem_filter.1 hmem).1

theorem latest_map (f : β → γ) (rows : List (CheckpointRow β)) (runId : String) :
    latest (rows.map (map f)) runId = (latest rows runId).map (map f) := by
  unfold latest
  rw [List.filter_map]
  exact foldl_later_map f _ none

theorem loadable_map (f : β → γ) (rows : List (CheckpointRow β)) (runId : String)
    (ctx : LeaseContext) :
    loadable (rows.map (map f)) runId ctx = (loadable rows runId ctx).map (map f) := by
  unfold loadable
  rw [latest_map]
  cases latest rows runId with
  | none => rfl
  | some row =>
    show (if row.privacyVersion ≠ ctx.privacyVersion then _ else _) =
      Except.map (map f) (if row.privacyVersion ≠ ctx.privacyVersion then _ else _)
    split <;> rfl

end CheckpointRow

/-! ## The dictionary is read back -/

theorem stringItems?_stringItems (xs : List String) :
    stringItems? (sorted (stringItems xs)) = some xs := by
  show (sortedItems (xs.map fun x => Tree.str x.toList)).mapM stringOf? = some xs
  induction xs with
  | nil => rfl
  | cons x xs ih =>
    rw [List.map_cons, sortedItems, List.mapM_cons, ih]
    show some (String.ofList x.toList :: xs) = _
    rw [String.ofList_toList]

theorem stringItems_proper (xs : List String) : Proper (stringItems xs) := by
  show ProperItems (xs.map fun x => Tree.str x.toList)
  induction xs with
  | nil => trivial
  | cons x xs ih => exact ⟨trivial, ih⟩

namespace SafeState

theorem dict_keys (s : SafeState) : (s.dict.map (·.1)).Nodup := by
  have hkeys : safeCheckpointKeys.Nodup := by decide
  unfold dict
  cases s.resumeFromNodeId with
  | none => exact hkeys.sublist (List.sublist_append_left _ ["resume_from_node_id".toList])
  | some nodeId => exact hkeys

theorem dict_safe (s : SafeState) : ∀ key ∈ s.dict.map (·.1), key ∈ safeCheckpointKeys := by
  unfold dict
  cases s.resumeFromNodeId with
  | none => exact fun key hkey => List.mem_append_left ["resume_from_node_id".toList] hkey
  | some nodeId => exact fun key hkey => hkey

theorem dict_proper (s : SafeState) : Proper (.obj s.dict) := by
  refine ⟨s.dict_keys, ?_⟩
  unfold dict
  cases s.resumeFromNodeId with
  | none => exact ⟨trivial, stringItems_proper _, stringItems_proper _, trivial⟩
  | some nodeId => exact ⟨trivial, stringItems_proper _, stringItems_proper _, trivial, trivial⟩

theorem dict_nodeIds (s : SafeState) :
    field? s.dict "completed_node_ids".toList = some (stringItems s.completedNodeIds) := rfl

theorem dict_flags (s : SafeState) :
    field? s.dict "fallback_flags".toList = some (stringItems s.fallbackFlags) := rfl

theorem dict_target (s : SafeState) : field? s.dict "resume_from_node_id".toList =
    s.resumeFromNodeId.map fun nodeId => .str nodeId.toList := by
  unfold dict
  cases s.resumeFromNodeId with
  | none => rfl
  | some nodeId => rfl

/-- The dictionary as it comes back. -/
def readDict (s : SafeState) : List (List Char × Tree) :=
  (sortedFields s.dict).insertionSort FieldLe

theorem readDict_field (s : SafeState) (key : List Char) :
    field? s.readDict key = (field? s.dict key).map sorted :=
  field?_sorted s.dict_keys key

theorem resumeState_readDict (s : SafeState) : resumeState s.readDict = .ok s.resumed := by
  have hsafe : s.readDict.any (fun f => !safeCheckpointKeys.contains f.1) = false := by
    refine List.any_eq_false.2 fun f hf => ?_
    have hkey : f.1 ∈ (sortedFields s.dict).map (·.1) :=
      List.mem_map_of_mem ((List.mem_insertionSort _).1 hf)
    rw [sortedFields_keys] at hkey
    rw [List.contains_iff_mem.2 (s.dict_safe f.1 hkey)]
    exact Bool.false_ne_true
  have htarget : (field? s.readDict "resume_from_node_id".toList).bind stringOf? =
      s.resumeFromNodeId := by
    rw [readDict_field, dict_target]
    cases s.resumeFromNodeId with
    | none => rfl
    | some nodeId => exact congrArg some String.ofList_toList
  unfold resumeState
  rw [hsafe, htarget, readDict_field, readDict_field, dict_nodeIds, dict_flags, if_neg (by decide)]
  show (match stringItems? (sorted (stringItems s.completedNodeIds)) with
    | none => Except.error "CHECKPOINT_STATE_INVALID"
    | some completedNodeIds =>
      match stringItems? (sorted (stringItems s.fallbackFlags)) with
      | none => .error "ValidationError"
      | some fallbackFlags => .ok (ResumedState.mk completedNodeIds fallbackFlags
        s.resumeFromNodeId)) = _
  rw [stringItems?_stringItems, stringItems?_stringItems]
  rfl

end SafeState

section Fernet

variable {fernetEncrypt : Key → Nonce → ByteArray → Token}
  {fernetDecrypt : Key → Token → Option ByteArray}

/-- The key opens what it has sealed. -/
theorem decrypt_encrypt
    (hopens : ∀ key nonce payload, fernetDecrypt key (fernetEncrypt key nonce payload) = some payload)
    (key : Key) (nonce : Nonce) (s : SafeState) :
    decrypt fernetDecrypt key (encrypt fernetEncrypt key nonce s.dict) = .ok s.readDict := by
  unfold decrypt encrypt
  rw [hopens, String.toUTF8_eq_toByteArray, String.toByteArray_ofList, Option.bind_some,
    List.utf8Decode?_utf8Encode, Option.bind_some, loads_canonical s.dict_proper]
  rfl

/-- Another key does not. -/
theorem decrypt_other
    (hothers : ∀ key key' nonce payload, key ≠ key' →
      fernetDecrypt key' (fernetEncrypt key nonce payload) = none)
    {key key' : Key} (hne : key ≠ key') (nonce : Nonce) (s : SafeState) :
    decrypt fernetDecrypt key' (encrypt fernetEncrypt key nonce s.dict) =
      .error "检查点密文无效或无法解密" := by
  unfold decrypt encrypt
  rw [hothers key key' nonce _ hne]
  rfl

end Fernet

/-! ## The encrypted store reads back -/

section Refines

variable {fernetEncrypt : Key → Nonce → ByteArray → Token}
  {fernetDecrypt : Key → Token → Option ByteArray} (digest : Token → String)

/-- The row as the table has it. -/
def KeptState.sealed (fernetEncrypt : Key → Nonce → ByteArray → Token) (digest : Token → String)
    (kept : KeptState Key Nonce) : SealedState Token :=
  CheckpointStore.sealedState fernetEncrypt digest kept.key kept.nonce kept.state.dict

variable [DecidableEq Key]

theorem loadLatest_sealed
    (hopens : ∀ key nonce payload, fernetDecrypt key (fernetEncrypt key nonce payload) = some payload)
    (hothers : ∀ key key' nonce payload, key ≠ key' →
      fernetDecrypt key' (fernetEncrypt key nonce payload) = none)
    (rows : List (CheckpointRow (KeptState Key Nonce))) (db : Db) (now : Time) (runId : String)
    (ctx : LeaseContext) (key : Key) :
    (CheckpointStore.loadLatest fernetDecrypt
      (rows.map (CheckpointRow.map (KeptState.sealed fernetEncrypt digest))) db now runId ctx
        key).bind resumeState = plainLoad rows db now runId ctx key := by
  unfold CheckpointStore.loadLatest plainLoad
  rw [CheckpointRow.loadable_map]
  cases requireWritableRun db now runId ctx with
  | error message => rfl
  | ok run =>
    cases CheckpointRow.loadable rows runId ctx with
    | error message => rfl
    | ok row =>
      show Except.bind (do
        row.inTime now
        decrypt fernetDecrypt key (encrypt fernetEncrypt row.body.key row.body.nonce
          row.body.state.dict)) resumeState = (do
        row.inTime now
        if row.body.key = key then pure row.body.state.resumed else throw "检查点密文无效或无法解密")
      cases row.inTime now with
      | error message => rfl
      | ok _ =>
        by_cases hkey : row.body.key = key
        · subst hkey
          rw [if_pos rfl, decrypt_encrypt hopens]
          exact row.body.state.resumeState_readDict
        · rw [if_neg hkey, decrypt_other hothers hkey]
          rfl

/-- One operation on the encrypted table is the one on the plain table. -/
theorem sealedStep_map
    (hopens : ∀ key nonce payload, fernetDecrypt key (fernetEncrypt key nonce payload) = some payload)
    (hothers : ∀ key key' nonce payload, key ≠ key' →
      fernetDecrypt key' (fernetEncrypt key nonce payload) = none)
    (rows : List (CheckpointRow (KeptState Key Nonce))) (e : StoreEvent Key Nonce) :
    sealedStep fernetEncrypt fernetDecrypt digest
        (rows.map (CheckpointRow.map (KeptState.sealed fernetEncrypt digest))) e =
      ⟨(plainStep rows e).rows.map (CheckpointRow.map (KeptState.sealed fernetEncrypt digest)),
        (plainStep rows e).answer⟩ := by
  cases e with
  | save db now runId checkpointKey state ctx key nonce =>
    rw [sealedStep, plainStep, CheckpointStore.save]
    cases requireWritableRun db now runId ctx with
    | error message => rfl
    | ok run =>
      show StoreReply.mk (CheckpointRow.put (rows.map (CheckpointRow.map _)) now run ctx
        checkpointKey (KeptState.sealed fernetEncrypt digest ⟨key, nonce, state⟩)) _ = _
      rw [CheckpointRow.put_map]
      rfl
  | load db now runId ctx key =>
    rw [sealedStep, plainStep, loadLatest_sealed digest hopens hothers]
    cases plainLoad rows db now runId ctx key with
    | error message => rfl
    | ok state => rfl
  | purge db now runId ctx =>
    rw [sealedStep, plainStep, CheckpointStore.purgeForRun, CheckpointStore.purgeForRun]
    cases requireWritableRun db now runId ctx with
    | error message => rfl
    | ok run =>
      show StoreReply.mk (CheckpointRow.delete (rows.map (CheckpointRow.map _)) runId)
        (.purged ((rows.map (CheckpointRow.map _)).length -
          (CheckpointRow.delete (rows.map (CheckpointRow.map _)) runId).length)) = _
      rw [CheckpointRow.delete_map, List.length_map, List.length_map]
      rfl
  | deleted runId =>
    show StoreReply.mk (CheckpointRow.delete (rows.map (CheckpointRow.map _)) runId) _ = _
    rw [CheckpointRow.delete_map]
    rfl

/-- The encrypted table holds the states, sealed. -/
theorem sealedRows_eq
    (hopens : ∀ key nonce payload, fernetDecrypt key (fernetEncrypt key nonce payload) = some payload)
    (hothers : ∀ key key' nonce payload, key ≠ key' →
      fernetDecrypt key' (fernetEncrypt key nonce payload) = none)
    (es : List (StoreEvent Key Nonce)) :
    sealedRows fernetEncrypt fernetDecrypt digest es =
      (plainRows es).map (CheckpointRow.map (KeptState.sealed fernetEncrypt digest)) := by
  induction es using List.reverseRecOn with
  | nil => rfl
  | append_singleton es e ih =>
    unfold sealedRows plainRows at ih ⊢
    rw [run_append, run_append, ih, run_cons, sealedStep_map digest hopens hothers]
    rfl

/-- **Checkpoints are read back.** Whatever was saved, loaded, purged and
deleted before, an operation on the encrypted table answers as on a table of
the states themselves. -/
theorem store_reads_back
    (hopens : ∀ key nonce payload, fernetDecrypt key (fernetEncrypt key nonce payload) = some payload)
    (hothers : ∀ key key' nonce payload, key ≠ key' →
      fernetDecrypt key' (fernetEncrypt key nonce payload) = none)
    (es : List (StoreEvent Key Nonce)) (e : StoreEvent Key Nonce) :
    (sealedStep fernetEncrypt fernetDecrypt digest
      (sealedRows fernetEncrypt fernetDecrypt digest es) e).answer =
        (plainStep (plainRows es) e).answer := by
  rw [sealedRows_eq digest hopens hothers, sealedStep_map digest hopens hothers]

end Refines

namespace CheckpointExample

/-- A token that shows the key and the payload. -/
structure OpenToken where
  key : String
  nonce : Nat
  payload : ByteArray

def openEncrypt (key : String) (nonce : Nat) (payload : ByteArray) : OpenToken :=
  ⟨key, nonce, payload⟩

def openDecrypt (key : String) (token : OpenToken) : Option ByteArray :=
  if token.key = key then some token.payload else none

def ctx : LeaseContext :=
  { executionAttempt := 1
    leaseOwner := "worker-1"
    fencingToken := 1
    leaseExpiresAt := seconds 90
    privacyVersion := 1
    authorizationVersion := 1 }

def waiting : SafeState :=
  { completedSteps := 2
    completedNodeIds := ["draft", "load"]
    fallbackFlags := ["RULES"]
    resumeFromNodeId := some "fallback" }

/-- The worker saves twice. -/
def events : List (StoreEvent String Nat) :=
  [.save (reach {} claimedRun).db 5 "run-1" "attempt:1:step:1"
      { completedSteps := 1, completedNodeIds := ["load"], fallbackFlags := [] } ctx "key-1" 7,
   .save (reach {} claimedRun).db 6 "run-1" "attempt:1:step:2" waiting ctx "key-1" 8]

end CheckpointExample

open CheckpointExample in
/-- The later state is resumed from, and only with the key. -/
theorem waiting_reads_back :
    (sealedStep openEncrypt openDecrypt (fun _ => "digest")
      (sealedRows openEncrypt openDecrypt (fun _ => "digest") events)
      (.load (reach {} claimedRun).db 9 "run-1" ctx "key-1")).answer = .resumed waiting.resumed ∧
    (sealedStep openEncrypt openDecrypt (fun _ => "digest")
      (sealedRows openEncrypt openDecrypt (fun _ => "digest") events)
      (.load (reach {} claimedRun).db 9 "run-1" ctx "key-2")).answer =
        .refused "检查点密文无效或无法解密" := by
  have hopens : ∀ key nonce payload,
      openDecrypt key (openEncrypt key nonce payload) = some payload := fun _ _ _ => if_pos rfl
  have hothers : ∀ key key' nonce payload, key ≠ key' →
      openDecrypt key' (openEncrypt key nonce payload) = none := fun _ _ _ _ hne => if_neg hne
  constructor
  · rw [store_reads_back _ hopens hothers]
    with_unfolding_all rfl
  · rw [store_reads_back _ hopens hothers]
    with_unfolding_all rfl

/-! ## The rows of the model -/

section Typed

/-- The row as the other modules have it. -/
def CheckpointRow.typed (row : CheckpointRow (KeptState Key Nonce)) : AgentCheckpoint :=
  { runId := row.runId
    checkpointKey := row.checkpointKey
    privacyVersion := row.privacyVersion
    state := row.body.state.routing
    createdAt := row.createdAt
    expiresAt := row.expiresAt }

/-- `saveCheckpoint` is the save of the plain table. -/
theorem saveCheckpoint_typed {db : Db} {rows : List (CheckpointRow (KeptState Key Nonce))}
    (hrows : db.checkpoints = rows.map CheckpointRow.typed) (now : Time) (run : AgentRun)
    (ctx : LeaseContext) (checkpointKey : String) (kept : KeptState Key Nonce) :
    (saveCheckpoint db now run ctx checkpointKey kept.state.routing).checkpoints =
      (CheckpointRow.put rows now run ctx checkpointKey kept).map CheckpointRow.typed := by
  unfold saveCheckpoint CheckpointRow.put
  have hany : db.checkpoints.any
      (fun c => decide (c.runId = run.runId ∧ c.checkpointKey = checkpointKey)) =
        rows.any (fun c => decide (c.runId = run.runId ∧ c.checkpointKey = checkpointKey)) := by
    rw [hrows, List.any_map]
    rfl
  rw [hany]
  by_cases hfound :
      rows.any (fun c => decide (c.runId = run.runId ∧ c.checkpointKey = checkpointKey)) = true
  · rw [if_pos hfound, if_pos hfound]
    show db.checkpoints.map _ = _
    rw [hrows, List.map_map, List.map_map]
    apply List.map_congr_left
    intro c _
    by_cases hc : c.runId = run.runId ∧ c.checkpointKey = checkpointKey
    · show (if c.runId = run.runId ∧ c.checkpointKey = checkpointKey then _ else _) =
        CheckpointRow.typed (if _ then _ else _)
      rw [if_pos hc, if_pos hc]
      rfl
    · show (if c.runId = run.runId ∧ c.checkpointKey = checkpointKey then _ else _) =
        CheckpointRow.typed (if _ then _ else _)
      rw [if_neg hc, if_neg hc]
  · rw [if_neg hfound, if_neg hfound]
    show db.checkpoints ++ _ = _
    rw [hrows, List.map_append]
    rfl

/-- What `resume` takes of the routing state of the model. -/
def CheckpointState.resumed (s : CheckpointState) : ResumedState :=
  ⟨s.completedNodeIds, [], s.resumeFromNodeId⟩

theorem foldl_later_typed : ∀ (rows : List (CheckpointRow (KeptState Key Nonce)))
    (found : Option (CheckpointRow (KeptState Key Nonce))),
    (rows.map CheckpointRow.typed).foldl laterCheckpoint (found.map CheckpointRow.typed) =
      (rows.foldl CheckpointRow.later found).map CheckpointRow.typed
  | [], _ => rfl
  | row :: rows, none => foldl_later_typed rows (some row)
  | row :: rows, some found => by
    rw [List.map_cons, List.foldl_cons, List.foldl_cons, ← foldl_later_typed rows]
    refine congrArg (fun found => (rows.map CheckpointRow.typed).foldl laterCheckpoint found) ?_
    show (if row.createdAt < found.createdAt then _ else _) =
      Option.map CheckpointRow.typed (if row.createdAt < found.createdAt then _ else _)
    split <;> rfl

/-- `loadLatest` is the load of the plain table by a worker with the key. -/
theorem loadLatest_typed [DecidableEq Key] {db : Db}
    {rows : List (CheckpointRow (KeptState Key Nonce))}
    (hrows : db.checkpoints = rows.map CheckpointRow.typed) {key : Key}
    (hkey : ∀ row ∈ rows, row.body.key = key) (now : Time) (runId : String) (ctx : LeaseContext) :
    (loadLatest db now runId ctx).map CheckpointState.resumed =
      (plainLoad rows db now runId ctx key).toOption.map fun r => { r with fallbackFlags := [] } := by
  have hlatest : latestCheckpoint db runId =
      (CheckpointRow.latest rows runId).map CheckpointRow.typed := by
    unfold latestCheckpoint checkpointsOf CheckpointRow.latest
    rw [hrows, List.filter_map]
    exact foldl_later_typed _ none
  have hwritable : (∃ message, requireWritableRun db now runId ctx = .error message) ∧
      LeaseService.canWrite db now runId ctx = false ∨
      (∃ run, requireWritableRun db now runId ctx = .ok run) ∧
      LeaseService.canWrite db now runId ctx = true := by
    unfold requireWritableRun
    cases hcan : LeaseService.canWrite db now runId ctx with
    | false => exact Or.inl ⟨⟨_, if_pos rfl⟩, rfl⟩
    | true =>
      rw [if_neg (by decide)]
      cases hrun : db.runs.find? runId with
      | none =>
        rw [LeaseService.canWrite, hrun] at hcan
        cases hcan
      | some run => exact Or.inr ⟨⟨run, rfl⟩, rfl⟩
  unfold loadLatest plainLoad
  rw [hlatest]
  rcases hwritable with ⟨⟨message, hrun⟩, hcan⟩ | ⟨⟨run, hrun⟩, hcan⟩
  · rw [hrun, hcan, if_pos rfl]
    rfl
  rw [hrun, hcan, if_neg (by decide)]
  cases hrow : CheckpointRow.latest rows runId with
  | none =>
    have hload : CheckpointRow.loadable rows runId ctx = .error "不存在可恢复的检查点" := by
      rw [CheckpointRow.loadable, hrow]
    rw [hload]
    rfl
  | some row =>
    have hload : CheckpointRow.loadable rows runId ctx =
        if row.privacyVersion ≠ ctx.privacyVersion then .error "检查点隐私版本不兼容"
        else .ok row := by
      rw [CheckpointRow.loadable, hrow]
    rw [hload]
    show Option.map CheckpointState.resumed
      (if row.privacyVersion ≠ ctx.privacyVersion then none
      else if row.expiresAt ≤ now then none else some row.body.state.routing) = _
    by_cases hprivacy : row.privacyVersion ≠ ctx.privacyVersion
    · rw [if_pos hprivacy, if_pos hprivacy]
      rfl
    rw [if_neg hprivacy, if_neg hprivacy]
    by_cases hexpired : row.expiresAt ≤ now
    · have htime : row.inTime now = .error "检查点已过期" := if_pos hexpired
      rw [if_pos hexpired]
      show none = Option.map _ (Except.toOption (do
        row.inTime now
        if row.body.key = key then pure row.body.state.resumed
        else throw "检查点密文无效或无法解密"))
      rw [htime]
      rfl
    · have htime : row.inTime now = .ok () := if_neg hexpired
      rw [if_neg hexpired]
      show _ = Option.map _ (Except.toOption (do
        row.inTime now
        if row.body.key = key then pure row.body.state.resumed
        else throw "检查点密文无效或无法解密"))
      rw [htime, if_pos (hkey row (CheckpointRow.mem_of_latest hrow))]
      rfl

end Typed

end AgentRuntime
