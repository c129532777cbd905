import AgentRuntime.Revisions
import AgentRuntime.Lib.Numbering

/-!
# The rows of a playback document

A publication that has passed `_validate_complete_document` writes a row for
every scene and every action. What the tables ask of the rows is more than
the validation looks at: it compares the scene ids of the document, and the
orders of the actions that have one. It does not look at the order of a scene
or the id of an action, an action without an order may have taken the number
of a later one, and the ids are unique over all documents that are stored.

`Checked` is what the validation ensures, `Storable` what remains, and
`writePublication_iff` says that a validated publication can be written
exactly when its document is storable. `Anchored` is the invariant of the tables
that this needs, and `publications_stored_iff` carries it along any sequence
of publications.
-/

namespace AgentRuntime

open Keyed Runs Numbering

/-! ## What the validation ensures -/

/-- A field, where there is an object. -/
def Json.field? (key : String) : Json → Option Json
  | .obj fields => Json.get? key fields
  | _ => none

/-- A text column. -/
def Json.textOf (key : String) (j : Json) : String :=
  ((j.field? key).bind Json.str?).getD ""

/-- The order that is given. -/
def Json.orderOf (j : Json) : Option Int := (j.field? "order").bind Json.column?

/-- The order of an action, with its scene. -/
def Json.orderInScene (action : Json) : String × Option Int :=
  (action.textOf "scene_id", action.orderOf)

namespace PlaybackDocument

theorem refuseScene_error (scene : Json) : ∃ e, refuseScene scene = .error e := by
  unfold refuseScene
  split
  · cases ((Json.get? "safety_level" _).getD (.str "normal")).memberOf safetyLevels with
    | error e => exact ⟨e, rfl⟩
    | ok safe => exact ⟨_, rfl⟩
  · exact ⟨_, rfl⟩

theorem refuseScene_bind {α : Type} (scene : Json) (a b : α) :
    (do refuseScene scene; pure a : Result α) ≠ .ok b := by
  obtain ⟨e, he⟩ := refuseScene_error scene
  rw [he]
  exact fun h => (nomatch h)

/-- A scene that is accepted has an id that is new. -/
theorem checkScene_ok {seen seen' : List String} {scene : Json}
    (h : checkScene seen scene = .ok seen') :
    (∃ fields, scene = .obj fields) ∧ scene.textOf "scene_id" ∉ seen ∧
      seen' = seen ++ [scene.textOf "scene_id"] := by
  unfold checkScene at h
  split at h
  · next fields =>
    split at h
    · next id hid =>
      have htext : (Json.obj fields).textOf "scene_id" = id := by
        simp only [Json.textOf, Json.field?, hid, Option.bind_some, Json.str?, Option.getD_some]
      split at h
      · exact absurd h (refuseScene_bind _ _ _)
      · obtain ⟨typed, _, h⟩ := bind_ok.mp h
        split at h
        · obtain ⟨safe, _, h⟩ := bind_ok.mp h
          split at h
          · next hnew =>
            cases h
            rw [htext]
            exact ⟨⟨fields, rfl⟩, hnew.2, rfl⟩
          · exact absurd h (refuseScene_bind _ _ _)
        · exact absurd h (refuseScene_bind _ _ _)
    · exact absurd h (refuseScene_bind _ _ _)
  · exact absurd h (refuseScene_bind _ _ _)

theorem checkScenes_ok : ∀ {scenes : List Json} {seen ids : List String},
    checkScenes seen scenes = .ok ids →
      (∀ scene ∈ scenes, ∃ fields, scene = .obj fields) ∧
        ids = seen ++ scenes.map (·.textOf "scene_id") ∧ (seen.Nodup → ids.Nodup)
  | [], seen, ids, h => by
    cases h
    exact ⟨fun _ hs => (nomatch hs), (List.append_nil _).symm, id⟩
  | scene :: scenes, seen, ids, h => by
    obtain ⟨seen', hone, hrest⟩ := bind_ok.mp h
    obtain ⟨hobj, hnew, rfl⟩ := checkScene_ok hone
    obtain ⟨hobjs, rfl, hnodup⟩ := checkScenes_ok hrest
    refine ⟨List.forall_mem_cons.mpr ⟨hobj, hobjs⟩, by simp, fun hseen => hnodup ?_⟩
    exact List.nodup_append.mpr ⟨hseen, List.nodup_singleton _, fun a ha b hb hab => by
      rw [List.mem_singleton] at hb
      exact hnew (hb ▸ hab ▸ ha)⟩

/-- An order that is accepted is a new one of its scene. -/
theorem actionOrder_ok {orders orders' : List (String × Int)} {sceneId : String}
    {order : Option Json} (h : actionOrder orders sceneId order = .ok orders') :
    (order.bind Json.column? = none ∧ orders' = orders) ∨
      ∃ n, order.bind Json.column? = some n ∧ (sceneId, n) ∉ orders ∧
        orders' = orders ++ [(sceneId, n)] := by
  unfold actionOrder at h
  split at h
  · cases h
    exact Or.inl ⟨rfl, rfl⟩
  · cases h
    exact Or.inl ⟨rfl, rfl⟩
  · next order _ =>
    split at h
    · next n hn =>
      have hcolumn : order.column? = some n := by
        unfold positiveInt at hn
        split at hn
        · split at hn
          · exact hn
          · cases hn
        · cases hn
      split at h
      · cases h
      · next hnew =>
        cases h
        exact Or.inr ⟨n, hcolumn, hnew, rfl⟩
    · cases h

/-- An action that is accepted is one of a scene of the document. -/
theorem checkAction_ok {sceneIds : List String} {orders orders' : List (String × Int)}
    {action : Json} (h : checkAction sceneIds orders action = .ok orders') :
    (∃ fields, action = .obj fields) ∧ action.textOf "scene_id" ∈ sceneIds ∧
      ((action.orderOf = none ∧ orders' = orders) ∨
        ∃ n, action.orderOf = some n ∧ (action.textOf "scene_id", n) ∉ orders ∧
          orders' = orders ++ [(action.textOf "scene_id", n)]) := by
  unfold checkAction at h
  split at h
  · next fields =>
    split at h
    · obtain ⟨known, hknown, h⟩ := bind_ok.mp h
      obtain ⟨_, hscene, h⟩ := bind_ok.mp h
      obtain ⟨typed, _, h⟩ := bind_ok.mp h
      obtain ⟨_, _, h⟩ := bind_ok.mp h
      obtain ⟨_, _, h⟩ := bind_ok.mp h
      refine ⟨⟨fields, rfl⟩, ?_, actionOrder_ok h⟩
      show ((Json.get? "scene_id" fields).bind Json.str?).getD "" ∈ sceneIds
      cases hid : Json.get? "scene_id" fields with
      | none =>
        rw [hid] at hknown
        cases hknown
        exact absurd (require_ok.mp hscene) (by decide)
      | some value =>
        rw [hid] at hknown
        cases value with
        | str id =>
          cases hknown
          exact of_decide_eq_true (require_ok.mp hscene)
        | arr _ => cases hknown
        | obj _ => cases hknown
        | _ =>
          cases hknown
          exact absurd (require_ok.mp hscene) (by decide)
    · cases h
  · cases h

/-- The orders that are given differ in every scene, and from those before. -/
theorem checkActions_ok {sceneIds : List String} : ∀ {actions : List Json}
    {orders : List (String × Int)}, checkActions sceneIds orders actions = .ok () →
      (∀ action ∈ actions, (∃ fields, action = .obj fields) ∧
        action.textOf "scene_id" ∈ sceneIds) ∧
      ∀ k, (given (ofGroup k (actions.map Json.orderInScene))).Nodup ∧
        ∀ n ∈ given (ofGroup k (actions.map Json.orderInScene)), (k, n) ∉ orders
  | [], orders, _ =>
    ⟨fun _ ha => (nomatch ha), fun _ => ⟨List.nodup_nil, fun _ hn => (nomatch hn)⟩⟩
  | action :: actions, orders, h => by
    obtain ⟨orders', hone, hrest⟩ := bind_ok.mp h
    obtain ⟨hobj, hknown, horder⟩ := checkAction_ok hone
    obtain ⟨hactions, hgiven⟩ := checkActions_ok hrest
    refine ⟨List.forall_mem_cons.mpr ⟨⟨hobj, hknown⟩, hactions⟩, fun k => ?_⟩
    obtain ⟨hnodup, hnew⟩ := hgiven k
    by_cases hk : action.textOf "scene_id" = k
    · have hcons : ofGroup k ((action :: actions).map Json.orderInScene)
          = action.orderOf :: ofGroup k (actions.map Json.orderInScene) := by
        simp [ofGroup, Json.orderInScene, hk]
      rw [hcons]
      rcases horder with ⟨hnone, rfl⟩ | ⟨n, hn, hfree, rfl⟩
      · rw [hnone]
        exact ⟨hnodup, hnew⟩
      · rw [hk] at hnew hfree
        rw [hn, given_some]
        refine ⟨List.nodup_cons.mpr ⟨fun hmem => ?_, hnodup⟩, fun m hm => ?_⟩
        · exact hnew n hmem (List.mem_append_right _ (List.mem_singleton.mpr rfl))
        · rcases List.mem_cons.mp hm with rfl | hm
          · exact hfree
          · exact fun hmem => hnew m hm (List.mem_append_left _ hmem)
    · have hcons : ofGroup k ((action :: actions).map Json.orderInScene)
          = ofGroup k (actions.map Json.orderInScene) := by
        simp [ofGroup, Json.orderInScene, hk]
      rw [hcons]
      refine ⟨hnodup, fun m hm hmem => ?_⟩
      rcases horder with ⟨_, rfl⟩ | ⟨n, _, _, rfl⟩
      · exact hnew m hm hmem
      · exact hnew m hm (List.mem_append_left _ hmem)

namespace Body

def sceneIds (b : Body) : List String := b.scenes.map (·.textOf "scene_id")

def sceneOrders (b : Body) : List (Option Int) := b.scenes.map Json.orderOf

def actionIds (b : Body) : List String := b.actions.map (·.textOf "action_id")

def actionOrders (b : Body) : List (String × Option Int) := b.actions.map Json.orderInScene

/-- What the validation ensures. -/
structure Checked (b : Body) : Prop where
  scenes : ∀ scene ∈ b.scenes, ∃ fields, scene = .obj fields
  sceneIds : b.sceneIds.Nodup
  actions : ∀ action ∈ b.actions, (∃ fields, action = .obj fields) ∧
    action.textOf "scene_id" ∈ b.sceneIds
  orders : ∀ k, (given (ofGroup k b.actionOrders)).Nodup

end Body

theorem validateComplete_checked {text : PyText} {document : List (String × Json)} {b : Body}
    (h : validateComplete text document = .ok b) : b.Checked := by
  unfold validateComplete at h
  split at h
  · obtain ⟨_, _, h⟩ := bind_ok.mp h
    obtain ⟨_, _, h⟩ := bind_ok.mp h
    obtain ⟨_, _, h⟩ := bind_ok.mp h
    obtain ⟨ids, hscenes, h⟩ := bind_ok.mp h
    obtain ⟨_, hactions, h⟩ := bind_ok.mp h
    cases h
    obtain ⟨hobjs, rfl, hnodup⟩ := checkScenes_ok hscenes
    obtain ⟨hacts, horders⟩ := checkActions_ok hactions
    exact ⟨hobjs, hnodup List.nodup_nil, hacts, fun k => (horders k).1⟩
  · cases h

end PlaybackDocument

/-! ## One row after the other -/

/-- Rows that are inserted one after the other, each apart from those that
are stored: the insertions succeed together exactly when the rows are apart
from the stored ones and from each other. -/
theorem foldlM_insert_iff {σ ρ : Type} {insert : σ → ρ → Result σ} {stored : σ → List ρ}
    {apart : ρ → ρ → Prop}
    (hinsert : ∀ s r, (∃ s', insert s r = .ok s') ↔ ∀ other ∈ stored s, apart other r)
    (hstored : ∀ s r s', insert s r = .ok s' → stored s' = stored s ++ [r]) :
    ∀ (rows : List ρ) (s : σ), (∃ s', rows.foldlM insert s = .ok s') ↔
      (∀ r ∈ rows, ∀ other ∈ stored s, apart other r) ∧ rows.Pairwise apart
  | [], s => by simp [pure, Except.pure]
  | row :: rows, s => by
    have hiff := hinsert s row
    rw [List.forall_mem_cons, List.pairwise_cons, ← hiff]
    constructor
    · rintro ⟨s', h⟩
      obtain ⟨s₁, hone, hrest⟩ := bind_ok.mp h
      obtain ⟨hapart, hpair⟩ := (foldlM_insert_iff hinsert hstored rows s₁).mp ⟨s', hrest⟩
      rw [hstored s row s₁ hone] at hapart
      exact ⟨⟨⟨s₁, hone⟩, fun r hr other ho => hapart r hr other (List.mem_append_left _ ho)⟩,
        fun r hr => hapart r hr row (List.mem_append_right _ (List.mem_singleton.mpr rfl)), hpair⟩
    · rintro ⟨⟨⟨s₁, hone⟩, hrows⟩, hrow, hpair⟩
      have hrest := (foldlM_insert_iff hinsert hstored rows s₁).mpr ⟨fun r hr other ho => by
        rw [hstored s row s₁ hone, List.mem_append, List.mem_singleton] at ho
        rcases ho with ho | rfl
        · exact hrows r hr other ho
        · exact hrow r hr, hpair⟩
      obtain ⟨s', hrest⟩ := hrest
      exact ⟨s', bind_ok.mpr ⟨s₁, hone, hrest⟩⟩

theorem foldlM_insert_stored {σ ρ : Type} {insert : σ → ρ → Result σ} {stored : σ → List ρ}
    (hstored : ∀ s r s', insert s r = .ok s' → stored s' = stored s ++ [r]) :
    ∀ (rows : List ρ) (s s' : σ), rows.foldlM insert s = .ok s' → stored s' = stored s ++ rows
  | [], s, s', h => by
    cases h
    exact (List.append_nil _).symm
  | row :: rows, s, s', h => by
    obtain ⟨s₁, hone, hrest⟩ := bind_ok.mp h
    rw [foldlM_insert_stored hstored rows s₁ s' hrest, hstored s row s₁ hone, List.append_assoc]
    rfl

/-- What no insertion changes. -/
theorem foldlM_insert_frame {σ ρ τ : Type} {insert : σ → ρ → Result σ} {part : σ → τ}
    (hframe : ∀ s r s', insert s r = .ok s' → part s' = part s) :
    ∀ (rows : List ρ) (s s' : σ), rows.foldlM insert s = .ok s' → part s' = part s
  | [], s, s', h => by
    cases h
    rfl
  | row :: rows, s, s', h => by
    obtain ⟨s₁, hone, hrest⟩ := bind_ok.mp h
    exact (foldlM_insert_frame hframe rows s₁ s' hrest).trans (hframe s row s₁ hone)

/-- Two scenes that the table takes together. -/
def MemoryScene.Apart (s t : MemoryScene) : Prop :=
  s.sceneId ≠ t.sceneId ∧ ¬ (s.documentId = t.documentId ∧ s.sceneOrder = t.sceneOrder)

/-- Two actions that the table takes together. -/
def MemoryAction.Apart (a b : MemoryAction) : Prop :=
  a.actionId ≠ b.actionId ∧ ¬ (a.sceneId = b.sceneId ∧ a.actionOrder = b.actionOrder)

theorem require_all_iff {σ ρ : Type} {rows : List ρ} {p : ρ → Prop} [DecidablePred p]
    {e : ServiceError} {s : σ} :
    (∃ s', (do require (rows.all (fun r => decide (p r)) = true) e; pure s : Result σ) = .ok s') ↔
      ∀ r ∈ rows, p r := by
  constructor
  · rintro ⟨s', h⟩ r hr
    obtain ⟨_, hall, _⟩ := bind_ok.mp h
    exact of_decide_eq_true (List.all_eq_true.mp (require_ok.mp hall) r hr)
  · intro h
    have hall : rows.all (fun r => decide (p r)) = true :=
      List.all_eq_true.mpr fun r hr => decide_eq_true (h r hr)
    exact ⟨s, bind_ok.mpr ⟨(), require_ok.mpr hall, rfl⟩⟩

theorem insertScene_iff (db : MemoirDb) (s : MemoryScene) :
    (∃ db', insertScene db s = .ok db') ↔ ∀ other ∈ db.scenes, other.Apart s :=
  require_all_iff

theorem insertAction_iff (db : MemoirDb) (a : MemoryAction) :
    (∃ db', insertAction db a = .ok db') ↔ ∀ other ∈ db.actions, other.Apart a :=
  require_all_iff

theorem insertScene_ok {db : MemoirDb} {s : MemoryScene} {db' : MemoirDb}
    (h : insertScene db s = .ok db') : db' = { db with scenes := db.scenes ++ [s] } := by
  obtain ⟨_, _, h⟩ := bind_ok.mp h
  cases h
  rfl

theorem insertAction_ok {db : MemoirDb} {a : MemoryAction} {db' : MemoirDb}
    (h : insertAction db a = .ok db') : db' = { db with actions := db.actions ++ [a] } := by
  obtain ⟨_, _, h⟩ := bind_ok.mp h
  cases h
  rfl

theorem insertScene_scenes (db : MemoirDb) (s : MemoryScene) (db' : MemoirDb)
    (h : insertScene db s = .ok db') : db'.scenes = db.scenes ++ [s] := by
  rw [insertScene_ok h]

theorem insertScene_actions (db : MemoirDb) (s : MemoryScene) (db' : MemoirDb)
    (h : insertScene db s = .ok db') : db'.actions = db.actions := by
  rw [insertScene_ok h]

theorem insertAction_actions (db : MemoirDb) (a : MemoryAction) (db' : MemoirDb)
    (h : insertAction db a = .ok db') : db'.actions = db.actions ++ [a] := by
  rw [insertAction_ok h]

theorem insertAction_scenes (db : MemoirDb) (a : MemoryAction) (db' : MemoirDb)
    (h : insertAction db a = .ok db') : db'.scenes = db.scenes := by
  rw [insertAction_ok h]

/-! ## The rows of a document -/

/-- The scenes of a document with their numbers. -/
def sceneRows (documentId : String) (scenes : List Json) (orders : List Int) : List MemoryScene :=
  (scenes.zip orders).map fun p => ⟨p.1.textOf "scene_id", documentId, p.2⟩

/-- The actions of a document with their numbers. -/
def actionRows (actions : List Json) (orders : List (String × Int)) : List MemoryAction :=
  (actions.zip orders).map fun p => ⟨p.1.textOf "action_id", p.2.1, p.2.2⟩

/-- Every order a scene has fits the column. -/
def OrdersFit (scenes : List Json) : Prop :=
  ∀ scene ∈ scenes, ∀ order ∈ scene.field? "order", order.column?.isSome

theorem insertScenes_rows {documentId : String} : ∀ {scenes : List Json} {k : Nat} {db : MemoirDb},
    (∀ scene ∈ scenes, ∃ fields, scene = .obj fields) → OrdersFit scenes →
      insertScenes documentId k db scenes
        = (sceneRows documentId scenes (places k (scenes.map Json.orderOf))).foldlM insertScene db
  | [], _, _, _, _ => rfl
  | scene :: scenes, k, db, hobjs, hfit => by
    obtain ⟨⟨fields, rfl⟩, hrest⟩ := List.forall_mem_cons.mp hobjs
    obtain ⟨hone, hfit⟩ := List.forall_mem_cons.mp hfit
    have horder : ((Json.get? "order" fields).getD (.int k)).column?
        = some ((Json.obj fields).orderOf.getD k) := by
      show _ = some (((Json.get? "order" fields).bind Json.column?).getD k)
      cases hget : Json.get? "order" fields with
      | none => rfl
      | some order =>
        obtain ⟨n, hn⟩ := Option.isSome_iff_exists.mp (hone order hget)
        rw [Option.getD_some, Option.bind_some, hn]
        rfl
    rw [insertScenes, horder]
    show (do
      let db' ← insertScene db ⟨sceneIdOf fields, documentId, (Json.obj fields).orderOf.getD k⟩
      insertScenes documentId (k + 1) db' scenes) = _
    refine bind_congr fun db' => ?_
    exact insertScenes_rows hrest hfit

theorem insertScenes_unfit {documentId : String} : ∀ {scenes : List Json} {k : Nat}
    {db db' : MemoirDb}, insertScenes documentId k db scenes = .ok db' → OrdersFit scenes
  | [], _, _, _, _ => fun _ hs => (nomatch hs)
  | .obj fields :: scenes, k, db, db', h => by
    rw [insertScenes] at h
    split at h
    · cases h
    · next n hn =>
      obtain ⟨db₁, _, hrest⟩ := bind_ok.mp h
      refine List.forall_mem_cons.mpr ⟨fun order horder => ?_, insertScenes_unfit hrest⟩
      have hget : Json.get? "order" fields = some order := horder
      rw [hget, Option.getD_some] at hn
      rw [hn]
      rfl
  | .null :: _, _, _, _, h => by cases h
  | .bool _ :: _, _, _, _, h => by cases h
  | .int _ :: _, _, _, _, h => by cases h
  | .real _ _ :: _, _, _, _, h => by cases h
  | .str _ :: _, _, _, _, h => by cases h
  | .arr _ :: _, _, _, _, h => by cases h

/-- The dictionary of the last numbers, as a function. -/
theorem lookup_update (last : List (String × Int)) (k : String) (n : Int) :
    (fun j => (((k, n) :: last).lookup j).getD 0)
      = Function.update (fun j => (last.lookup j).getD 0) k n := by
  funext j
  by_cases hj : j = k
  · rw [hj, Function.update_self, List.lookup_cons_self]
    rfl
  · have hne : (j == k) = false := by simpa using hj
    rw [Function.update_of_ne hj, List.lookup_cons, hne]

theorem insertActions_rows : ∀ {actions : List Json} {last : List (String × Int)} {db : MemoirDb},
    (∀ action ∈ actions, ∃ fields, action = .obj fields) →
      insertActions last db actions = (actionRows actions (runningIn
        (fun k => (last.lookup k).getD 0) (actions.map Json.orderInScene))).foldlM insertAction db
  | [], _, _, _ => rfl
  | action :: actions, last, db, hobjs => by
    obtain ⟨⟨fields, rfl⟩, hrest⟩ := List.forall_mem_cons.mp hobjs
    rw [insertActions]
    refine bind_congr fun db' => ?_
    rw [insertActions_rows hrest]
    congr 2
    exact congrArg (fun f => runningIn f _) (lookup_update last _ _)

/-! ## What else the tables ask -/

namespace PlaybackDocument.Body

/-- The orders that scenes have fit the column, differ from each other, and
none is the position of a scene without one. -/
def ScenesApart (b : Body) : Prop :=
  OrdersFit b.scenes ∧ (given b.sceneOrders).Nodup ∧
    ∀ p ∈ b.sceneOrders.zipIdx 1, p.1 = none → (p.2 : Int) ∉ given b.sceneOrders

/-- No action has the order that one without has taken before, in its scene. -/
def ActionsApart (b : Body) : Prop :=
  ∀ k ∈ b.sceneIds, Unmet 0 (ofGroup k b.actionOrders)

/-- The ids are new, and those of the actions differ from each other. -/
def NamesNew (b : Body) (db : MemoirDb) : Prop :=
  (∀ s ∈ db.scenes, s.sceneId ∉ b.sceneIds) ∧ b.actionIds.Nodup ∧
    ∀ a ∈ db.actions, a.actionId ∉ b.actionIds

/-- What the tables ask and the validation does not ensure. -/
def Storable (b : Body) (db : MemoirDb) : Prop :=
  b.ScenesApart ∧ b.ActionsApart ∧ b.NamesNew db

instance (b : Body) (db : MemoirDb) : Decidable (b.Storable db) := by
  unfold Storable ScenesApart OrdersFit ActionsApart NamesNew; infer_instance

end PlaybackDocument.Body

/-- Where the rows of the tables belong: a document to an archive that has not
gone back, a scene to a document and an action to a scene. -/
structure Anchored (db : MemoirDb) : Prop where
  documents : ∀ d ∈ db.documents.rows, ∃ a,
    db.archives.find? d.archiveId = some a ∧ d.revision ≤ a.publishedRevision
  scenes : ∀ s ∈ db.scenes, ∃ d ∈ db.documents.rows, d.documentId = s.documentId
  actions : ∀ a ∈ db.actions, ∃ s ∈ db.scenes, s.sceneId = a.sceneId

/-! ## Writing a publication -/

section Rows

variable {documentId : String} {db : MemoirDb}

theorem sceneRows_ids (documentId : String) {scenes : List Json} {orders : List Int}
    (hlength : orders.length = scenes.length) :
    (sceneRows documentId scenes orders).map (·.sceneId) = scenes.map (·.textOf "scene_id") := by
  rw [sceneRows, List.map_map]
  show (scenes.zip orders).map ((·.textOf "scene_id") ∘ Prod.fst) = _
  rw [← List.map_map, List.map_fst_zip (by omega)]

theorem sceneRows_document (documentId : String) (scenes : List Json) (orders : List Int) :
    ∀ r ∈ sceneRows documentId scenes orders, r.documentId = documentId := by
  intro r hr
  obtain ⟨_, _, rfl⟩ := List.mem_map.mp hr
  rfl

/-- The rows of scenes with ids of their own, in a document that is new. -/
theorem sceneRows_apart {scenes : List Json} {orders : List Int}
    (hlength : orders.length = scenes.length)
    (hids : (scenes.map (·.textOf "scene_id")).Nodup)
    (hnew : ∀ s ∈ db.scenes, s.documentId ≠ documentId) :
    ((∀ r ∈ sceneRows documentId scenes orders, ∀ other ∈ db.scenes, other.Apart r) ∧
        (sceneRows documentId scenes orders).Pairwise MemoryScene.Apart) ↔
      (∀ s ∈ db.scenes, s.sceneId ∉ scenes.map (·.textOf "scene_id")) ∧ orders.Nodup := by
  have hnames := sceneRows_ids documentId hlength
  have hdocument := sceneRows_document documentId scenes orders
  have hnumbers : (sceneRows documentId scenes orders).map (·.sceneOrder) = orders := by
    rw [sceneRows, List.map_map]
    show (scenes.zip orders).map Prod.snd = _
    rw [List.map_snd_zip (by omega)]
  refine and_congr ⟨fun h s hs hmem => ?_, fun h r hr other ho => ⟨fun heq => ?_, ?_⟩⟩ ?_
  · rw [← hnames] at hmem
    obtain ⟨r, hr, heq⟩ := List.mem_map.mp hmem
    exact (h r hr s hs).1 heq.symm
  · refine h other ho ?_
    rw [heq, ← hnames]
    exact List.mem_map_of_mem hr
  · rintro ⟨hsame, _⟩
    exact hnew other ho (hsame.trans (hdocument r hr))
  · have hnodup : orders.Nodup ↔ (sceneRows documentId scenes orders).Pairwise
        fun s t => s.sceneOrder ≠ t.sceneOrder := by
      rw [← List.pairwise_map, hnumbers]
      rfl
    rw [← hnames] at hids
    rw [hnodup]
    refine ⟨fun h => h.imp_of_mem fun hr hr' hapart heq => ?_, fun h => ?_⟩
    · exact hapart.2 ⟨(hdocument _ hr).trans (hdocument _ hr').symm, heq⟩
    · refine ((List.pairwise_map.mp hids).and h).imp ?_
      exact fun ⟨hname, hnumber⟩ => ⟨hname, fun hsame => hnumber hsame.2⟩

theorem actionRows_numbers {actions : List Json} {orders : List (String × Int)}
    (hlength : orders.length = actions.length) :
    (actionRows actions orders).map (fun r => (r.sceneId, r.actionOrder)) = orders := by
  rw [actionRows, List.map_map]
  show (actions.zip orders).map Prod.snd = _
  rw [List.map_snd_zip (by omega)]

/-- The rows of actions of scenes that are new. -/
theorem actionRows_apart {actions : List Json} {orders : List (String × Int)}
    (hlength : orders.length = actions.length)
    (hnew : ∀ a ∈ db.actions, ∀ o ∈ orders, a.sceneId ≠ o.1) :
    ((∀ r ∈ actionRows actions orders, ∀ other ∈ db.actions, other.Apart r) ∧
        (actionRows actions orders).Pairwise MemoryAction.Apart) ↔
      ((actions.map (·.textOf "action_id")).Nodup ∧
        ∀ a ∈ db.actions, a.actionId ∉ actions.map (·.textOf "action_id")) ∧ orders.Nodup := by
  have hnames : (actionRows actions orders).map (·.actionId)
      = actions.map (·.textOf "action_id") := by
    rw [actionRows, List.map_map]
    show (actions.zip orders).map ((·.textOf "action_id") ∘ Prod.fst) = _
    rw [← List.map_map, List.map_fst_zip (by omega)]
  have hnumbers := actionRows_numbers hlength
  have hscene : ∀ r ∈ actionRows actions orders, (r.sceneId, r.actionOrder) ∈ orders := by
    intro r hr
    rw [← hnumbers]
    exact List.mem_map_of_mem hr
  have hstored : (∀ r ∈ actionRows actions orders, ∀ other ∈ db.actions, other.Apart r) ↔
      ∀ a ∈ db.actions, a.actionId ∉ actions.map (·.textOf "action_id") := by
    refine ⟨fun h a ha hmem => ?_, fun h r hr other ho => ⟨fun heq => ?_, ?_⟩⟩
    · rw [← hnames] at hmem
      obtain ⟨r, hr, heq⟩ := List.mem_map.mp hmem
      exact (h r hr a ha).1 heq.symm
    · refine h other ho ?_
      rw [heq, ← hnames]
      exact List.mem_map_of_mem hr
    · exact fun hsame => hnew other ho _ (hscene r hr) hsame.1
  have hpair : (actionRows actions orders).Pairwise MemoryAction.Apart ↔
      (actions.map (·.textOf "action_id")).Nodup ∧ orders.Nodup := by
    have hnodup : orders.Nodup ↔ (actionRows actions orders).Pairwise
        fun a b => (a.sceneId, a.actionOrder) ≠ (b.sceneId, b.actionOrder) := by
      rw [← List.pairwise_map, hnumbers]
      rfl
    rw [hnodup, ← hnames, List.Nodup, List.pairwise_map, ← List.pairwise_and_iff]
    refine List.Pairwise.iff fun a b => and_congr_right fun _ => not_congr ?_
    rw [Prod.mk.injEq]
  rw [hstored, hpair]
  tauto

end Rows

namespace PlaybackDocument.Body

theorem length_sceneNumbers (b : Body) : (places 1 b.sceneOrders).length = b.scenes.length := by
  rw [places_length, sceneOrders, List.length_map]

theorem length_actionNumbers (b : Body) :
    (runningIn (fun _ => 0) b.actionOrders).length = b.actions.length := by
  have h := congrArg List.length (runningIn_groups (fun _ : String => 0) b.actionOrders)
  rw [List.length_map, List.length_map] at h
  rw [h, actionOrders, List.length_map]

/-- A numbered action is one of a scene of the document. -/
theorem Checked.sceneOf_mem {b : Body} (hb : b.Checked) :
    ∀ o ∈ runningIn (fun _ => 0) b.actionOrders, o.1 ∈ b.sceneIds := by
  intro o ho
  have hmem := List.mem_map_of_mem (f := Prod.fst) ho
  rw [runningIn_groups, actionOrders, List.map_map] at hmem
  obtain ⟨action, ha, heq⟩ := List.mem_map.mp hmem
  rw [← heq]
  exact (hb.actions action ha).2

end PlaybackDocument.Body

theorem Anchored.empty : Anchored {} :=
  ⟨fun _ h => (nomatch h), fun _ h => (nomatch h), fun _ h => (nomatch h)⟩

theorem Anchored.congr {db db' : MemoirDb} (h : Anchored db) (hshelf : SameShelf db db')
    (hscenes : db'.scenes = db.scenes) (hactions : db'.actions = db.actions) : Anchored db' := by
  refine ⟨fun d hd => ?_, fun s hs => ?_, fun a ha => ?_⟩
  · rw [hshelf.documents] at hd
    obtain ⟨a, ha, hle⟩ := h.documents d hd
    have hpointer := hshelf.pointers d.archiveId
    rw [ha] at hpointer
    obtain ⟨a', ha', heq⟩ := Option.map_eq_some_iff.mp hpointer
    exact ⟨a', ha', heq ▸ hle⟩
  · rw [hshelf.documents]
    rw [hscenes] at hs
    exact h.scenes s hs
  · rw [hscenes]
    rw [hactions] at ha
    exact h.actions a ha

namespace MemoryArchiveService

/-- Taking the published document out of publication keeps the places. -/
theorem supersedePrevious_places (db : MemoirDb) (now : Time) (archive : MemoryArchive) :
    SamePlaces db.documents (supersedePrevious db now archive).documents ∧
      (supersedePrevious db now archive).scenes = db.scenes ∧
      (supersedePrevious db now archive).actions = db.actions ∧
      (supersedePrevious db now archive).archives = db.archives := by
  unfold supersedePrevious
  split
  · exact ⟨.refl _, rfl, rfl, rfl⟩
  · next previous hprevious =>
    have hkey : previous.key = (archive.archiveId, archive.publishedRevision) :=
      Table.key_of_find? hprevious
    have hself : db.documents.find? previous.key = some previous := by rw [hkey, hprevious]
    exact ⟨.put hself rfl rfl, rfl, rfl, rfl⟩

/-- The document of a publication finds its number free. -/
theorem insertDocument_isOk {db : MemoirDb} (hdb : Anchored db) (now : Time) {p : Publication}
    {documentId : String} (harchive : db.archives.find? p.archive.archiveId = some p.archive)
    (hfresh : ∀ d ∈ db.documents.rows, d.documentId ≠ documentId) :
    ∃ db₁, insertDocument (supersedePrevious db now p.archive) (p.document documentId) = .ok db₁ ∧
      db₁.scenes = db.scenes ∧ db₁.actions = db.actions := by
  obtain ⟨hplaces, hscenes, hactions, _⟩ := supersedePrevious_places db now p.archive
  have hfree : (supersedePrevious db now p.archive).documents.rows.all
      (fun other => decide (other.documentId ≠ documentId)) = true := by
    refine List.all_eq_true.mpr fun other ho => decide_eq_true ?_
    obtain ⟨d, hd, _, hid⟩ := hplaces.back other ho
    rw [← hid]
    exact hfresh d hd
  have hnumber : (supersedePrevious db now p.archive).documents.find?
      (p.document documentId).key = none := by
    refine Table.find?_eq_none.mpr fun other ho hkey => ?_
    obtain ⟨d, hd, hsame, _⟩ := hplaces.back other ho
    have hdkey : d.key = (p.archive.archiveId, p.archive.publishedRevision + 1) :=
      hsame.trans hkey
    obtain ⟨a, ha, hle⟩ := hdb.documents d hd
    rw [show d.archiveId = p.archive.archiveId from congrArg Prod.fst hdkey, harchive] at ha
    cases ha
    rw [show d.revision = p.archive.publishedRevision + 1 from congrArg Prod.snd hdkey] at hle
    omega
  obtain ⟨documents, hinsert⟩ := Table.exists_insert? hnumber
  refine ⟨{ supersedePrevious db now p.archive with documents := documents }, ?_, hscenes, hactions⟩
  refine bind_ok.mpr ⟨(), require_ok.mpr hfree, ?_⟩
  rw [hinsert]
  rfl

/-- What a document's scenes are in the table. -/
theorem insertScenes_ok {db db' : MemoirDb} {b : PlaybackDocument.Body} (hb : b.Checked)
    {documentId : String} (h : insertScenes documentId 1 db b.scenes = .ok db') :
    db'.scenes = db.scenes ++ sceneRows documentId b.scenes (places 1 b.sceneOrders) ∧
      db'.actions = db.actions := by
  rw [insertScenes_rows hb.scenes (insertScenes_unfit h)] at h
  exact ⟨foldlM_insert_stored insertScene_scenes _ _ _ h,
    foldlM_insert_frame insertScene_actions _ _ _ h⟩

/-- What a document's actions are in the table. -/
theorem insertActions_ok {db db' : MemoirDb} {b : PlaybackDocument.Body} (hb : b.Checked)
    (h : insertActions [] db b.actions = .ok db') :
    db'.actions = db.actions ++ actionRows b.actions (runningIn (fun _ => 0) b.actionOrders) ∧
      db'.scenes = db.scenes := by
  rw [insertActions_rows fun action ha => (hb.actions action ha).1] at h
  exact ⟨foldlM_insert_stored insertAction_actions _ _ _ h,
    foldlM_insert_frame insertAction_scenes _ _ _ h⟩

/-- The scenes of a document that is new. -/
theorem insertScenes_iff {db : MemoirDb} {b : PlaybackDocument.Body} (hb : b.Checked)
    {documentId : String} (hnew : ∀ s ∈ db.scenes, s.documentId ≠ documentId) :
    (∃ db', insertScenes documentId 1 db b.scenes = .ok db') ↔
      b.ScenesApart ∧ ∀ s ∈ db.scenes, s.sceneId ∉ b.sceneIds := by
  have hrows : (∃ db', (sceneRows documentId b.scenes (places 1 b.sceneOrders)).foldlM
      insertScene db = .ok db') ↔
      (∀ s ∈ db.scenes, s.sceneId ∉ b.sceneIds) ∧ (places 1 b.sceneOrders).Nodup :=
    (foldlM_insert_iff insertScene_iff insertScene_scenes _ db).trans
      (sceneRows_apart b.length_sceneNumbers hb.sceneIds hnew)
  constructor
  · rintro ⟨db', h⟩
    have hfit := insertScenes_unfit h
    rw [insertScenes_rows hb.scenes hfit] at h
    obtain ⟨hids, hnodup⟩ := hrows.mp ⟨db', h⟩
    exact ⟨⟨hfit, places_nodup_iff.mp hnodup⟩, hids⟩
  · rintro ⟨⟨hfit, hplaces⟩, hids⟩
    rw [insertScenes_rows hb.scenes hfit]
    exact hrows.mpr ⟨hids, places_nodup_iff.mpr hplaces⟩

/-- The actions of scenes that are new. -/
theorem insertActions_iff {db : MemoirDb} {b : PlaybackDocument.Body} (hb : b.Checked)
    (hnew : ∀ a ∈ db.actions, a.sceneId ∉ b.sceneIds) :
    (∃ db', insertActions [] db b.actions = .ok db') ↔
      b.ActionsApart ∧ b.actionIds.Nodup ∧ ∀ a ∈ db.actions, a.actionId ∉ b.actionIds := by
  have hobjs : ∀ action ∈ b.actions, ∃ fields, action = .obj fields :=
    fun action ha => (hb.actions action ha).1
  have hapart : (runningIn (fun _ => 0) b.actionOrders).Nodup ↔ b.ActionsApart := by
    rw [runningIn_nodup_iff]
    refine ⟨fun h k _ => (running_nodup_iff (hb.orders k)).mp (h k), fun h k => ?_⟩
    refine (running_nodup_iff (hb.orders k)).mpr ?_
    by_cases hk : k ∈ b.sceneIds
    · exact h k hk
    · -- No action is of a scene that the document does not have.
      have hnone : ofGroup k b.actionOrders = [] := by
        refine List.filterMap_eq_nil_iff.mpr fun o ho => if_neg ?_
        obtain ⟨action, ha, rfl⟩ := List.mem_map.mp ho
        rintro rfl
        exact hk (hb.actions action ha).2
      rw [hnone]
      exact fun i hi => absurd hi (Nat.not_lt_zero i)
  rw [insertActions_rows hobjs]
  have hiff := (foldlM_insert_iff insertAction_iff insertAction_actions _ db).trans
    (actionRows_apart b.length_actionNumbers fun a ha o ho heq =>
      hnew a ha (heq ▸ hb.sceneOf_mem o ho))
  refine hiff.trans ?_
  rw [hapart, and_comm]
  rfl

/-- A publication that has passed its checks can be written exactly where its
document is storable. -/
theorem writePublication_iff {db : MemoirDb} (hdb : Anchored db) {now : Time} {p : Publication}
    {documentId : String} (harchive : db.archives.find? p.archive.archiveId = some p.archive)
    (hchecked : p.body.Checked) (hfresh : ∀ d ∈ db.documents.rows, d.documentId ≠ documentId) :
    (∃ db', writePublication db now p documentId = .ok db') ↔ p.body.Storable db := by
  obtain ⟨db₁, hdocument, hscenes, hactions⟩ := insertDocument_isOk hdb now harchive hfresh
  have hnew : ∀ s ∈ db₁.scenes, s.documentId ≠ documentId := by
    intro s hs
    rw [hscenes] at hs
    obtain ⟨d, hd, hid⟩ := hdb.scenes s hs
    rw [← hid]
    exact hfresh d hd
  have hfirst := insertScenes_iff hchecked hnew
  rw [hscenes] at hfirst
  have hsecond : ∀ {db₂ : MemoirDb}, insertScenes documentId 1 db₁ p.body.scenes = .ok db₂ →
      (∀ s ∈ db.scenes, s.sceneId ∉ p.body.sceneIds) →
      ((∃ db', insertActions [] db₂ p.body.actions = .ok db') ↔
        p.body.ActionsApart ∧ p.body.actionIds.Nodup ∧
          ∀ a ∈ db.actions, a.actionId ∉ p.body.actionIds) := by
    intro db₂ h hids
    have hsame : db₂.actions = db.actions := (insertScenes_ok hchecked h).2.trans hactions
    have hiff := @insertActions_iff db₂ _ hchecked (by
      intro a ha
      rw [hsame] at ha
      obtain ⟨s, hs, hid⟩ := hdb.actions a ha
      rw [← hid]
      exact hids s hs)
    rw [hsame] at hiff
    exact hiff
  constructor
  · rintro ⟨db', h⟩
    obtain ⟨db₁', hdocument', h⟩ := bind_ok.mp h
    cases hdocument.symm.trans hdocument'
    obtain ⟨db₂, hone, h⟩ := bind_ok.mp h
    obtain ⟨db₃, htwo, _⟩ := bind_ok.mp h
    obtain ⟨hapart, hids⟩ := hfirst.mp ⟨db₂, hone⟩
    obtain ⟨hacts, hnodup, hactionIds⟩ := (hsecond hone hids).mp ⟨db₃, htwo⟩
    exact ⟨hapart, hacts, hids, hnodup, hactionIds⟩
  · rintro ⟨hapart, hacts, hids, hnodup, hactionIds⟩
    obtain ⟨db₂, hone⟩ := hfirst.mpr ⟨hapart, hids⟩
    obtain ⟨db₃, htwo⟩ := (hsecond hone hids).mpr ⟨hacts, hnodup, hactionIds⟩
    exact ⟨_, bind_ok.mpr ⟨db₁, hdocument, bind_ok.mpr ⟨db₂, hone, bind_ok.mpr ⟨db₃, htwo, rfl⟩⟩⟩⟩

/-! ## The tables stay anchored -/

theorem writePublication_anchored {db db' : MemoirDb} (hdb : Anchored db) {now : Time}
    {p : Publication} {documentId : String}
    (harchive : db.archives.find? p.archive.archiveId = some p.archive) (hchecked : p.body.Checked)
    (h : writePublication db now p documentId = .ok db') : Anchored db' := by
  obtain ⟨hplaces, hsuperScenes, hsuperActions, hsuperArchives⟩ :=
    supersedePrevious_places db now p.archive
  obtain ⟨db₁, hdocument, h⟩ := bind_ok.mp h
  obtain ⟨db₂, hone, h⟩ := bind_ok.mp h
  obtain ⟨db₃, htwo, h⟩ := bind_ok.mp h
  cases h
  obtain ⟨_, documents, hinsert, rfl⟩ := insertDocument_ok hdocument
  obtain ⟨_, hrows⟩ := Table.insert?_eq_some.mp hinsert
  have hscenery := (insertScenes_scenery hone).trans (insertActions_scenery htwo)
  unfold SceneryOnly at hscenery
  obtain ⟨hscenes₂, hactions₂⟩ := insertScenes_ok hchecked hone
  obtain ⟨hactions₃, hscenes₃⟩ := insertActions_ok hchecked htwo
  have hscenes : db₃.scenes = db.scenes
      ++ sceneRows documentId p.body.scenes (places 1 p.body.sceneOrders) :=
    hscenes₃.trans (hscenes₂.trans (congrArg (· ++ _) hsuperScenes))
  have hactions : db₃.actions = db.actions
      ++ actionRows p.body.actions (runningIn (fun _ => 0) p.body.actionOrders) :=
    hactions₃.trans (congrArg (· ++ _) (hactions₂.trans hsuperActions))
  have hdocuments : db₃.documents = documents := by rw [hscenery]
  have harchives : db₃.archives = db.archives := by rw [hscenery]; exact hsuperArchives
  have hput : (db.archives.put p.advanced).find? p.archive.archiveId = some p.advanced :=
    Table.find?_put_self (a := p.advanced) harchive
  have hfind : ∀ id a, db.archives.find? id = some a →
      ∃ a', (db₃.archives.put p.advanced).find? id = some a' ∧
        a.publishedRevision ≤ a'.publishedRevision := by
    intro id a ha
    rw [harchives]
    by_cases hid : id = p.archive.archiveId
    · rw [hid, harchive] at ha
      cases ha
      rw [hid]
      exact ⟨p.advanced, hput, Nat.le_succ _⟩
    · exact ⟨a, (Table.find?_put_ne (a := p.advanced) hid).trans ha, le_rfl⟩
  refine ⟨fun d hd => ?_, fun s hs => ?_, fun a ha => ?_⟩
  · have hd : d ∈ db₃.documents.rows := hd
    rw [hdocuments, hrows, List.mem_append, List.mem_singleton] at hd
    rcases hd with hd | rfl
    · obtain ⟨y, hy, hkey, _⟩ := hplaces.back d hd
      obtain ⟨a, ha, hle⟩ := hdb.documents y hy
      obtain ⟨a', ha', hle'⟩ := hfind _ a ha
      have hid : y.archiveId = d.archiveId := congrArg Prod.fst hkey
      have hrev : y.revision = d.revision := congrArg Prod.snd hkey
      exact ⟨a', by rw [← hid]; exact ha', hrev ▸ hle.trans hle'⟩
    · refine ⟨p.advanced, ?_, le_rfl⟩
      rw [harchives]
      exact hput
  · have hs : s ∈ db₃.scenes := hs
    show ∃ d ∈ db₃.documents.rows, d.documentId = s.documentId
    rw [hscenes, List.mem_append] at hs
    rw [hdocuments, hrows]
    rcases hs with hs | hs
    · obtain ⟨d, hd, hid⟩ := hdb.scenes s hs
      obtain ⟨x, hx, _, hxid⟩ := hplaces.forth d hd
      exact ⟨x, List.mem_append_left _ hx, hxid.trans hid⟩
    · exact ⟨_, List.mem_append_right _ (List.mem_singleton.mpr rfl),
        (sceneRows_document _ _ _ s hs).symm⟩
  · have ha : a ∈ db₃.actions := ha
    show ∃ s ∈ db₃.scenes, s.sceneId = a.sceneId
    rw [hactions, List.mem_append] at ha
    rw [hscenes]
    rcases ha with ha | ha
    · obtain ⟨s, hs, hid⟩ := hdb.actions a ha
      exact ⟨s, List.mem_append_left _ hs, hid⟩
    · have hnumber := List.mem_map_of_mem (f := fun r => (r.sceneId, r.actionOrder)) ha
      rw [actionRows_numbers p.body.length_actionNumbers] at hnumber
      have hmem : a.sceneId ∈ p.body.sceneIds := hchecked.sceneOf_mem _ hnumber
      rw [PlaybackDocument.Body.sceneIds,
        ← sceneRows_ids documentId p.body.length_sceneNumbers] at hmem
      obtain ⟨s, hs, hid⟩ := List.mem_map.mp hmem
      exact ⟨s, List.mem_append_right _ hs, hid⟩

/-- A scene is added to a document that is there. -/
theorem insertScene_anchored {db db' : MemoirDb} (hdb : Anchored db) {s : MemoryScene}
    (hs : ∃ d ∈ db.documents.rows, d.documentId = s.documentId)
    (h : insertScene db s = .ok db') : Anchored db' := by
  rw [insertScene_ok h]
  refine ⟨hdb.documents, fun t ht => ?_, fun a ha => ?_⟩
  · rcases List.mem_append.mp ht with ht | ht
    · exact hdb.scenes t ht
    · rw [List.mem_singleton] at ht
      rw [ht]
      exact hs
  · obtain ⟨t, ht, hid⟩ := hdb.actions a ha
    exact ⟨t, List.mem_append_left _ ht, hid⟩

/-- An action is added to a scene that is there. -/
theorem insertAction_anchored {db db' : MemoirDb} (hdb : Anchored db) {a : MemoryAction}
    (ha : ∃ s ∈ db.scenes, s.sceneId = a.sceneId)
    (h : insertAction db a = .ok db') : Anchored db' := by
  rw [insertAction_ok h]
  refine ⟨hdb.documents, hdb.scenes, fun b hb => ?_⟩
  rcases List.mem_append.mp hb with hb | hb
  · exact hdb.actions b hb
  · rw [List.mem_singleton] at hb
    rw [hb]
    exact ha

/-- An archive is added with its first document. -/
theorem addArchive_anchored {db db' : MemoirDb} (hdb : Anchored db) {a : MemoryArchive}
    {d : MemoryPlaybackDocument} (hkey : d.key = (a.archiveId, a.publishedRevision))
    (harchives : db.archives.insert? a = some db'.archives)
    (hdocuments : db.documents.insert? d = some db'.documents)
    (hscenes : db'.scenes = db.scenes) (hactions : db'.actions = db.actions) : Anchored db' := by
  obtain ⟨hnone, _⟩ := Table.insert?_eq_some.mp harchives
  obtain ⟨_, hrows⟩ := Table.insert?_eq_some.mp hdocuments
  refine ⟨fun x hx => ?_, fun s hs => ?_, fun b hb => ?_⟩
  · rw [Table.find?_insert? harchives]
    rw [hrows, List.mem_append, List.mem_singleton] at hx
    rcases hx with hx | rfl
    · obtain ⟨y, hy, hle⟩ := hdb.documents x hx
      have hne : x.archiveId ≠ a.archiveId := fun heq => by
        rw [heq, hnone] at hy
        cases hy
      rw [if_neg hne]
      exact ⟨y, hy, hle⟩
    · rw [if_pos (show x.archiveId = a.archiveId from congrArg Prod.fst hkey)]
      exact ⟨a, rfl, (show x.revision = a.publishedRevision from congrArg Prod.snd hkey).le⟩
  · rw [hscenes] at hs
    obtain ⟨x, hx, hid⟩ := hdb.scenes s hs
    exact ⟨x, by rw [hrows]; exact List.mem_append_left _ hx, hid⟩
  · rw [hactions] at hb
    rw [hscenes]
    exact hdb.actions b hb

theorem createArchive_anchored {db db' : MemoirDb} (hdb : Anchored db) {frozen : FrozenMemoryInput}
    {digest : String} {owner partner : Int} {ids : ArchiveIds}
    (h : createArchive db frozen digest owner partner ids = .ok db') : Anchored db' := by
  obtain ⟨_, _, h⟩ := bind_ok.mp h
  obtain ⟨_, _, h⟩ := bind_ok.mp h
  split at h
  · cases h
  · next archives harchives =>
    obtain ⟨db₁, hdocument, h⟩ := bind_ok.mp h
    obtain ⟨db₂, hcover, h⟩ := bind_ok.mp h
    obtain ⟨db₃, hstats, h⟩ := bind_ok.mp h
    obtain ⟨db₄, hone, htwo⟩ := bind_ok.mp h
    obtain ⟨_, documents, hinsert, rfl⟩ := insertDocument_ok hdocument
    obtain ⟨_, hrows⟩ := Table.insert?_eq_some.mp hinsert
    have hnew : ∃ d ∈ documents.rows, d.documentId = ids.documentId := by
      rw [hrows]
      exact ⟨_, List.mem_append_right _ (List.mem_singleton.mpr rfl), rfl⟩
    have hbase : Anchored db₂ := by
      refine @insertScene_anchored _ db₂ ?_ _ hnew hcover
      exact addArchive_anchored hdb rfl harchives hinsert rfl rfl
    have hscenes := insertScene_anchored hbase (by rw [insertScene_ok hcover]; exact hnew) hstats
    have hcoverScene : ∃ s ∈ db₃.scenes, s.sceneId = ids.coverId := by
      rw [insertScene_ok hstats, insertScene_ok hcover]
      exact ⟨_, List.mem_append_left _ (List.mem_append_right _ (List.mem_singleton.mpr rfl)), rfl⟩
    have hstatsScene : ∃ s ∈ db₄.scenes, s.sceneId = ids.statsId := by
      rw [insertAction_ok hone, insertScene_ok hstats]
      exact ⟨_, List.mem_append_right _ (List.mem_singleton.mpr rfl), rfl⟩
    exact insertAction_anchored (insertAction_anchored hscenes hcoverScene hone) hstatsScene htwo

end MemoryArchiveService

/-! ## Sequences of publications -/

/-- A call of `publish_playback_document`, and the document id it draws. -/
structure PublicationCall where
  now : Time
  archiveId : String
  generationEpoch : Int
  runId : Option String
  snapshot : Option MemorySnapshot
  document : List (String × Json)
  documentId : String

/-- What happens in between: any change that leaves the documents, their rows
and the published pointers alone. -/
structure OtherChange where
  change : MemoirDb → MemoirDb
  shelf : ∀ db, SameShelf db (change db)
  scenes : ∀ db, (change db).scenes = db.scenes
  actions : ∀ db, (change db).actions = db.actions

inductive Filing
  | create (frozen : FrozenMemoryInput) (ids : ArchiveIds × ArchiveIds)
  | publish (call : PublicationCall)
  | other (o : OtherChange)

/-- The publication, where the call passes its checks. -/
def PublicationCall.check (text : PyText) (db : MemoirDb) (c : PublicationCall) :
    Result MemoryArchiveService.Publication :=
  MemoryArchiveService.checkPublication text db c.archiveId c.generationEpoch c.runId c.snapshot
    c.document

/-- The archive of a publication is stored, and its document is validated. -/
theorem PublicationCall.check_ok {text : PyText} {db : MemoirDb} {c : PublicationCall}
    {p : MemoryArchiveService.Publication} (h : c.check text db = .ok p) :
    db.archives.find? p.archive.archiveId = some p.archive ∧ p.body.Checked := by
  obtain ⟨hfind, _, _⟩ := MemoryArchiveService.checkPublication_ok h
  refine ⟨?_, ?_⟩
  · rw [show p.archive.archiveId = c.archiveId from Table.key_of_find? hfind, hfind]
  · obtain ⟨body, hbody, h⟩ := bind_ok.mp h
    split at h
    · cases h
    · obtain ⟨_, _, h⟩ := bind_ok.mp h
      obtain ⟨_, _, h⟩ := bind_ok.mp h
      obtain ⟨_, _, h⟩ := bind_ok.mp h
      cases h
      exact PlaybackDocument.validateComplete_checked hbody

namespace Filing

def perform (text : PyText) (db : MemoirDb) : Filing → Result MemoirDb
  | create frozen ids => MemoryArchiveService.createArchivesForRelationship db frozen ids
  | publish c => MemoryArchiveService.publishPlaybackDocument text db c.now c.archiveId
      c.generationEpoch c.runId c.snapshot c.document c.documentId
  | other o => pure (o.change db)

/-- What raises is rolled back. -/
def step (text : PyText) (db : MemoirDb) (f : Filing) : MemoirDb :=
  match f.perform text db with
  | .ok db' => db'
  | .error _ => db

/-- The document id that is drawn is a new one. -/
def DrawsNew (db : MemoirDb) : Filing → Prop
  | publish c => ∀ d ∈ db.documents.rows, d.documentId ≠ c.documentId
  | _ => True

/-- A publication that passes its checks is written. -/
def Written (text : PyText) (db : MemoirDb) : Filing → Prop
  | publish c => IfOk (c.check text db) fun p =>
      ∃ db', MemoryArchiveService.writePublication db c.now p c.documentId = .ok db'
  | _ => True

/-- A publication that passes its checks has a document that is storable. -/
def Fits (text : PyText) (db : MemoirDb) : Filing → Prop
  | publish c => IfOk (c.check text db) fun p => p.body.Storable db
  | _ => True

theorem step_anchored {text : PyText} {db : MemoirDb} (hdb : Anchored db) (f : Filing) :
    Anchored (f.step text db) := by
  unfold step
  cases hdone : f.perform text db with
  | error e => exact hdb
  | ok db' =>
    show Anchored db'
    cases f with
    | create frozen ids =>
      rcases MemoryArchiveService.createArchivesForRelationship_ok hdone with
        rfl | ⟨digest, db₁, hone, htwo⟩
      · exact hdb
      · exact MemoryArchiveService.createArchive_anchored
          (MemoryArchiveService.createArchive_anchored hdb hone) htwo
    | publish c =>
      obtain ⟨p, hcheck, hwrite⟩ := bind_ok.mp hdone
      obtain ⟨hfind, hchecked⟩ := PublicationCall.check_ok hcheck
      exact MemoryArchiveService.writePublication_anchored hdb hfind hchecked hwrite
    | other o =>
      cases hdone
      exact hdb.congr (o.shelf db) (o.scenes db) (o.actions db)

/-- A publication is written exactly where its document fits. -/
theorem written_iff {text : PyText} {db : MemoirDb} (hdb : Anchored db) {f : Filing}
    (hdraws : f.DrawsNew db) : f.Written text db ↔ f.Fits text db := by
  cases f with
  | publish c =>
    refine forall_congr' fun p => forall_congr' fun hcheck => ?_
    obtain ⟨hfind, hchecked⟩ := PublicationCall.check_ok hcheck
    exact MemoryArchiveService.writePublication_iff hdb hfind hchecked hdraws
  | _ => exact Iff.rfl

instance (db : MemoirDb) (f : Filing) : Decidable (f.DrawsNew db) := by
  unfold DrawsNew; split <;> infer_instance

instance {α : Type} (r : Result α) : Decidable (∃ a, r = .ok a) :=
  match r with
  | .ok a => .isTrue ⟨a, rfl⟩
  | .error _ => .isFalse fun ⟨_, h⟩ => nomatch h

instance (text : PyText) (db : MemoirDb) (f : Filing) : Decidable (f.Written text db) := by
  unfold Written; split <;> infer_instance

instance (text : PyText) (db : MemoirDb) (f : Filing) : Decidable (f.Fits text db) := by
  unfold Fits; split <;> infer_instance

end Filing

/-- Over any sequence of publications, of any archives: each one that passes
its checks is written, if and only if the document of each is storable. -/
theorem publications_stored_iff (text : PyText) (fs : List Filing)
    (hdraws : Along (Filing.step text) Filing.DrawsNew {} fs) :
    Along (Filing.step text) (Filing.Written text) {} fs ↔
      Along (Filing.step text) (Filing.Fits text) {} fs := by
  have hmeets : Along (Filing.step text) (fun db f => Anchored db ∧ f.DrawsNew db) {} fs :=
    along_of_along (I := Anchored) (fun _ f hdb _ => Filing.step_anchored hdb f)
      (fun _ _ hdb hnew => ⟨hdb, hnew⟩) fs {} .empty hdraws
  have hsame : ∀ (db : MemoirDb) (f : Filing), Anchored db ∧ f.DrawsNew db →
      (f.Written text db ↔ f.Fits text db) := fun _ _ h => Filing.written_iff h.1 h.2
  exact along_congr hsame fs _ hmeets

namespace FilingExample

open RevisionExample

def scene (sceneId : String) (order : Option Int) : Json :=
  .obj ([("scene_id", .str sceneId), ("scene_type", .str "cover")] ++
    (order.map fun n => ("order", Json.int n)).toList)

def action (actionId sceneId : String) (order : Option Int) : Json :=
  .obj ([("action_id", .str actionId), ("scene_id", .str sceneId), ("action_type", .str "hold"),
    ("duration_ms", .int 100)] ++ (order.map fun n => ("order", Json.int n)).toList)

/-- A publication of the first archive. -/
def publish (documentId : String) (scenes actions : List Json) : Filing :=
  .publish ⟨0, "archive-a", 0, none, none, [("schema_version", .str "1.0.0"),
    ("scenes", .arr scenes), ("actions", .arr actions), ("media_manifest", .arr [])], documentId⟩

def create : Filing := .create frozen (ids "a", ids "b")

/-- The second scene takes its place, which the first one has asked for. -/
def metPlace : List Filing := [create, publish "first" [scene "s" (some 2), scene "t" none] []]

/-- Scenes and actions with and without orders. -/
def mixed : List Filing :=
  [create, publish "first" [scene "s" (some 3), scene "t" none]
    [action "p" "s" none, action "q" "s" (some 4), action "r" "s" none, action "u" "t" (some 1)],
    publish "second" [scene "v" none] [action "w" "v" none]]

end FilingExample

open RevisionExample FilingExample in
theorem publications_stored_mixed :
    Along (Filing.step plainText) (Filing.Written plainText) {} mixed :=
  (publications_stored_iff plainText mixed (by decide +kernel)).mpr (by decide +kernel)

open RevisionExample FilingExample in
/-- The publication passes its checks and cannot be written. -/
theorem met_place_unwritten :
    ¬ Along (Filing.step plainText) (Filing.Written plainText) {} metPlace := by
  decide +kernel

end AgentRuntime
