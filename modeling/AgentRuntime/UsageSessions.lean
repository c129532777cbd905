import AgentRuntime.PolicyEngine
import AgentRuntime.Lib.Interleave

/-!
# Sessions on the ledger of model calls

Any number of sessions reserve, activate, start, cancel and settle model
calls, the reconciler expires them, and the runs go through their lifecycle
meanwhile. A `Statement` is what a session runs at once: the two halves of
`reserve` and of `settle` are statements of their own, so that anything may
come between them.

What the program keeps besides the tables is for the record only: `changes`
lists the rows that were changed, each as it was found, and `reservations`
the reservations that were committed, each with how many its run had when
the budget was read.
-/

namespace AgentRuntime

open Keyed Interleave

/-- What changed a row. -/
inductive ChangeKind
  | activated | started | cancelled | expired
  | settled (s : Settlement)

/-- A row as a statement found it, and what it did to it. -/
structure Change where
  found : AgentModelUsage
  kind : ChangeKind

/-- A committed reservation: the status version its budget was read at, and
how many reservations of the run had been committed by then. -/
structure Reservation where
  usageId : Nat
  runId : String
  version : Nat
  after : Nat
  deriving DecidableEq, Repr

/-- The tables as committed, and the record of what was done. `drawn`
identifiers have been drawn so far; none is drawn twice. -/
structure Sessions where
  sys : Sys := {}
  usages : UsageTable := Table.empty
  drawn : Nat := 0
  changes : List Change := []
  reservations : List Reservation := []

def Sessions.ledger (s : Sessions) : Ledger := ⟨s.sys.db, s.usages⟩

/-- The reservations a run has committed. -/
def Sessions.reservationsOf (s : Sessions) (runId : String) : List Reservation :=
  s.reservations.filter (fun r => r.runId = runId)

/-- What a session is asked for. The image channel writes its rows settled
(`_record_usage`); an operation of the lifecycle is any `Op`. -/
inductive UsageOp
  | reserve (ctx : ModelCallContext) (route : ModelRoute)
  | activateReservation (usageId : Nat) (permitId : String)
  | markStarted (usageId : Nat)
  | cancelReservation (usageId : Nat)
  | settle (usageId : Nat) (s : Settlement)
  | markExpired (current : Time)
  | recordImage (runId : String) (executionAttempt : Nat) (succeeded : Bool)
  | lifecycle (op : Op)

/-- The statement a session runs next. -/
inductive Statement
  | reserveRead (ctx : ModelCallContext) (route : ModelRoute) (tries : Nat)
  | reserveWrite (ctx : ModelCallContext) (route : ModelRoute) (tries version after : Nat)
  | settleRead (usageId : Nat) (s : Settlement)
  | settleWrite (p : ModelUsageService.PendingSettle)
  | once (op : UsageOp)
  | done

/-- The statement a request begins with; `reserve` has two tries. -/
def UsageOp.first : UsageOp → Statement
  | .reserve ctx route => .reserveRead ctx route 2
  | .settle usageId s => .settleRead usageId s
  | op => .once op

namespace Sessions

/-- Keep the table a conditional update of a row gives, and record the row
where it matched. -/
def record (s : Sessions) (usageId : Nat) (kind : ChangeKind) (updated : UsageTable × Bool) :
    Sessions :=
  { s with
    usages := updated.1
    changes := s.changes ++
      (if updated.2 then (s.usages.find? usageId).toList.map (fun found => ⟨found, kind⟩)
        else []) }

/-- The row the image channel writes. -/
def imageUsage (usageId : Nat) (runId : String) (executionAttempt : Nat) (succeeded : Bool)
    (now : Time) : AgentModelUsage :=
  { usageId := usageId
    runId := runId
    stepId := "enqueue_media_tasks"
    executionAttempt := executionAttempt
    modelAttempt := 1
    status := if succeeded then .succeeded else .failed
    estimatedCost := some 0
    imageCount := some (if succeeded then 1 else 0)
    requestDeadlineAt := some now }

/-- The requests that are one statement. -/
def once (limits : AdmissionLimits) (s : Sessions) : UsageOp → Sessions
  | .reserve .. => s
  | .settle .. => s
  | .activateReservation usageId permitId =>
    s.record usageId .activated
      (ModelUsageService.activateReservation s.usages usageId permitId)
  | .markStarted usageId => s.record usageId .started (ModelUsageService.markStarted s.usages usageId)
  | .cancelReservation usageId =>
    s.record usageId .cancelled (ModelUsageService.cancelReservation s.usages usageId)
  | .markExpired current =>
    { s with
      usages := ModelUsageService.markExpiredRunningUnknown s.usages current
      changes := s.changes ++
        (s.usages.rows.filter (fun u => u.Expired current)).map (fun u => ⟨u, .expired⟩) }
  | .recordImage runId executionAttempt succeeded =>
    match s.usages.insert? (imageUsage s.drawn runId executionAttempt succeeded s.sys.clock) with
    | none => s
    | some usages => { s with usages := usages, drawn := s.drawn + 1 }
  | .lifecycle op => { s with sys := step limits s.sys { op := op } }

/-- The commit of a reservation whose budget was read at `version`; where
the run has moved on meanwhile, what is left of the tries. -/
def reserveWrite (s : Sessions) (ctx : ModelCallContext) (route : ModelRoute)
    (tries version after : Nat) : Sessions × Statement :=
  match PolicyEngine.reserveWrite s.ledger ctx route version s.drawn with
  | .error _ => (s, .done)
  | .ok none => (s, if tries = 0 then .done else .reserveRead ctx route tries)
  | .ok (some l) =>
    ({ s with
        sys := { s.sys with db := l.db }
        usages := l.usages
        drawn := s.drawn + 1
        reservations := s.reservations ++ [⟨s.drawn, ctx.runId, version, after⟩] }, .done)

/-- Run a statement; what the session runs after it. -/
def exec (limits : AdmissionLimits) (s : Sessions) : Statement → Sessions × Statement
  | .reserveRead ctx route tries =>
    match PolicyEngine.reserveRead s.ledger s.sys.clock ctx route with
    | .error _ => (s, .done)
    | .ok version =>
      (s, .reserveWrite ctx route (tries - 1) version (s.reservationsOf ctx.runId).length)
  | .reserveWrite ctx route tries version after => s.reserveWrite ctx route tries version after
  | .settleRead usageId settlement =>
    match ModelUsageService.settleRead s.usages usageId settlement with
    | .ok (some p) => (s, .settleWrite p)
    | _ => (s, .done)
  | .settleWrite p =>
    (s.record p.usageId (.settled p.settlement) (ModelUsageService.settleWrite s.usages p), .done)
  | .once op => (s.once limits op, .done)
  | .done => (s, .done)

/-- The sessions as a program. -/
def program (limits : AdmissionLimits) : Program Sessions Statement UsageOp where
  wait s t := { s with sys := { s.sys with clock := s.sys.clock + t } }
  call _ op := some op.first
  exec := exec limits

/-! ## One row of the ledger -/

/-- What happened to a row. -/
def historyOf (s : Sessions) (u : Nat) : List Change :=
  s.changes.filter (fun c => decide (c.found.usageId = u))

/-- What the statement `c` does to the row `u`: how the row is found
after it, and what it adds to the row's history. -/
inductive RowStep (s : Sessions) (c : Statement) (drawn : Nat) (u : Nat) :
    Option AgentModelUsage → List Change → Prop
  | same : RowStep s c drawn u (s.usages.find? u) []
  | reserved (hu : u = s.drawn) (hd : u < drawn) (ctx : ModelCallContext) (route : ModelRoute) :
      RowStep s c drawn u (some (PolicyEngine.newUsage s.usages ctx route u)) []
  | image (hu : u = s.drawn) (hd : u < drawn) (runId : String) (executionAttempt : Nat)
      (succeeded : Bool) (now : Time) :
      RowStep s c drawn u (some (imageUsage u runId executionAttempt succeeded now)) []
  | activated (r : AgentModelUsage) (hfind : s.usages.find? u = some r)
      (hs : r.status = .reserved) (permitId : String) :
      RowStep s c drawn u (some (r.activate permitId)) [⟨r, .activated⟩]
  | started (r : AgentModelUsage) (hfind : s.usages.find? u = some r)
      (hs : r.status = .running) : RowStep s c drawn u (some r.start) [⟨r, .started⟩]
  | cancelled (r : AgentModelUsage) (hfind : s.usages.find? u = some r)
      (hs : r.status = .reserved) : RowStep s c drawn u none [⟨r, .cancelled⟩]
  | expired (r : AgentModelUsage) (hfind : s.usages.find? u = some r) (current : Time)
      (hexp : r.Expired current) : RowStep s c drawn u (some (r.expire current)) [⟨r, .expired⟩]
  | settled (r : AgentModelUsage) (hfind : s.usages.find? u = some r)
      (p : ModelUsageService.PendingSettle) (hc : c = .settleWrite p) (hp : p.usageId = u)
      (hm : ModelUsageService.Matches p r) :
      RowStep s c drawn u (some (r.settle p.settlement p.cost)) [⟨r, .settled p.settlement⟩]

/-- `RowStep` between two states. -/
def StepsRow (s : Sessions) (c : Statement) (s' : Sessions) (u : Nat) : Prop :=
  s.drawn ≤ s'.drawn ∧
    ∃ cs, RowStep s c s'.drawn u (s'.usages.find? u) cs ∧ s'.historyOf u = s.historyOf u ++ cs

theorem stepsRow_same {s s' : Sessions} {c : Statement} {u : Nat} (hd : s.drawn ≤ s'.drawn)
    (hrow : s'.usages.find? u = s.usages.find? u) (hchanges : s'.historyOf u = s.historyOf u) :
    StepsRow s c s' u :=
  ⟨hd, [], hrow ▸ .same, by simp [hchanges]⟩

theorem stepsRow_row {s s' : Sessions} {c : Statement} {u : Nat} {row : Option AgentModelUsage}
    {cs : List Change} (hd : s.drawn ≤ s'.drawn) (hrow : s'.usages.find? u = row)
    (hstep : RowStep s c s'.drawn u row cs)
    (hchanges : s'.historyOf u = s.historyOf u ++ cs) : StepsRow s c s' u :=
  ⟨hd, cs, hrow ▸ hstep, hchanges⟩

/-- A recorded update changes its own row where it matches, and no other. -/
theorem record_cases (s : Sessions) (usageId : Nat) (kind : ChangeKind)
    (p : AgentModelUsage → Prop) [DecidablePred p] (f : AgentModelUsage → AgentModelUsage)
    (hf : ∀ r, (f r).usageId = r.usageId) (u : Nat) :
    let s' := s.record usageId kind (s.usages.updateWhere usageId p f)
    (∃ r, usageId = u ∧ s.usages.find? u = some r ∧ p r ∧ s'.usages.find? u = some (f r) ∧
        s'.historyOf u = s.historyOf u ++ [⟨r, kind⟩]) ∨
      ((usageId = u → ∀ r, s.usages.find? u = some r → ¬ p r) ∧
        s'.usages.find? u = s.usages.find? u ∧ s'.historyOf u = s.historyOf u) := by
  intro s'
  rcases s.usages.updateWhere_cases usageId p f with ⟨r, hfind, hp, heq⟩ | ⟨hnot, heq⟩
  · have hkey : (f r).usageId = usageId := (hf r).trans (Table.key_of_find? hfind)
    have husages : s'.usages = s.usages.put (f r) := congrArg Prod.fst heq
    have hchanges : s'.changes = s.changes ++ [⟨r, kind⟩] := by
      show s.changes ++ _ = _
      rw [heq, hfind]
      rfl
    by_cases hu : usageId = u
    · subst hu
      refine Or.inl ⟨r, rfl, hfind, hp, ?_, ?_⟩
      · rw [husages, ← hkey]
        exact Table.find?_put_self (hkey.symm ▸ hfind)
      · unfold historyOf
        rw [hchanges, List.filter_append]
        simp [Table.key_of_find? hfind]
    · refine Or.inr ⟨fun h => absurd h hu, ?_, ?_⟩
      · rw [husages]
        exact Table.find?_put_ne (fun h => hu (hkey.symm.trans h.symm))
      · unfold historyOf
        rw [hchanges, List.filter_append]
        simp [Table.key_of_find? hfind, hu]
  · refine Or.inr ⟨?_, by rw [show s'.usages = s.usages from congrArg Prod.fst heq], ?_⟩
    · rintro rfl r hfind
      exact hnot r hfind
    have hchanges : s'.changes = s.changes := by
      show s.changes ++ _ = _
      rw [heq]
      simp
    unfold historyOf
    rw [hchanges]

/-- The row step of a recorded update, from what it does where it matches. -/
theorem record_stepsRow {s : Sessions} {c : Statement} {usageId : Nat} {kind : ChangeKind}
    {p : AgentModelUsage → Prop} [DecidablePred p] {f : AgentModelUsage → AgentModelUsage}
    {u : Nat} (hf : ∀ r, (f r).usageId = r.usageId)
    (hstep : ∀ r, usageId = u → s.usages.find? u = some r → p r →
      RowStep s c s.drawn u (some (f r)) [⟨r, kind⟩]) :
    StepsRow s c (s.record usageId kind (s.usages.updateWhere usageId p f)) u := by
  rcases s.record_cases usageId kind p f hf u with
    ⟨r, hu, hfind, hp, hrow, hhistory⟩ | ⟨_, hrow, hhistory⟩
  · exact stepsRow_row (Nat.le_refl _) hrow (hstep r hu hfind hp) hhistory
  · exact stepsRow_same (Nat.le_refl _) hrow hhistory

theorem cancel_stepsRow (s : Sessions) (c : Statement) (usageId u : Nat) :
    StepsRow s c (s.record usageId .cancelled
      (ModelUsageService.cancelReservation s.usages usageId)) u := by
  unfold ModelUsageService.cancelReservation
  rcases s.usages.deleteWhere_cases usageId (fun r => r.status = .reserved) with
    ⟨r, hfind, hs, heq⟩ | ⟨_, heq⟩
  · rw [heq]
    have hkey := Table.key_of_find? hfind
    by_cases hu : usageId = u
    · subst hu
      have hrow : (s.usages.erase usageId).find? usageId = none := by
        rw [Table.find?_erase, if_pos rfl]
      exact stepsRow_row (Nat.le_refl _) hrow (.cancelled r hfind hs)
        (by simp [historyOf, record, hfind, hkey])
    · refine stepsRow_same (Nat.le_refl _) ?_ ?_
      · show (s.usages.erase usageId).find? u = _
        rw [Table.find?_erase, if_neg (fun h => hu h.symm)]
      · simp [historyOf, record, hfind, hkey, hu]
  · rw [heq]
    exact stepsRow_same (Nat.le_refl _) rfl (by simp [historyOf, record])

/-- The rows the expiry changes, as far as the row `u` is among them. -/
theorem expired_of_row (usages : UsageTable) (current : Time) (u : Nat) :
    ((usages.rows.filter (fun r => r.Expired current)).map
        (fun r => (⟨r, .expired⟩ : Change))).filter (fun c => c.found.usageId = u)
      = ((usages.find? u).toList.filter (fun r => r.Expired current)).map
          (fun r => ⟨r, .expired⟩) := by
  rw [List.filter_map, ← usages.filter_key u, List.filter_filter, List.filter_filter]
  congr 2
  funext r
  simp only [Function.comp_apply, Bool.and_comm]

theorem expire_stepsRow (limits : AdmissionLimits) (s : Sessions) (c : Statement)
    (current : Time) (u : Nat) : StepsRow s c (s.once limits (.markExpired current)) u := by
  have hrow : (s.once limits (.markExpired current)).usages.find? u
      = (s.usages.find? u).map (fun r => r.expire current) :=
    Table.find?_mapRows s.usages _ (fun r => r.usageId_expire current) u
  have hhistory : (s.once limits (.markExpired current)).historyOf u = s.historyOf u ++
      ((s.usages.find? u).toList.filter (fun r => r.Expired current)).map
        (fun r => ⟨r, .expired⟩) := by
    rw [← expired_of_row]
    exact List.filter_append ..
  cases hfind : s.usages.find? u with
  | none =>
    rw [hfind] at hrow hhistory
    exact stepsRow_same (Nat.le_refl _) (hrow.trans hfind.symm) (by simpa using hhistory)
  | some r =>
    rw [hfind] at hrow hhistory
    by_cases hexp : r.Expired current
    · exact stepsRow_row (Nat.le_refl _) hrow (.expired r hfind current hexp)
        (by simpa [hexp] using hhistory)
    · have hkept : r.expire current = r := if_neg hexp
      refine stepsRow_same (Nat.le_refl _) ?_ (by simpa [hexp] using hhistory)
      rw [hrow, hfind]
      exact congrArg some hkept

/-- What the reservation of a call does to the row `u`. -/
theorem reserveWrite_stepsRow (s : Sessions) (ctx : ModelCallContext) (route : ModelRoute)
    (tries version after u : Nat) :
    StepsRow s (.reserveWrite ctx route tries version after)
      (s.reserveWrite ctx route tries version after).1 u := by
  unfold Sessions.reserveWrite
  split
  · exact stepsRow_same (Nat.le_refl _) rfl rfl
  · exact stepsRow_same (Nat.le_refl _) rfl rfl
  next l hl =>
    obtain ⟨_, _, _, usages, hins, rfl⟩ := PolicyEngine.reserveWrite_ok hl
    have hrow := Table.find?_insert? hins u
    by_cases hu : u = s.drawn
    · subst hu
      exact stepsRow_row (Nat.le_succ _) (hrow.trans (if_pos rfl))
        (.reserved rfl (Nat.lt_succ_self _) ctx route) (by simp [historyOf])
    · exact stepsRow_same (Nat.le_succ _) (hrow.trans (if_neg hu)) rfl

theorem image_stepsRow (limits : AdmissionLimits) (s : Sessions) (c : Statement) (runId : String)
    (executionAttempt : Nat) (succeeded : Bool) (u : Nat) :
    StepsRow s c (s.once limits (.recordImage runId executionAttempt succeeded)) u := by
  simp only [once]
  split
  · exact stepsRow_same (Nat.le_refl _) rfl rfl
  next usages hins =>
    have hrow := Table.find?_insert? hins u
    by_cases hu : u = s.drawn
    · subst hu
      exact stepsRow_row (Nat.le_succ _) (hrow.trans (if_pos rfl))
        (.image rfl (Nat.lt_succ_self _) ..) (by simp [historyOf])
    · exact stepsRow_same (Nat.le_succ _) (hrow.trans (if_neg hu)) rfl

/-- **What a statement does to one row of the ledger.** -/
theorem exec_stepsRow (limits : AdmissionLimits) (s : Sessions) (c : Statement) (u : Nat) :
    StepsRow s c (exec limits s c).1 u := by
  have hsame : StepsRow s c s u := stepsRow_same (Nat.le_refl _) rfl rfl
  cases c with
  | reserveRead ctx route tries =>
    simp only [exec]
    split <;> exact hsame
  | reserveWrite ctx route tries version after => exact reserveWrite_stepsRow ..
  | settleRead usageId settlement =>
    simp only [exec]
    split <;> exact hsame
  | settleWrite p =>
    exact record_stepsRow (fun _ => rfl) fun r hu hfind hm => .settled r hfind p rfl hu hm
  | once op =>
    show StepsRow s _ (s.once limits op) u
    cases op with
    | reserve => exact hsame
    | settle => exact hsame
    | activateReservation usageId permitId =>
      exact record_stepsRow (fun _ => rfl) fun r _ hfind hs => .activated r hfind hs permitId
    | markStarted usageId =>
      exact record_stepsRow (fun _ => rfl) fun r _ hfind hs => .started r hfind hs
    | cancelReservation usageId => exact cancel_stepsRow s _ usageId u
    | markExpired current => exact expire_stepsRow limits s _ current u
    | recordImage runId executionAttempt succeeded => exact image_stepsRow ..
    | lifecycle op => exact stepsRow_same (Nat.le_refl _) rfl rfl
  | done => exact hsame

end Sessions

/-! ## From an empty ledger -/

/-- A ledger without rows, at any state of the runs. -/
def Sessions.fresh (sys : Sys) : World Sessions Statement := ⟨{ sys := sys }, []⟩

/-- A request, and the next statement of the `i`-th one. -/
def ask (op : UsageOp) : Interleave.Event UsageOp := ⟨0, .call op⟩

def advance (i : Nat) : Interleave.Event UsageOp := ⟨0, .advance i⟩

/-- The call is reserved, activated and started. -/
def startedCall : List (Interleave.Event UsageOp) :=
  [ask (.reserve sampleContext sampleRoute), advance 0, advance 0,
   ask (.activateReservation 0 "permit-1"), advance 1, ask (.markStarted 0), advance 2]

end AgentRuntime
