import AgentRuntime.ModelGateway
import AgentRuntime.Lib.Fallback

/-!
# One logical call of the model gateway

`ModelGateway.call` makes physical attempts until one of them is not rate
limited: it may wait and ask the same route once more, and then goes on to
the fallback route, as long as the run allows it and it has not been tried.
Each attempt is a whole `_call_route`, with a reservation of its own.

`Called.made` lists the attempts with the state each one found; nothing in
the program reads it. The main result is `rows_call`: the ledger of the run
grows by the attempts that keep their row (`CallRoute.Keeps`).
-/

namespace AgentRuntime

open Keyed

/-- What other processes commit meanwhile: operations on runs, and passes
over the expired rows. -/
inductive Meanwhile
  | lifecycle (e : Event)
  | markExpired (current : Time)

/-- What the world holds for one attempt of a call. `window` is what
`_effective_timeout` answers where a rate-limited attempt asks for it, and
`waitedMs` what the wait took. -/
structure AttemptFate where
  meanwhile : List Meanwhile := []
  permitId : String := ""
  fate : Fate := {}
  retryAfter : Time := 0
  window : Option Time := none
  waitedMs : Nat := 0

/-- `_wait_within_execution_window`. -/
def AttemptFate.Waits (f : AttemptFate) : Prop :=
  0 < f.retryAfter ∧ ∃ remaining ∈ f.window, f.retryAfter ≤ remaining

instance (f : AttemptFate) : Decidable f.Waits := by
  unfold AttemptFate.Waits; infer_instance

/-- A call of `ModelGateway.call`, with what the world holds for each of its
attempts. -/
structure LogicalCall where
  ctx : ModelCallContext
  routeId : String
  prompt : Option (String × String) := none
  world : Nat → AttemptFate := fun _ => {}

/-- What became of a call; no status where it raised. -/
structure Called where
  gateway : Gateway
  status : Option GatewayStatus
  made : List (Gateway × Gateway.CallRoute)

/-- The deployed routes (`ModelRouteRegistry`). -/
abbrev RouteTable := Table ModelRoute.routeId

/-- `record_active_elapsed`: a wait counts as active time of the run. -/
def PolicyEngine.recordActiveElapsed (db : Db) (now : Time) (ctx : ModelCallContext)
    (elapsedMs : Nat) : Db :=
  match db.runs.find? ctx.runId with
  | none => db
  | some run =>
    if 0 < elapsedMs ∧ ContextIsAuthoritative db run ctx now then
      { db with runs := db.runs.put (run.addActiveElapsed elapsedMs) }
    else db

namespace Gateway

def absorb (limits : AdmissionLimits) (g : Gateway) : Meanwhile → Gateway
  | .lifecycle e => { g with sys := step limits g.sys e }
  | .markExpired current =>
    { g with usages := ModelUsageService.markExpiredRunningUnknown g.usages current }

/-- All that others commit before the next attempt. -/
def meanwhile (limits : AdmissionLimits) (g : Gateway) (ms : List Meanwhile) : Gateway :=
  ms.foldl (absorb limits) g

/-- The next `n` statements of an attempt. -/
def complete (g : Gateway) (a : Attempt) : Nat → Gateway × Attempt
  | 0 => (g, a)
  | n + 1 => complete (g.advance a).1 (g.advance a).2 n

/-- `_call_route` from end to end: no attempt has more than eight
statements. -/
def callRoute (g : Gateway) (c : CallRoute) : Gateway × Attempt :=
  g.complete (enter c) 8

/-- The status a closed attempt returned. -/
def statusOfAttempt (a : Attempt) : Option GatewayStatus :=
  match a.phase with
  | .closed status => status
  | _ => none

/-- The `n`-th attempt of a call, on `route`. -/
def attempt (limits : AdmissionLimits) (call : LogicalCall) (g : Gateway) (n : Nat)
    (route : ModelRoute) : Called :=
  let found := g.meanwhile limits (call.world n).meanwhile
  let c : CallRoute := {
    ctx := call.ctx
    route := route
    prompt := call.prompt
    permitId := (call.world n).permitId
    fate := (call.world n).fate }
  { gateway := (found.callRoute c).1
    status := statusOfAttempt (found.callRoute c).2
    made := [(found, c)] }

/-- The wait for a rate-limited route. -/
def wait (g : Gateway) (ctx : ModelCallContext) (f : AttemptFate) : Gateway :=
  let now := g.sys.clock + f.retryAfter
  { g with sys := { g.sys with
      db := PolicyEngine.recordActiveElapsed g.sys.db now ctx f.waitedMs
      clock := now } }

/-- One candidate route of a call: an attempt, and one more after a wait
that the window of the caller allows. -/
def tryRoute (limits : AdmissionLimits) (call : LogicalCall) (g : Gateway) (n : Nat)
    (route : ModelRoute) : Called :=
  let first := attempt limits call g n route
  if first.status = some .rateLimited ∧ (call.world n).Waits then
    let second := attempt limits call (first.gateway.wait call.ctx (call.world n)) (n + 1) route
    { second with made := first.made ++ second.made }
  else first

/-- How many allowed routes have not been tried. -/
def untried (allowed attempted : List String) : Nat :=
  allowed.countP (fun r => decide (r ∉ attempted))

/-- Where a fallback is taken, one allowed route less is untried. -/
theorem untried_lt {allowed attempted : List String} {fallbackId : String}
    (hnew : fallbackId ∉ attempted) (hallowed : fallbackId ∈ allowed) :
    untried allowed (fallbackId :: attempted) < untried allowed attempted :=
  Fallback.untried_lt hnew hallowed

/-- The candidate loop of `call`; `attempted` are the routes tried so far,
the present one among them. -/
def callFrom (limits : AdmissionLimits) (routes : RouteTable) (call : LogicalCall) (g : Gateway)
    (n : Nat) (attempted : List String) (route : ModelRoute) : Called :=
  let tried := tryRoute limits call g n route
  match route.fallbackRouteId with
  | none => tried
  | some fallbackId =>
    if _h : tried.status = some .rateLimited ∧ fallbackId ≠ "" ∧ fallbackId ∉ attempted ∧
        fallbackId ∈ call.ctx.allowedRouteIds then
      match routes.find? fallbackId with
      | none => { tried with status := none }
      | some fallback =>
        let rest := callFrom limits routes call tried.gateway (n + tried.made.length)
          (fallbackId :: attempted) fallback
        { rest with made := tried.made ++ rest.made }
    else tried
termination_by untried call.ctx.allowedRouteIds attempted
decreasing_by exact untried_lt _h.2.2.1 _h.2.2.2

end Gateway

/-- `ModelGateway.call`. -/
def ModelGateway.call (limits : AdmissionLimits) (routes : RouteTable) (g : Gateway)
    (call : LogicalCall) : Called :=
  match routes.find? call.routeId with
  | none => { gateway := g, status := none, made := [] }
  | some route => Gateway.callFrom limits routes call g 0 [route.routeId] route

/-! ## The rows an attempt leaves -/

namespace Gateway

/-- How many rows a run has in the ledger. -/
def rows (usages : UsageTable) (q : String) : Nat :=
  (PolicyEngine.rowsOf usages q).length

theorem rows_eq_countP (usages : UsageTable) (q : String) :
    rows usages q = usages.rows.countP (fun r => decide (r.runId = q)) := by
  unfold rows PolicyEngine.rowsOf
  rw [List.countP_eq_length_filter]

theorem rows_updateWhere {usages : UsageTable} {u : Nat} {p : AgentModelUsage → Prop}
    [DecidablePred p] {f : AgentModelUsage → AgentModelUsage}
    (hkey : ∀ r, (f r).usageId = r.usageId) (hrun : ∀ r, (f r).runId = r.runId) (q : String) :
    rows (usages.updateWhere u p f).1 q = rows usages q := by
  rcases usages.updateWhere_cases u p f with ⟨r, hfind, _, heq⟩ | ⟨_, heq⟩
  · rw [heq, rows_eq_countP, rows_eq_countP]
    have hfind' : usages.find? (f r).usageId = some r := by
      rw [hkey, Table.key_of_find? hfind]
      exact hfind
    have hcount := Table.countP_put (fun r => decide (r.runId = q)) hfind'
    rw [hrun] at hcount
    exact Nat.add_right_cancel hcount
  · rw [heq]

theorem rows_applyFlush (u : Nat) (usages : UsageTable) (f : Flush) (q : String) :
    rows (applyFlush u usages f) q = rows usages q := by
  cases f with
  | prompt => apply rows_updateWhere <;> exact fun _ => rfl
  | activate => apply rows_updateWhere <;> exact fun _ => rfl
  | settle => apply rows_updateWhere <;> exact fun _ => rfl

theorem rows_flushAll (u : Nat) (q : String) :
    ∀ (flushed : List Flush) (usages : UsageTable),
      rows (flushAll u usages flushed) q = rows usages q
  | [], _ => rfl
  | f :: fs, usages => (rows_flushAll u q fs _).trans (rows_applyFlush u usages f q)

theorem rows_markExpired (usages : UsageTable) (current : Time) (q : String) :
    rows (ModelUsageService.markExpiredRunningUnknown usages current) q = rows usages q := by
  rw [rows_eq_countP, rows_eq_countP]
  unfold ModelUsageService.markExpiredRunningUnknown Table.mapRows
  rw [List.countP_map]
  refine List.countP_congr fun r _ => ?_
  have hrun : (r.expire current).runId = r.runId := by
    unfold AgentModelUsage.expire
    split <;> rfl
  simp [hrun]

/-- What others commit meanwhile leaves the number of rows alone. -/
theorem rows_meanwhile (limits : AdmissionLimits) (q : String) :
    ∀ (ms : List Meanwhile) (g : Gateway),
      rows (g.meanwhile limits ms).usages q = rows g.usages q
  | [], _ => rfl
  | .lifecycle e :: ms, g => rows_meanwhile limits q ms (g.absorb limits (.lifecycle e))
  | .markExpired current :: ms, g =>
    (rows_meanwhile limits q ms (g.absorb limits (.markExpired current))).trans
      (rows_markExpired g.usages current q)

/-- From the permit on, an attempt updates its row and drops none. -/
def Phase.IsLate : Phase → Prop
  | .entered | .reserved _ | .attached _ => False
  | _ => True

theorem late_advance {g : Gateway} {a : Attempt} (h : Phase.IsLate a.phase) (q : String) :
    rows (g.advance a).1.usages q = rows g.usages q ∧ Phase.IsLate (g.advance a).2.phase := by
  unfold advance
  cases hphase : a.phase with
  | entered => simp [hphase, Phase.IsLate] at h
  | reserved u => simp [hphase, Phase.IsLate] at h
  | attached u => simp [hphase, Phase.IsLate] at h
  | granted u =>
    dsimp only
    unfold activate
    split
    · exact ⟨rfl, trivial⟩
    · split <;> exact ⟨rfl, trivial⟩
  | activated u =>
    have hstart : rows (ModelUsageService.markStarted (flushAll u g.usages a.flushed) u).1 q
        = rows g.usages q := by
      rw [← rows_flushAll u q a.flushed g.usages]
      apply rows_updateWhere <;> exact fun _ => rfl
    dsimp only
    unfold start
    split
    · split
      next usages heq =>
        rw [heq] at hstart
        exact ⟨hstart, trivial⟩
      next usages heq =>
        rw [heq] at hstart
        exact ⟨hstart, trivial⟩
    · exact ⟨rfl, trivial⟩
    · exact ⟨rfl, trivial⟩
  | started u => exact ⟨rfl, trivial⟩
  | settling u sent reply =>
    dsimp only
    unfold settle
    dsimp only
    split <;> exact ⟨rfl, trivial⟩
  | returned u sent status =>
    dsimp only
    split
    · exact ⟨rows_flushAll u q _ _, trivial⟩
    · exact ⟨rfl, trivial⟩
  | closed status =>
    dsimp only
    rw [hphase]
    exact ⟨rfl, trivial⟩

theorem rows_complete_late (q : String) : ∀ (n : Nat) (g : Gateway) (a : Attempt),
    Phase.IsLate a.phase → rows (g.complete a n).1.usages q = rows g.usages q
  | 0, _, _, _ => rfl
  | n + 1, _, _, h =>
    (rows_complete_late q n _ _ (late_advance h q).2).trans (late_advance h q).1

/-- An attempt gives its reservation up: its prompt is refused, or its
permit is. -/
def GivesUp (prompt : Option (String × String)) (fate : Fate) : Prop :=
  match prompt with
  | none => fate.acquired = .no
  | some (promptId, promptVersion) =>
    (promptId ≠ "" ∧ promptVersion ≠ "") ∧
      (fate.attached = .no ∨ fate.attached = .yes ∧ fate.acquired = .no)

instance (prompt : Option (String × String)) (fate : Fate) : Decidable (GivesUp prompt fate) := by
  unfold GivesUp
  split <;> infer_instance

/-- An attempt that finds `g` keeps the row it reserves: nothing refuses it
before the budget is asked, the budget admits it, and it is not given up. -/
def CallRoute.Keeps (g : Gateway) (c : CallRoute) : Prop :=
  c.fate.refusal = none ∧ (g.reserve c.ctx c.route).isSome = true ∧
    ¬ GivesUp c.prompt c.fate

instance (g : Gateway) (c : CallRoute) : Decidable (c.Keeps g) := by
  unfold CallRoute.Keeps; infer_instance

/-- The row of an attempt, as its own session sees it, is reserved. -/
def Reserving (g : Gateway) (u : Nat) (q : String) (flushed : List Flush) : Prop :=
  ∃ r, (flushAll u g.usages flushed).find? u = some r ∧ r.status = .reserved ∧ r.runId = q

/-- A cancelled reservation takes its row away. -/
theorem rows_cancel {g : Gateway} {u : Nat} {q : String} {flushed : List Flush}
    (h : Reserving g u q flushed) :
    rows (g.cancel u flushed).usages q + 1 = rows g.usages q := by
  obtain ⟨r, hfind, hstatus, hrun⟩ := h
  have herase : (g.cancel u flushed).usages = (flushAll u g.usages flushed).erase u := by
    unfold cancel ModelUsageService.cancelReservation Table.deleteWhere
    rw [hfind]
    simp [hstatus]
  have hcount := Table.countP_erase (fun r => decide (r.runId = q)) hfind
  rw [herase, rows_eq_countP, ← rows_flushAll u q flushed g.usages, rows_eq_countP, ← hcount]
  simp [hrun]

theorem rows_complete_attached {g : Gateway} {a : Attempt} {u : Nat} {q : String} (n : Nat)
    (hphase : a.phase = .attached u) (h : Reserving g u q a.flushed) :
    rows (g.complete a (n + 1)).1.usages q + (if a.fate.acquired = .no then 1 else 0)
      = rows g.usages q := by
  have hadvance : g.advance a = g.acquire a u := by
    unfold advance
    rw [hphase]
  unfold complete
  rw [hadvance]
  unfold acquire
  cases hacquired : a.fate.acquired with
  | yes => exact rows_complete_late q n _ _ trivial
  | raises => exact rows_complete_late q n _ _ trivial
  | no =>
    have hlate := rows_complete_late q n (g.cancel u a.flushed)
      { a with phase := .closed (some .permitDenied) } trivial
    dsimp only
    rw [hlate]
    exact rows_cancel h

/-- A prompt is attached to a reserved row. -/
theorem attachPromptRef_reserved {usages : UsageTable} {u : Nat} {r : AgentModelUsage}
    {promptId promptVersion : String} (hfind : usages.find? u = some r)
    (hstatus : r.status = .reserved) (hnamed : promptId ≠ "" ∧ promptVersion ≠ "") :
    ModelUsageService.attachPromptRef usages u promptId promptVersion
      = .ok (usages.put (r.attachPrompt promptId promptVersion), true) := by
  have hrequire : require (promptId ≠ "" ∧ promptVersion ≠ "")
      (.value "prompt_id 与 prompt_version 不能为空") = .ok () := if_pos hnamed
  unfold ModelUsageService.attachPromptRef Table.updateWhere
  rw [hrequire, hfind]
  simp only [hstatus, if_true]
  rfl

theorem attachPromptRef_unnamed {usages : UsageTable} {u : Nat} {promptId promptVersion : String}
    (hnamed : ¬ (promptId ≠ "" ∧ promptVersion ≠ "")) :
    ModelUsageService.attachPromptRef usages u promptId promptVersion
      = .error (.value "prompt_id 与 prompt_version 不能为空") := by
  unfold ModelUsageService.attachPromptRef require
  rw [if_neg hnamed]
  rfl

/-- The row is still the attempt's, and reserved, after its prompt is
flushed. -/
theorem reserving_prompt {g : Gateway} {u : Nat} {q : String} {promptId promptVersion : String}
    (h : Reserving g u q []) : Reserving g u q [.prompt promptId promptVersion] := by
  obtain ⟨r, hfind, hstatus, hrun⟩ := h
  have hrow : g.usages.find? u = some r := hfind
  refine ⟨r.attachPrompt promptId promptVersion, ?_, hstatus, hrun⟩
  show (g.usages.updateWhere u _ _).1.find? u = _
  unfold Table.updateWhere
  rw [hrow]
  simp only [hstatus, if_true]
  have hkey := Table.key_of_find? hrow
  exact hkey ▸ Table.find?_put_self (t := g.usages) (a := r.attachPrompt promptId promptVersion)
    (hkey ▸ hrow)

/-- What attaching the prompt comes to. -/
theorem attach_cases {g : Gateway} {a : Attempt} {u : Nat} {q : String}
    (hflushed : a.flushed = []) (h : Reserving g u q []) :
    (∃ a', g.attach a u = (g, a') ∧ Phase.IsLate a'.phase ∧ ¬ GivesUp a.prompt a.fate) ∨
    (∃ a', g.attach a u = (g, a') ∧ a'.phase = .attached u ∧ Reserving g u q a'.flushed ∧
      (GivesUp a.prompt a.fate ↔ a'.fate.acquired = .no)) ∨
    (∃ a', g.attach a u = (g.cancel u [], a') ∧ Phase.IsLate a'.phase ∧
      GivesUp a.prompt a.fate) := by
  unfold attach
  cases hprompt : a.prompt with
  | none => exact Or.inr (Or.inl ⟨_, rfl, rfl, by rw [hflushed]; exact h, Iff.rfl⟩)
  | some ref =>
    obtain ⟨promptId, promptVersion⟩ := ref
    dsimp only [GivesUp]
    by_cases hnamed : promptId ≠ "" ∧ promptVersion ≠ ""
    · obtain ⟨r, hfind, hstatus, _⟩ := id h
      have hrow : g.usages.find? u = some r := hfind
      rw [attachPromptRef_reserved hrow hstatus hnamed]
      cases hattached : a.fate.attached with
      | raises => exact Or.inl ⟨_, rfl, trivial, by simp⟩
      | yes =>
        refine Or.inr (Or.inl ⟨_, rfl, rfl, ?_, by simp [hnamed]⟩)
        rw [hflushed]
        exact reserving_prompt h
      | no =>
        rw [hflushed]
        exact Or.inr (Or.inr ⟨_, rfl, trivial, hnamed, Or.inl rfl⟩)
    · rw [attachPromptRef_unnamed hnamed]
      by_cases hraises : a.fate.attached = .raises
      · rw [if_pos hraises]
        exact Or.inl ⟨_, rfl, trivial, fun hh => hnamed hh.1⟩
      · rw [if_neg hraises]
        exact Or.inl ⟨_, rfl, trivial, fun hh => hnamed hh.1⟩

theorem rows_complete_reserved {g : Gateway} {a : Attempt} {u : Nat} {q : String} (n : Nat)
    (hphase : a.phase = .reserved u) (hflushed : a.flushed = []) (h : Reserving g u q []) :
    rows (g.complete a (n + 2)).1.usages q + (if GivesUp a.prompt a.fate then 1 else 0)
      = rows g.usages q := by
  have hadvance : g.advance a = g.attach a u := by
    unfold advance
    rw [hphase]
  unfold complete
  rw [hadvance]
  rcases attach_cases hflushed h with
    ⟨a', heq, hlate, hkeeps⟩ | ⟨a', heq, hphase', hres, hgives⟩ | ⟨a', heq, hlate, hgives⟩
  · rw [heq, if_neg hkeeps]
    exact rows_complete_late q _ _ _ hlate
  · rw [heq]
    simp only [hgives]
    exact rows_complete_attached n hphase' hres
  · rw [heq, if_pos hgives, rows_complete_late q _ _ _ hlate]
    exact rows_cancel h

/-- An attempt leaves a row, or leaves the ledger as long as it was. -/
theorem rows_callRoute (g : Gateway) (c : CallRoute) :
    rows (g.callRoute c).1.usages c.ctx.runId
      = rows g.usages c.ctx.runId + (if c.Keeps g then 1 else 0) := by
  unfold callRoute complete
  rcases Option.eq_none_or_eq_some c.fate.refusal with hrefusal | ⟨status, hrefusal⟩
  · rcases Option.eq_none_or_eq_some (g.reserve c.ctx c.route) with hreserve | ⟨g', hreserve⟩
    · have hadvance : g.advance (enter c)
          = (g, { enter c with phase := .closed (some .policyDenied) }) := by
        simp [advance, enter, hrefusal, hreserve]
      rw [hadvance, if_neg (by simp [CallRoute.Keeps, hreserve])]
      exact rows_complete_late c.ctx.runId 7 g
        { enter c with phase := .closed (some .policyDenied) } trivial
    · have hadvance : g.advance (enter c)
          = (g', { enter c with phase := .reserved g.drawn }) := by
        simp [advance, enter, hrefusal, hreserve]
      have hkeeps : c.Keeps g ↔ ¬ GivesUp c.prompt c.fate := by
        simp [CallRoute.Keeps, hrefusal, hreserve]
      obtain ⟨usages, db, hins, rfl⟩ := reserve_ok hreserve
      have hres : Reserving
          { sys := { g.sys with db := db }, usages := usages, drawn := g.drawn + 1 }
          g.drawn c.ctx.runId [] := by
        refine ⟨PolicyEngine.newUsage g.usages c.ctx c.route g.drawn, ?_, rfl, rfl⟩
        exact (Table.find?_insert? hins g.drawn).trans (if_pos rfl)
      have hcount := rows_complete_reserved 5 (a := { enter c with phase := .reserved g.drawn })
        rfl rfl hres
      have hins' : rows usages c.ctx.runId = rows g.usages c.ctx.runId + 1 := by
        rw [rows_eq_countP, rows_eq_countP, Table.countP_insert? _ hins]
        simp [PolicyEngine.newUsage]
      rw [hadvance]
      by_cases hgives : GivesUp c.prompt c.fate
      · rw [if_neg (fun hh => hkeeps.mp hh hgives)]
        rw [if_pos (show GivesUp (enter c).prompt (enter c).fate from hgives)] at hcount
        exact Nat.add_right_cancel (hcount.trans hins')
      · rw [if_pos (hkeeps.mpr hgives)]
        rw [if_neg (show ¬ GivesUp (enter c).prompt (enter c).fate from hgives)] at hcount
        exact hcount.trans hins'
  · have hadvance : g.advance (enter c)
        = (g, { enter c with phase := .closed (some status) }) := by
      simp [advance, enter, hrefusal]
    rw [hadvance, if_neg (by simp [CallRoute.Keeps, hrefusal])]
    exact rows_complete_late c.ctx.runId 7 g
      { enter c with phase := .closed (some status) } trivial

/-! ## The rows a call leaves -/

/-- How many of the attempts made kept their row. -/
def kept (made : List (Gateway × CallRoute)) : Nat :=
  made.countP (fun m => decide (m.2.Keeps m.1))

theorem kept_append (made made' : List (Gateway × CallRoute)) :
    kept (made ++ made') = kept made + kept made' :=
  List.countP_append ..

theorem rows_attempt (limits : AdmissionLimits) (call : LogicalCall) (g : Gateway) (n : Nat)
    (route : ModelRoute) :
    rows (attempt limits call g n route).gateway.usages call.ctx.runId
      = rows g.usages call.ctx.runId + kept (attempt limits call g n route).made := by
  have hattempt := rows_callRoute (g.meanwhile limits (call.world n).meanwhile) {
    ctx := call.ctx
    route := route
    prompt := call.prompt
    permitId := (call.world n).permitId
    fate := (call.world n).fate }
  rw [rows_meanwhile] at hattempt
  unfold attempt kept
  simpa [List.countP_cons] using hattempt

theorem rows_tryRoute (limits : AdmissionLimits) (call : LogicalCall) (g : Gateway) (n : Nat)
    (route : ModelRoute) :
    rows (tryRoute limits call g n route).gateway.usages call.ctx.runId
      = rows g.usages call.ctx.runId + kept (tryRoute limits call g n route).made := by
  have hfirst := rows_attempt limits call g n route
  unfold tryRoute
  dsimp only
  split
  · have hsecond := rows_attempt limits call
      ((attempt limits call g n route).gateway.wait call.ctx (call.world n)) (n + 1) route
    have hwait : rows ((attempt limits call g n route).gateway.wait call.ctx
        (call.world n)).usages call.ctx.runId
        = rows (attempt limits call g n route).gateway.usages call.ctx.runId := rfl
    show rows (attempt limits call _ (n + 1) route).gateway.usages call.ctx.runId = _
    rw [hsecond, hwait, hfirst, kept_append, Nat.add_assoc]
  · exact hfirst

/-- The candidate loop, by the routes that are left. -/
theorem rows_callFrom (limits : AdmissionLimits) (routes : RouteTable) (call : LogicalCall)
    (g : Gateway) (n : Nat) (attempted : List String) (route : ModelRoute) :
    rows (callFrom limits routes call g n attempted route).gateway.usages call.ctx.runId
      = rows g.usages call.ctx.runId
        + kept (callFrom limits routes call g n attempted route).made := by
  fun_induction callFrom limits routes call g n attempted route with
  | case1 => exact rows_tryRoute ..
  | case2 => exact rows_tryRoute ..
  | case3 g n attempted route tried fallbackId hfallback hnext fallback hfind rest ih =>
    have htried := rows_tryRoute limits call g n route
    show rows (callFrom limits routes call tried.gateway _ _ fallback).gateway.usages _ = _
    rw [ih, htried, kept_append, Nat.add_assoc]
  | case4 => exact rows_tryRoute ..

/-- A call adds to the ledger of its run the attempts that keep their
row. -/
theorem rows_call (limits : AdmissionLimits) (routes : RouteTable) (g : Gateway)
    (call : LogicalCall) :
    rows (ModelGateway.call limits routes g call).gateway.usages call.ctx.runId
      = rows g.usages call.ctx.runId + kept (ModelGateway.call limits routes g call).made := by
  unfold ModelGateway.call
  split
  · rfl
  · exact rows_callFrom ..

end Gateway

end AgentRuntime
