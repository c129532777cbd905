import AgentRuntime.Planner
import Mathlib.Data.List.Nodup

/-!
# The dispatcher of the outbox

`Dispatcher.dispatch_pending`: the due events of the handled types are
claimed one after the other and given to their handlers; a failure is
recorded with the time of the next attempt, or as a dead letter at the fifth
one. The batch is committed as a whole, at its end.

The delay before the next attempt is what a `Retry-After` header says, cut to
1..300 seconds. The header is read by `float`, else by
`parsedate_to_datetime`, and `int` of the delay stands outside of the `try`
around them: a delay that is infinite or not a number stops the batch, and
nothing of it is committed. `dispatch_robust_iff`: a batch is dispatched
rightly exactly when none of its failures carries such a header.

Mirroring notes:
- `float` reads a text by the grammar of the language reference and rounds it
  to the nearest double (`Float.Model`). Which characters are blank and which
  are digits is a parameter, as is all of `parsedate_to_datetime`: which time
  it reads, or which exception it raises.
- The rows are in the order in which the candidates are read, so that the
  order is as arbitrary as the table.
-/

namespace AgentRuntime

open Keyed

/-! ## `float` and `int` -/

/-- The exceptions of reading a header. -/
inductive PyError
  | typeError | valueError | indexError | overflowError | other
  deriving DecidableEq, Repr

/-- What the texts of a header are read by. `parsedateToDatetime` gives a
time in microseconds, or nothing for a time without a zone. -/
structure HeaderReader where
  isSpace : Char → Bool
  decimal : Char → Option Nat
  parsedateToDatetime : String → Except PyError (Option Int)

namespace HeaderReader

variable (h : HeaderReader)

/-- `(["_"] digit)*`, and what is left. -/
def moreDigits : List Char → List Nat × List Char
  | '_' :: c :: cs =>
    match h.decimal c with
    | some d => (d :: (moreDigits cs).1, (moreDigits cs).2)
    | none => ([], '_' :: c :: cs)
  | c :: cs =>
    match h.decimal c with
    | some d => (d :: (moreDigits cs).1, (moreDigits cs).2)
    | none => ([], c :: cs)
  | [] => ([], [])

/-- `digitpart`, or nothing. -/
def digitPart : List Char → List Nat × List Char
  | c :: cs =>
    match h.decimal c with
    | some d => (d :: (h.moreDigits cs).1, (h.moreDigits cs).2)
    | none => ([], c :: cs)
  | [] => ([], [])

/-- `sign`, and whether it is a minus. -/
def signPart : List Char → Bool × List Char
  | '-' :: cs => (true, cs)
  | '+' :: cs => (false, cs)
  | cs => (false, cs)

def fractionPart : List Char → List Nat × List Char
  | '.' :: cs => h.digitPart cs
  | cs => ([], cs)

def digitsValue (ds : List Nat) : Nat :=
  ds.foldl (fun n d => 10 * n + d) 0

/-- The value of `[exponent]` at the end of the text. -/
def exponentPart : List Char → Option Int
  | [] => some 0
  | c :: cs =>
    if c = 'e' ∨ c = 'E' then
      match h.digitPart (signPart cs).2 with
      | (d :: ds, []) =>
        some (if (signPart cs).1 then -(digitsValue (d :: ds) : Int) else digitsValue (d :: ds))
      | _ => none
    else none

/-- `floatnumber`: a coefficient and the power of ten. -/
def floatNumber (cs : List Char) : Option (Nat × Int) :=
  let whole := h.digitPart cs
  let fraction := h.fractionPart whole.2
  if whole.1 = [] ∧ fraction.1 = [] then none
  else
    (h.exponentPart fraction.2).map (fun e =>
      (digitsValue (whole.1 ++ fraction.1), e - fraction.1.length))

def strip (cs : List Char) : List Char :=
  ((cs.dropWhile h.isSpace).reverse.dropWhile h.isSpace).reverse

/-- `float` of a text; `none` for `ValueError`. -/
def float (text : String) : Option Float.Model.UnpackedFloat :=
  let (negative, cs) := signPart (h.strip text.toList)
  let sign : Float.Model.UnpackedFloat.Sign := if negative then .negative else .positive
  if cs.map Char.toLower = ['i', 'n', 'f'] ∨
      cs.map Char.toLower = ['i', 'n', 'f', 'i', 'n', 'i', 't', 'y'] then
    some (.infinity sign)
  else if cs.map Char.toLower = ['n', 'a', 'n'] then some .notANumber
  else
    (h.floatNumber cs).map (fun number =>
      let x := (Float.Model.ofScientific number.1 number.2).unpack
      if negative then x.neg else x)

end HeaderReader

/-- `int` of a float: towards zero. -/
def truncate (x : Float.Model.UnpackedFloat) : Except PyError Int :=
  match x with
  | .infinity _ => .error .overflowError
  | .notANumber => .error .valueError
  | x => .ok (x.toInt 0 0)

/-! ## The rows -/

/-- The event types the runtime writes. -/
inductive OutboxEventType
  | runDispatch | callback
  deriving DecidableEq, Repr

/-- A row of `runtime_outbox_events`, with the columns of the dispatcher. -/
structure OutboxEntry where
  outboxId : String
  eventType : OutboxEventType
  aggregateId : String
  payload : List (String × Json)
  status : OutboxStatus := .pending
  attemptCount : Nat := 0
  nextAttemptAt : Option Time := none
  leaseOwner : Option String := none
  leaseExpiresAt : Option Time := none
  lastErrorCode : Option String := none
  deliveredAt : Option Time := none

abbrev OutboxTable := Table OutboxEntry.outboxId

/-- What a handler raises: an `httpx.HTTPStatusError` with the `Retry-After`
of its response, or another exception. -/
inductive HandlerError
  | httpStatus (retryAfter : Option String)
  | other
  deriving DecidableEq, Repr

structure Dispatcher where
  owner : String := "runtime-dispatcher"
  leaseSeconds : Nat := 30
  notifyRun : String → Except HandlerError Unit
  callbackSender : Option (OutboxEntry → Except HandlerError Unit) := none

/-- What happens around a batch: the events that other dispatchers have
claimed since the candidates were read, and the time at which the failure of
an event is looked at. -/
structure BatchWorld where
  taken : String → Bool
  clock : String → Time

/-! ## The delay -/

/-- `min(60, 2**attempt_count)`. -/
def backoff (attemptCount : Nat) : Int :=
  min 60 (Int.pow 2 attemptCount)

/-- `min(300, max(1, …))`. -/
def clampDelay (delay : Int) : Int :=
  min 300 (max 1 delay)

/-- The exceptions `_retry_delay_seconds` catches. -/
def PyError.caught : PyError → Bool
  | .typeError | .valueError | .indexError => true
  | .overflowError | .other => false

/-- The delay a `Retry-After` asks for. -/
def headerDelay (h : HeaderReader) (now : Time) (attemptCount : Nat) (retryAfter : String) :
    Except PyError Int :=
  match h.float retryAfter with
  | some delay =>
    -- `int(delay)` is outside of the `try`
    match truncate delay with
    | .ok seconds => .ok (clampDelay seconds)
    | .error e => .error e
  | none =>
    match h.parsedateToDatetime retryAfter with
    | .ok none => .ok (backoff attemptCount)
    | .ok (some retryAt) => .ok (clampDelay ((retryAt - (now : Int)).tdiv (seconds 1)))
    | .error e => if e.caught = true then .ok (backoff attemptCount) else .error e

/-- `_retry_delay_seconds`. -/
def retryDelaySeconds (h : HeaderReader) (now : Time) (exc : HandlerError) (attemptCount : Nat) :
    Except PyError Int :=
  match exc with
  | .httpStatus (some retryAfter) => headerDelay h now attemptCount retryAfter
  | _ => .ok (backoff attemptCount)

/-! ## The batch -/

namespace Dispatcher

/-- `_deliver_run_dispatch`. -/
def deliverRunDispatch (d : Dispatcher) (event : OutboxEntry) : Except HandlerError Unit :=
  match (Json.get? "run_id" event.payload).getD (.str event.aggregateId) with
  | .str runId => if runId = "" then .error .other else d.notifyRun runId
  | _ => .error .other

/-- `_handlers`. -/
def handler (d : Dispatcher) : OutboxEventType → Option (OutboxEntry → Except HandlerError Unit)
  | .runDispatch => some d.deliverRunDispatch
  | .callback => d.callbackSender

/-- The condition of the candidates. -/
def Due (d : Dispatcher) (now : Time) (event : OutboxEntry) : Prop :=
  event.status = .pending ∧ (d.handler event.eventType).isSome = true ∧
    ∀ at_ ∈ event.nextAttemptAt, at_ ≤ now

instance (d : Dispatcher) (now : Time) (event : OutboxEntry) : Decidable (d.Due now event) := by
  unfold Due; infer_instance

/-- The condition of `_claim`. -/
def Claimable (d : Dispatcher) (now : Time) (event : OutboxEntry) : Prop :=
  event.status = .pending ∧ (d.handler event.eventType).isSome = true ∧
    ∀ expires ∈ event.leaseExpiresAt, expires < now

instance (d : Dispatcher) (now : Time) : DecidablePred (d.Claimable now) := by
  intro event; unfold Claimable; infer_instance

/-- What `_claim` writes. -/
def lease (d : Dispatcher) (now : Time) (event : OutboxEntry) : OutboxEntry :=
  { event with
    status := .delivering
    leaseOwner := some d.owner
    leaseExpiresAt := some (now + seconds d.leaseSeconds) }

/-- `_claim`. -/
def claim (d : Dispatcher) (world : BatchWorld) (now : Time) (outbox : OutboxTable)
    (outboxId : String) : OutboxTable × Option OutboxEntry :=
  if world.taken outboxId = true then (outbox, none)
  else
    let claimed := outbox.updateWhere outboxId (d.Claimable now) (d.lease now)
    if claimed.2 = true then (claimed.1, claimed.1.find? outboxId) else (claimed.1, none)

end Dispatcher

/-- What is written of every failed attempt. -/
def OutboxEntry.failed (event : OutboxEntry) : OutboxEntry :=
  { event with
    leaseOwner := none
    leaseExpiresAt := none
    attemptCount := event.attemptCount + 1
    lastErrorCode := some (
      if event.eventType = .callback then "CALLBACK_DELIVERY_FAILED"
      else "DISPATCH_DELIVERY_FAILED") }

/-- The `except` of the loop. -/
def recordFailure (h : HeaderReader) (now later : Time) (event : OutboxEntry)
    (exc : HandlerError) : Except PyError OutboxEntry :=
  if 5 ≤ event.failed.attemptCount then
    .ok { event.failed with status := .deadLetter, nextAttemptAt := none }
  else
    match retryDelaySeconds h later exc event.failed.attemptCount with
    | .error e => .error e
    | .ok delay =>
      .ok { event.failed with
        status := .pending
        nextAttemptAt := some (now + seconds delay.toNat) }

/-- The `else` of the loop. -/
def recordDelivery (now : Time) (event : OutboxEntry) : OutboxEntry :=
  { event with
    status := .delivered
    leaseOwner := none
    leaseExpiresAt := none
    deliveredAt := some now }

namespace Dispatcher

/-- One candidate, and how many deliveries it adds. -/
def dispatchOne (d : Dispatcher) (h : HeaderReader) (world : BatchWorld) (now : Time)
    (outbox : OutboxTable) (outboxId : String) : Except PyError (OutboxTable × Nat) :=
  match d.claim world now outbox outboxId with
  | (outbox, none) => .ok (outbox, 0)
  | (outbox, some event) =>
    match d.handler event.eventType with
    | none => .ok (outbox, 0)
    | some handle =>
      match handle event with
      | .ok () => .ok (outbox.put (recordDelivery now event), 1)
      | .error exc =>
        match recordFailure h now (world.clock outboxId) event exc with
        | .error e => .error e
        | .ok failed => .ok (outbox.put failed, 0)

def dispatchEach (d : Dispatcher) (h : HeaderReader) (world : BatchWorld) (now : Time) :
    List String → OutboxTable → Nat → Except PyError (OutboxTable × Nat)
  | [], outbox, delivered => .ok (outbox, delivered)
  | outboxId :: rest, outbox, delivered =>
    match d.dispatchOne h world now outbox outboxId with
    | .error e => .error e
    | .ok (outbox, one) => d.dispatchEach h world now rest outbox (delivered + one)

def candidateIds (d : Dispatcher) (now : Time) (outbox : OutboxTable) : List String :=
  (outbox.rows.filter (fun event => decide (d.Due now event))).map (·.outboxId)

/-- `dispatch_pending`: the committed table and the number of deliveries, or
the exception it raises, in which case the transaction is rolled back. -/
def dispatchPending (d : Dispatcher) (h : HeaderReader) (world : BatchWorld) (now : Time)
    (outbox : OutboxTable) : Except PyError (OutboxTable × Nat) :=
  d.dispatchEach h world now (d.candidateIds now outbox) outbox 0

end Dispatcher

/-! ## What a batch should leave -/

/-- A delay can be worked out from the header: it is a finite number, or a
date whose reading raises nothing that is not caught. -/
def HeaderReader.Reads (h : HeaderReader) (retryAfter : String) : Prop :=
  match h.float retryAfter with
  | some delay => delay.isFinite = true
  | none => ∀ e, h.parsedateToDatetime retryAfter = .error e → e.caught = true

/-- The row after the attempt at a claimed event. -/
inductive RecordedAs (now : Time) (event : OutboxEntry) :
    Except HandlerError Unit → OutboxEntry → Prop
  | delivered : RecordedAs now event (.ok ()) (recordDelivery now event)
  | retried {exc : HandlerError} (delay : Nat) (hattempts : event.attemptCount + 1 < 5)
      (hlow : 1 ≤ delay) (hhigh : delay ≤ 300) :
      RecordedAs now event (.error exc) { event.failed with
        status := .pending
        nextAttemptAt := some (now + seconds delay) }
  | dead {exc : HandlerError} (hattempts : 5 ≤ event.attemptCount + 1) :
      RecordedAs now event (.error exc)
        { event.failed with status := .deadLetter, nextAttemptAt := none }

namespace Dispatcher

variable (d : Dispatcher) (h : HeaderReader) (world : BatchWorld) (now : Time)

/-- `_claim` gets the event. -/
def Takes (event : OutboxEntry) : Prop :=
  world.taken event.outboxId = false ∧ d.Claimable now event

/-- The event is in the batch. -/
def Claimed (outbox : OutboxTable) (event : OutboxEntry) : Prop :=
  event ∈ outbox.rows ∧ d.Due now event ∧ d.Takes world now event

/-- The attempt at the event, once claimed, is recorded in the row. -/
def Records (event row : OutboxEntry) : Prop :=
  ∃ handle, d.handler event.eventType = some handle ∧
    RecordedAs now (d.lease now event) (handle (d.lease now event)) row

/-- If the attempt fails before the last one, its header can be read. -/
def Recordable (event : OutboxEntry) : Prop :=
  ∀ handle retryAfter, d.handler event.eventType = some handle →
    handle (d.lease now event) = .error (.httpStatus (some retryAfter)) →
      event.attemptCount + 1 < 5 → h.Reads retryAfter

/-- The batch is dispatched without an exception, every event of it is
recorded, and the other rows are left alone. -/
def Robust (outbox : OutboxTable) : Prop :=
  ∃ outbox' delivered, d.dispatchPending h world now outbox = .ok (outbox', delivered) ∧
    (∀ event, d.Claimed world now outbox event →
      ∃ row, outbox'.find? event.outboxId = some row ∧ d.Records now event row) ∧
    ∀ event ∈ outbox.rows, ¬ d.Claimed world now outbox event →
      outbox'.find? event.outboxId = some event

end Dispatcher

/-! ## The delay -/

theorem truncate_isFinite {x : Float.Model.UnpackedFloat} (hx : x.isFinite = true) :
    ∃ n, truncate x = .ok n := by
  cases x with
  | infinity sign => cases hx
  | notANumber => cases hx
  | zero sign => exact ⟨_, rfl⟩
  | finite sign m e hm => exact ⟨_, rfl⟩

theorem isFinite_of_truncate {x : Float.Model.UnpackedFloat} {n : Int} (hx : truncate x = .ok n) :
    x.isFinite = true := by
  cases x with
  | infinity sign => cases hx
  | notANumber => cases hx
  | zero sign => rfl
  | finite sign m e hm => rfl

theorem backoff_range {attemptCount : Nat} (h : 1 ≤ attemptCount) :
    1 ≤ backoff attemptCount ∧ backoff attemptCount ≤ 300 := by
  have hpos : (2 : Int) ≤ Int.pow 2 attemptCount := by
    obtain ⟨n, rfl⟩ := Nat.exists_eq_add_of_le' h
    have hone : (0 : Int) < Int.pow 2 n := Int.pow_pos (by decide)
    show (2 : Int) ≤ Int.pow 2 n * 2
    omega
  unfold backoff
  omega

theorem clampDelay_range (delay : Int) : 1 ≤ clampDelay delay ∧ clampDelay delay ≤ 300 := by
  unfold clampDelay
  omega

variable {h : HeaderReader} {now later : Time}

/-- A header that can be read gives a delay in range, and one that cannot
gives none. -/
theorem headerDelay_cases (h : HeaderReader) (now : Time) {attemptCount : Nat}
    (hattempts : 1 ≤ attemptCount) (retryAfter : String) :
    (h.Reads retryAfter ∧ ∃ delay, headerDelay h now attemptCount retryAfter = .ok delay ∧
      1 ≤ delay ∧ delay ≤ 300) ∨
    (¬ h.Reads retryAfter ∧ ∃ e, headerDelay h now attemptCount retryAfter = .error e) := by
  unfold HeaderReader.Reads headerDelay
  cases hfloat : h.float retryAfter with
  | some x =>
    dsimp only
    cases htruncate : truncate x with
    | ok n => exact Or.inl ⟨isFinite_of_truncate htruncate, _, rfl, clampDelay_range n⟩
    | error e =>
      refine Or.inr ⟨fun hx => ?_, e, rfl⟩
      obtain ⟨n, hn⟩ := truncate_isFinite hx
      rw [htruncate] at hn
      cases hn
  | none =>
    dsimp only
    cases hdate : h.parsedateToDatetime retryAfter with
    | ok read =>
      refine Or.inl ⟨fun e he => (nomatch he), ?_⟩
      cases read with
      | none => exact ⟨_, rfl, backoff_range hattempts⟩
      | some retryAt => exact ⟨_, rfl, clampDelay_range _⟩
    | error e =>
      dsimp only
      by_cases hcaught : e.caught = true
      · refine Or.inl ⟨fun e' he => ?_, _, if_pos hcaught, backoff_range hattempts⟩
        cases he
        exact hcaught
      · exact Or.inr ⟨fun hreads => hcaught (hreads e rfl), e, if_neg hcaught⟩

/-- The same for any exception. -/
theorem retryDelay_cases (h : HeaderReader) (now : Time) (exc : HandlerError)
    {attemptCount : Nat} (hattempts : 1 ≤ attemptCount) :
    ((∀ retryAfter, exc = .httpStatus (some retryAfter) → h.Reads retryAfter) ∧
      ∃ delay, retryDelaySeconds h now exc attemptCount = .ok delay ∧ 1 ≤ delay ∧ delay ≤ 300) ∨
    ((∃ retryAfter, exc = .httpStatus (some retryAfter) ∧ ¬ h.Reads retryAfter) ∧
      ∃ e, retryDelaySeconds h now exc attemptCount = .error e) := by
  cases exc with
  | other => exact Or.inl ⟨fun _ hexc => (nomatch hexc), _, rfl, backoff_range hattempts⟩
  | httpStatus header =>
    cases header with
    | none => exact Or.inl ⟨fun _ hexc => (nomatch hexc), _, rfl, backoff_range hattempts⟩
    | some retryAfter =>
      rcases headerDelay_cases h now hattempts retryAfter with ⟨hreads, hok⟩ | ⟨hreads, herror⟩
      · refine Or.inl ⟨fun _ hexc => ?_, hok⟩
        cases hexc
        exact hreads
      · exact Or.inr ⟨⟨retryAfter, rfl, hreads⟩, herror⟩

/-- What becomes of a failure. -/
theorem recordFailure_cases (h : HeaderReader) (now later : Time) (event : OutboxEntry)
    (exc : HandlerError) :
    ((∀ retryAfter, exc = .httpStatus (some retryAfter) → event.attemptCount + 1 < 5 →
        h.Reads retryAfter) ∧
      ∃ row, recordFailure h now later event exc = .ok row ∧
        RecordedAs now event (.error exc) row) ∨
    ((∃ retryAfter, exc = .httpStatus (some retryAfter) ∧ event.attemptCount + 1 < 5 ∧
        ¬ h.Reads retryAfter) ∧
      ∃ e, recordFailure h now later event exc = .error e) := by
  unfold recordFailure
  by_cases hattempts : 5 ≤ event.failed.attemptCount
  · rw [if_pos hattempts]
    exact Or.inl ⟨fun _ _ hlt => absurd hattempts (Nat.not_le.mpr hlt), _, rfl, .dead hattempts⟩
  · rw [if_neg hattempts]
    have hlt : event.attemptCount + 1 < 5 := Nat.not_le.mp hattempts
    rcases retryDelay_cases h later exc (Nat.le_add_left 1 event.attemptCount) with
      ⟨hreads, delay, hdelay, hlow, hhigh⟩ | ⟨⟨retryAfter, hexc, hreads⟩, e, herror⟩
    · refine Or.inl ⟨fun retryAfter hexc _ => hreads retryAfter hexc, ?_⟩
      rw [show retryDelaySeconds h later exc event.failed.attemptCount = .ok delay from hdelay]
      exact ⟨_, rfl, .retried delay.toNat hlt (by omega) (by omega)⟩
    · refine Or.inr ⟨⟨retryAfter, hexc, hlt, hreads⟩, e, ?_⟩
      rw [show retryDelaySeconds h later exc event.failed.attemptCount = .error e from herror]

/-! ## One event -/

namespace Dispatcher

variable {d : Dispatcher} {world : BatchWorld} {outbox : OutboxTable} {event : OutboxEntry}

theorem claim_of_takes (hfind : outbox.find? event.outboxId = some event)
    (htakes : d.Takes world now event) :
    d.claim world now outbox event.outboxId
      = (outbox.put (d.lease now event), some (d.lease now event)) := by
  have hupdate : outbox.updateWhere event.outboxId (d.Claimable now) (d.lease now)
      = (outbox.put (d.lease now event), true) := by
    unfold Table.updateWhere
    rw [hfind]
    exact if_pos htakes.2
  have hleased : (outbox.put (d.lease now event)).find? event.outboxId
      = some (d.lease now event) :=
    Table.find?_put_self (a := d.lease now event) hfind
  simp only [claim, htakes.1, Bool.false_eq_true, if_false, hupdate, if_true, hleased]

theorem claim_of_not (hfind : outbox.find? event.outboxId = some event)
    (hno : ¬ d.Takes world now event) :
    d.claim world now outbox event.outboxId = (outbox, none) := by
  unfold claim
  cases htaken : world.taken event.outboxId with
  | true => rfl
  | false =>
    have hupdate : outbox.updateWhere event.outboxId (d.Claimable now) (d.lease now)
        = (outbox, false) := by
      unfold Table.updateWhere
      rw [hfind]
      exact if_neg fun hclaimable => hno ⟨htaken, hclaimable⟩
    simp only [hupdate, Bool.false_eq_true, if_false]

theorem dispatchOne_of_not (hfind : outbox.find? event.outboxId = some event)
    (hno : ¬ d.Takes world now event) :
    d.dispatchOne h world now outbox event.outboxId = .ok (outbox, 0) := by
  unfold dispatchOne
  rw [claim_of_not hfind hno]

/-- A claimed event is recorded if its failure can be, and else stops the
batch. -/
theorem dispatchOne_cases (h : HeaderReader) (hfind : outbox.find? event.outboxId = some event)
    (htakes : d.Takes world now event) :
    (d.Recordable h now event ∧ ∃ row one, row.outboxId = event.outboxId ∧
      d.Records now event row ∧ d.dispatchOne h world now outbox event.outboxId
        = .ok ((outbox.put (d.lease now event)).put row, one)) ∨
    (¬ d.Recordable h now event ∧
      ∃ e, d.dispatchOne h world now outbox event.outboxId = .error e) := by
  obtain ⟨handle, hhandle⟩ := Option.isSome_iff_exists.mp htakes.2.2.1
  have hleased : d.handler (d.lease now event).eventType = some handle := hhandle
  unfold dispatchOne
  rw [claim_of_takes hfind htakes]
  dsimp only
  rw [hleased]
  dsimp only
  cases hresult : handle (d.lease now event) with
  | ok u =>
    refine Or.inl ⟨fun handle' _ hhandle' hraise => ?_, recordDelivery now (d.lease now event), 1,
      rfl, ⟨handle, hhandle, ?_⟩, rfl⟩
    · cases hhandle.symm.trans hhandle'
      rw [hresult] at hraise
      cases hraise
    · rw [hresult]
      exact .delivered
  | error exc =>
    dsimp only
    rcases recordFailure_cases h now (world.clock event.outboxId) (d.lease now event) exc with
      ⟨hreads, row, hrow, hrecorded⟩ | ⟨⟨retryAfter, rfl, hlt, hreads⟩, e, herror⟩
    · refine Or.inl ⟨fun handle' retryAfter hhandle' hraise hlt => ?_, row, 0, ?_,
        ⟨handle, hhandle, ?_⟩, ?_⟩
      · cases hhandle.symm.trans hhandle'
        cases hresult.symm.trans hraise
        exact hreads retryAfter rfl hlt
      · cases hrecorded <;> rfl
      · rw [hresult]
        exact hrecorded
      · rw [hrow]
    · refine Or.inr ⟨fun hrecordable => ?_, e, ?_⟩
      · exact hreads (hrecordable handle retryAfter hhandle hresult hlt)
      · rw [herror]

/-- The other rows stay as they are. -/
theorem dispatchOne_frame {outbox' : OutboxTable} {one : Nat}
    (hfind : outbox.find? event.outboxId = some event)
    (hok : d.dispatchOne h world now outbox event.outboxId = .ok (outbox', one))
    {outboxId : String} (hne : outboxId ≠ event.outboxId) :
    outbox'.find? outboxId = outbox.find? outboxId := by
  by_cases htakes : d.Takes world now event
  · rcases dispatchOne_cases h hfind htakes with ⟨_, row, k, hid, _, heq⟩ | ⟨_, e, herror⟩
    · cases hok.symm.trans heq
      rw [Table.find?_put_ne (hid.symm ▸ hne)]
      exact Table.find?_put_ne (a := d.lease now event) hne
    · cases hok.symm.trans herror
  · cases hok.symm.trans (dispatchOne_of_not hfind htakes)
    rfl

/-! ## The batch -/

/-- What a loop over `ids` makes of a table. -/
structure Dispatched (d : Dispatcher) (world : BatchWorld) (now : Time) (ids : List String)
    (outbox outbox' : OutboxTable) : Prop where
  others : ∀ outboxId ∉ ids, outbox'.find? outboxId = outbox.find? outboxId
  taken : ∀ event, event.outboxId ∈ ids → outbox.find? event.outboxId = some event →
    d.Takes world now event →
    ∃ row, outbox'.find? event.outboxId = some row ∧ d.Records now event row
  left : ∀ event, event.outboxId ∈ ids → outbox.find? event.outboxId = some event →
    ¬ d.Takes world now event → outbox'.find? event.outboxId = some event

/-- The failures of the events named by `ids` can be recorded. -/
def AllRecordable (d : Dispatcher) (h : HeaderReader) (world : BatchWorld) (now : Time)
    (ids : List String) (outbox : OutboxTable) : Prop :=
  ∀ event, event.outboxId ∈ ids → outbox.find? event.outboxId = some event →
    d.Takes world now event → d.Recordable h now event

theorem Dispatched.cons {outbox₁ outbox' : OutboxTable} {ids : List String} {one : Nat}
    (hfind : outbox.find? event.outboxId = some event) (hnew : event.outboxId ∉ ids)
    (hok : d.dispatchOne h world now outbox event.outboxId = .ok (outbox₁, one))
    (hrest : Dispatched d world now ids outbox₁ outbox') :
    Dispatched d world now (event.outboxId :: ids) outbox outbox' where
  others outboxId hmem := by
    rw [List.mem_cons, not_or] at hmem
    rw [hrest.others outboxId hmem.2]
    exact dispatchOne_frame hfind hok hmem.1
  taken event' hmem hfind' htakes := by
    by_cases hsame : event'.outboxId = event.outboxId
    · rw [hsame, hfind] at hfind'
      cases hfind'
      rw [hrest.others _ hnew]
      rcases dispatchOne_cases h hfind htakes with ⟨_, row, k, hid, hrow, heq⟩ | ⟨_, e, herror⟩
      · cases hok.symm.trans heq
        have hleased : (outbox.put (d.lease now event)).find? row.outboxId
            = some (d.lease now event) := by
          rw [hid]
          exact Table.find?_put_self (a := d.lease now event) hfind
        rw [← hid]
        exact ⟨row, Table.find?_put_self hleased, hrow⟩
      · cases hok.symm.trans herror
    · rw [← dispatchOne_frame hfind hok hsame] at hfind'
      exact hrest.taken event' ((List.mem_cons.mp hmem).resolve_left hsame) hfind' htakes
  left event' hmem hfind' hno := by
    by_cases hsame : event'.outboxId = event.outboxId
    · rw [hsame, hfind] at hfind'
      cases hfind'
      rw [hrest.others _ hnew]
      cases hok.symm.trans (dispatchOne_of_not hfind hno)
      exact hfind
    · rw [← dispatchOne_frame hfind hok hsame] at hfind'
      exact hrest.left event' ((List.mem_cons.mp hmem).resolve_left hsame) hfind' hno

/-- The loop, over ids of rows of the table: it ends in what it should, or
some failure could not be recorded. -/
theorem dispatchEach_cases (d : Dispatcher) (h : HeaderReader) (world : BatchWorld) (now : Time) :
    ∀ (ids : List String) (outbox : OutboxTable) (delivered : Nat), ids.Nodup →
      (∀ outboxId ∈ ids, (outbox.find? outboxId).isSome = true) →
      (d.AllRecordable h world now ids outbox ∧ ∃ outbox' count,
        d.dispatchEach h world now ids outbox delivered = .ok (outbox', count) ∧
          d.Dispatched world now ids outbox outbox') ∨
      (¬ d.AllRecordable h world now ids outbox ∧
        ∃ e, d.dispatchEach h world now ids outbox delivered = .error e)
  | [], outbox, delivered, _, _ =>
    Or.inl ⟨fun _ hmem => (nomatch hmem), outbox, delivered, rfl,
      fun _ _ => rfl, fun _ hmem => (nomatch hmem), fun _ hmem => (nomatch hmem)⟩
  | outboxId :: rest, outbox, delivered, hnodup, hthere => by
    obtain ⟨hnew, hnodup'⟩ := List.nodup_cons.mp hnodup
    obtain ⟨event, hfind⟩ := Option.isSome_iff_exists.mp (hthere outboxId List.mem_cons_self)
    have hid : event.outboxId = outboxId := Table.key_of_find? hfind
    subst hid
    -- the first event: it is recorded, left alone, or stops the loop
    have hone : (∃ outbox₁ one, d.dispatchOne h world now outbox event.outboxId
          = .ok (outbox₁, one) ∧ (d.Takes world now event → d.Recordable h now event)) ∨
        (d.Takes world now event ∧ ¬ d.Recordable h now event ∧
          ∃ e, d.dispatchOne h world now outbox event.outboxId = .error e) := by
      by_cases htakes : d.Takes world now event
      · rcases dispatchOne_cases h hfind htakes with ⟨hrec, row, k, _, _, heq⟩ | ⟨hrec, herror⟩
        · exact Or.inl ⟨_, _, heq, fun _ => hrec⟩
        · exact Or.inr ⟨htakes, hrec, herror⟩
      · exact Or.inl ⟨_, _, dispatchOne_of_not hfind htakes, fun h => absurd h htakes⟩
    rcases hone with ⟨outbox₁, one, hok, hrec⟩ | ⟨htakes, hrec, e, herror⟩
    · have hframe : ∀ outboxId ∈ rest, outbox₁.find? outboxId = outbox.find? outboxId := by
        intro outboxId hmem
        refine dispatchOne_frame hfind hok fun heq => hnew ?_
        rw [← heq]
        exact hmem
      have hthere₁ : ∀ outboxId ∈ rest, (outbox₁.find? outboxId).isSome = true := by
        intro outboxId hmem
        rw [hframe outboxId hmem]
        exact hthere outboxId (List.mem_cons_of_mem _ hmem)
      have hrest : d.AllRecordable h world now (event.outboxId :: rest) outbox ↔
          d.AllRecordable h world now rest outbox₁ := by
        constructor
        · intro hall event' hmem hfind' htakes
          rw [hframe _ hmem] at hfind'
          exact hall event' (List.mem_cons_of_mem _ hmem) hfind' htakes
        · intro hall event' hmem hfind' htakes
          rcases List.mem_cons.mp hmem with hsame | hmem'
          · rw [hsame, hfind] at hfind'
            cases hfind'
            exact hrec htakes
          · rw [← hframe _ hmem'] at hfind'
            exact hall event' hmem' hfind' htakes
      have hloop : d.dispatchEach h world now (event.outboxId :: rest) outbox delivered
          = d.dispatchEach h world now rest outbox₁ (delivered + one) := by
        rw [dispatchEach, hok]
      rw [hrest, hloop]
      -- the rest, by induction, from the table without a change to its rows
      rcases dispatchEach_cases d h world now rest outbox₁ (delivered + one) hnodup' hthere₁ with
        ⟨hall, outbox', count, heq, hdispatched⟩ | hfails
      · exact Or.inl ⟨hall, outbox', count, heq, hdispatched.cons hfind hnew hok⟩
      · exact Or.inr hfails
    · refine Or.inr ⟨fun hall => hrec (hall event List.mem_cons_self hfind htakes), e, ?_⟩
      rw [dispatchEach, herror]

theorem mem_candidateIds (d : Dispatcher) (now : Time) {outbox : OutboxTable}
    (hmem : event ∈ outbox.rows) :
    event.outboxId ∈ d.candidateIds now outbox ↔ d.Due now event := by
  unfold candidateIds
  rw [List.mem_map]
  constructor
  · rintro ⟨event', hmem', hid⟩
    obtain ⟨hrow, hdue⟩ := List.mem_filter.mp hmem'
    rw [List.inj_on_of_nodup_map outbox.nodup hrow hmem hid] at hdue
    exact of_decide_eq_true hdue
  · exact fun hdue => ⟨event, List.mem_filter.mpr ⟨hmem, decide_eq_true hdue⟩, rfl⟩

theorem candidateIds_nodup (d : Dispatcher) (now : Time) (outbox : OutboxTable) :
    (d.candidateIds now outbox).Nodup :=
  outbox.nodup.sublist (List.filter_sublist.map _)

theorem isSome_of_candidate {outboxId : String} (hmem : outboxId ∈ d.candidateIds now outbox) :
    (outbox.find? outboxId).isSome = true := by
  obtain ⟨event, hrow, rfl⟩ := List.mem_map.mp hmem
  rw [Table.find?_of_mem (List.mem_filter.mp hrow).1]
  rfl

/-- **When a batch is dispatched rightly**: whatever the handlers do, no
exception leaves the dispatcher and every event of the batch is recorded, as
delivered, for a next attempt within 300 seconds or as a dead letter, exactly
if each header on a failure before the last attempt can be read. -/
theorem dispatch_robust_iff (d : Dispatcher) (h : HeaderReader) (world : BatchWorld) (now : Time)
    (outbox : OutboxTable) :
    d.Robust h world now outbox ↔
      ∀ event, d.Claimed world now outbox event → d.Recordable h now event := by
  have hcond : d.AllRecordable h world now (d.candidateIds now outbox) outbox ↔
      ∀ event, d.Claimed world now outbox event → d.Recordable h now event := by
    constructor
    · rintro hall event ⟨hmem, hdue, htakes⟩
      exact hall event ((mem_candidateIds d now hmem).mpr hdue) (Table.find?_of_mem hmem) htakes
    · intro hall event hid hfind htakes
      have hmem := Table.mem_of_find? hfind
      exact hall event ⟨hmem, (mem_candidateIds d now hmem).mp hid, htakes⟩
  rw [← hcond]
  rcases dispatchEach_cases d h world now (d.candidateIds now outbox) outbox 0
      (candidateIds_nodup d now outbox) (fun _ hmem => isSome_of_candidate hmem) with
    ⟨hall, outbox', count, heq, hdone⟩ | ⟨hnot, e, herror⟩
  · refine iff_of_true ⟨outbox', count, heq, ?_, ?_⟩ hall
    · rintro event ⟨hmem, hdue, htakes⟩
      exact hdone.taken event ((mem_candidateIds d now hmem).mpr hdue) (Table.find?_of_mem hmem)
        htakes
    · intro event hmem hno
      have hfind := Table.find?_of_mem hmem
      by_cases hid : event.outboxId ∈ d.candidateIds now outbox
      · exact hdone.left event hid hfind
          fun htakes => hno ⟨hmem, (mem_candidateIds d now hmem).mp hid, htakes⟩
      · rw [hdone.others _ hid]
        exact hfind
  · refine iff_of_false ?_ hnot
    rintro ⟨outbox', count, heq, _⟩
    cases herror.symm.trans heq

end Dispatcher

/-! ## A delay without end -/

/-- ASCII, and no dates. -/
def asciiReader : HeaderReader :=
  { isSpace := Char.isWhitespace
    decimal := fun c => if c.isDigit = true then some (c.toNat - '0'.toNat) else none
    parsedateToDatetime := fun _ => .error .valueError }

example : (headerDelay asciiReader 0 1 " 1.5e2 ").toOption = some 150 := by decide +kernel

/-- A notification to deliver, then a callback whose receiver answers with
`Retry-After: inf`. -/
def throttledOutbox : OutboxTable :=
  ⟨[{ outboxId := "dispatch-1", eventType := .runDispatch, aggregateId := "run-1", payload := [] },
    { outboxId := "callback-1", eventType := .callback, aggregateId := "run-1", payload := [] }],
    by decide⟩

def throttledDispatcher : Dispatcher :=
  { notifyRun := fun _ => .ok ()
    callbackSender := some (fun _ => .error (.httpStatus (some "inf"))) }

/-- The exception leaves the dispatcher, and the notification that was
delivered before is not recorded. -/
theorem infinite_delay_raises :
    throttledDispatcher.dispatchPending asciiReader ⟨fun _ => false, fun _ => 0⟩ 0 throttledOutbox
        = .error .overflowError ∧
    ¬ throttledDispatcher.Robust asciiReader ⟨fun _ => false, fun _ => 0⟩ 0 throttledOutbox := by
  have hraises : throttledDispatcher.dispatchPending asciiReader ⟨fun _ => false, fun _ => 0⟩ 0
      throttledOutbox = .error .overflowError := by rfl
  refine ⟨hraises, ?_⟩
  rintro ⟨outbox', delivered, hok, _⟩
  cases hraises.symm.trans hok

end AgentRuntime
