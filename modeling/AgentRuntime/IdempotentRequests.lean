import AgentRuntime.Idempotency

/-!
# What a key is worth

A record answers its key for as long as it lasts, and what is committed
under a key is never committed twice within that time: a commit that finds
the key taken fails as a whole. That much holds for all requests
(`Serves`, but for its last field).

A key whose record has lapsed is another matter. The lookup deletes the
record, but an endpoint that looks up in a session of its own closes that
session and loses the deletion, and its commit then meets the old record.
Such a request is served only where the maintenance has deleted the record
before the commit (`Unblocked`); the endpoints with one session always are
(`requests_served_iff`).
-/

namespace AgentRuntime

open Keyed Runs Interleave

variable {σ ρ : Type} {purged : σ → String → Bool}

/-- The record a request has found lapsed, and the effects under its key by
then. -/
def RequestPhase.pending : RequestPhase σ ρ → Option (Option Nat × Nat)
  | .executing found since => some (found, since)
  | .storing found since _ _ _ => some (found, since)
  | _ => none

namespace Api

/-- What a statement of a request owes it. -/
structure Serves (purged : σ → String → Bool) (s : Api σ ρ) (c : RequestCall σ ρ) : Prop where
  replays : c.phase = .entered → ∀ record, s.records.find? c.request.key = some record →
    ¬ IdempotencyService.Lapsed (purged s.app) s.clock record →
    record.requestHash = c.request.requestHash →
    s.exec purged c = (s, { c with phase := .replayed record.responseJson })
  conflicts : c.phase = .entered → ∀ record, s.records.find? c.request.key = some record →
    ¬ IdempotencyService.Lapsed (purged s.app) s.clock record →
    record.requestHash ≠ c.request.requestHash →
    s.exec purged c = (s, { c with phase := .conflict })
  rests : ∀ response, c.phase = .replayed response ∨ c.phase = .conflict →
    s.exec purged c = (s, c)
  once : (s.exec purged c).1.effects.Pairwise fun newer older =>
    newer.key = older.key → older.expiresAt < newer.at_
  executes : c.phase = .entered → (∀ record, s.records.find? c.request.key = some record →
      IdempotencyService.Lapsed (purged s.app) s.clock record) →
    ∃ found, s.exec purged c =
      (s, { c with phase := .executing found (s.effectsOf c.request.key) })
  handles : ∀ found since update response resourceId, c.phase = .executing found since →
    c.request.handler s.app = some (update, response, resourceId) →
    s.exec purged c = (s, { c with phase := .storing found since update response resourceId })
  commits : ∀ found since update response resourceId,
    c.phase = .storing found since update response resourceId →
    s.effectsOf c.request.key = since →
    (s.exec purged c).2.phase = .committed response ∧ (s.exec purged c).1.app = update s.app ∧
      ∃ record, (s.exec purged c).1.records.find? c.request.key = some record ∧
        record.requestHash = c.request.requestHash ∧ record.responseJson = response ∧
        record.expiresAt = s.clock + days c.request.ttlDays

/-- A request that looked up in a session of its own does not commit while
the lapsed record it has found is still there. -/
def Unblocked (s : Api σ ρ) (c : RequestCall σ ρ) : Prop :=
  ∀ id since update response resourceId,
    c.phase = .storing (some id) since update response resourceId → c.request.ownSession = true →
    ∀ record, s.records.find? c.request.key = some record → record.id ≠ id

/-- A property of the statements of requests. -/
def OfRequest (P : Api σ ρ → RequestCall σ ρ → Prop) (s : Api σ ρ) : ApiCall σ ρ → Prop
  | .request c => P s c
  | _ => True

/-! ## The invariant -/

/-- Records have been drawn; an effect that has not expired is recorded; and
no effect was committed while another one of its key had not expired. -/
structure Recorded (s : Api σ ρ) : Prop where
  ids : ∀ k record, s.records.find? k = some record → record.id < s.drawn
  covered : ∀ e ∈ s.effects, e.expiresAt < s.clock ∨
    ∃ record, s.records.find? e.key = some record ∧ record.expiresAt = e.expiresAt
  once : s.effects.Pairwise fun newer older => newer.key = older.key → older.expiresAt < newer.at_

/-- What a request knows that has looked its key up. -/
structure Knows (s : Api σ ρ) (key : String × String × String) (found : Option Nat) (since : Nat) :
    Prop where
  drawn : ∀ id, found = some id → id < s.drawn
  lapsed : ∀ record, s.records.find? key = some record → found = some record.id →
    record.expiresAt < s.clock ∧ s.effectsOf key = since
  since_le : since ≤ s.effectsOf key
  only : s.effectsOf key = since → ∀ record, s.records.find? key = some record →
    found = some record.id

def KnowsRequest (s : Api σ ρ) (c : RequestCall σ ρ) : Prop :=
  ∀ found since, c.phase.pending = some (found, since) → Knows s c.request.key found since

/-- What others may do meanwhile: a record they leave is an old one, or a
new one with an effect. -/
structure Passes (s s' : Api σ ρ) : Prop where
  clock : s.clock ≤ s'.clock
  drawn : s.drawn ≤ s'.drawn
  effects : ∀ k, s.effectsOf k ≤ s'.effectsOf k
  records : ∀ k record, s'.records.find? k = some record →
    (s.records.find? k = some record ∧ s'.effectsOf k = s.effectsOf k) ∨
      (s.drawn ≤ record.id ∧ s.effectsOf k < s'.effectsOf k)

theorem Knows.passes {s s' : Api σ ρ} {key : String × String × String} {found : Option Nat}
    {since : Nat} (h : Knows s key found since) (hpass : Passes s s') :
    Knows s' key found since where
  drawn id hid := Nat.lt_of_lt_of_le (h.drawn id hid) hpass.drawn
  lapsed record hrecord hfound := by
    rcases hpass.records key record hrecord with ⟨hold, hsame⟩ | ⟨hnew, -⟩
    · obtain ⟨hexpired, hsince⟩ := h.lapsed record hold hfound
      exact ⟨Nat.lt_of_lt_of_le hexpired hpass.clock, hsame.trans hsince⟩
    · have := h.drawn _ hfound
      omega
  since_le := Nat.le_trans h.since_le (hpass.effects key)
  only hsince record hrecord := by
    have hle := h.since_le
    have hmono := hpass.effects key
    rcases hpass.records key record hrecord with ⟨hold, hsame⟩ | ⟨-, hlt⟩
    · exact h.only (by omega) record hold
    · omega

/-- The same records and effects. -/
theorem passes_of_same {s s' : Api σ ρ} (hclock : s.clock ≤ s'.clock)
    (hrecords : s'.records = s.records) (hdrawn : s'.drawn = s.drawn)
    (heffects : s'.effects = s.effects) : Passes s s' := by
  have hcount : ∀ k, s'.effectsOf k = s.effectsOf k := fun k => by
    unfold effectsOf
    rw [heffects]
  exact ⟨hclock, Nat.le_of_eq hdrawn.symm, fun k => Nat.le_of_eq (hcount k).symm,
    fun k record h => Or.inl ⟨hrecords ▸ h, hcount k⟩⟩

theorem Recorded.of_same {s s' : Api σ ρ} (h : Recorded s) (hclock : s.clock ≤ s'.clock)
    (hrecords : s'.records = s.records) (hdrawn : s'.drawn = s.drawn)
    (heffects : s'.effects = s.effects) : Recorded s' where
  ids k record hrecord := hdrawn ▸ h.ids k record (hrecords ▸ hrecord)
  covered e he := by
    rw [hrecords]
    exact (h.covered e (heffects ▸ he)).imp_left fun hlt => Nat.lt_of_lt_of_le hlt hclock
  once := heffects ▸ h.once

/-! ## The commit -/

/-- What the committing session sees of its key. -/
theorem find?_visible (s : Api σ ρ) (request : ApiRequest σ ρ) (found : Option Nat)
    (k : String × String × String) :
    (s.visible request found).find? k =
      if k = request.key ∧ request.ownSession = false then
        (s.records.find? k).filter (fun record => decide (found ≠ some record.id))
      else s.records.find? k := by
  unfold visible
  cases hown : request.ownSession with
  | true => simp
  | false =>
    rw [if_neg Bool.false_ne_true]
    by_cases hk : k = request.key
    · subst hk
      rw [if_pos ⟨rfl, rfl⟩]
      rcases s.records.deleteWhere_cases request.key (fun record => found = some record.id) with
        ⟨record, hfind, hfound, heq⟩ | ⟨hnot, heq⟩
      · rw [heq, Table.find?_erase, if_pos rfl, hfind]
        exact (Option.filter_some_neg (by simpa using hfound)).symm
      · rw [heq]
        cases hfind : s.records.find? request.key with
        | none => rfl
        | some record =>
          have hne : found ≠ some record.id := hnot record hfind
          exact (Option.filter_some_pos (by simpa using hne)).symm
    · rw [if_neg fun h => hk h.1]
      exact s.records.find?_deleteWhere_ne hk _

/-- A commit that succeeds. -/
structure Committed (s : Api σ ρ) (request : ApiRequest σ ρ) (found : Option Nat)
    (update : σ → σ) (response : ρ) (resourceId : String) (s' : Api σ ρ) : Prop where
  free : (s.visible request found).find? request.key = none
  app : s'.app = update s.app
  clock : s'.clock = s.clock
  drawn : s'.drawn = s.drawn + 1
  effects : s'.effects = ⟨request.key, s.clock, s.clock + days request.ttlDays⟩ :: s.effects
  records : ∀ k, s'.records.find? k =
    if k = request.key then some (s.recordOf request response resourceId)
    else s.records.find? k

theorem commit_cases (s : Api σ ρ) (request : ApiRequest σ ρ) (found : Option Nat)
    (update : σ → σ) (response : ρ) (resourceId : String) :
    ((s.commit request found update response resourceId).2 = .committed response ∧
      Committed s request found update response resourceId
        (s.commit request found update response resourceId).1) ∨
    (s.commit request found update response resourceId = (s, .integrityError) ∧
      ∃ record, (s.visible request found).find? request.key = some record) := by
  unfold commit
  cases hins : (s.visible request found).insert? (s.recordOf request response resourceId) with
  | none =>
    refine Or.inr ⟨rfl, ?_⟩
    rcases Option.eq_none_or_eq_some ((s.visible request found).find? request.key) with
      hnone | hsome
    · obtain ⟨records, hsome⟩ := Table.exists_insert?
        (a := s.recordOf request response resourceId) hnone
      cases hins.symm.trans hsome
    · exact hsome
  | some records =>
    have hfree : (s.visible request found).find? request.key = none :=
      (Table.insert?_eq_some.mp hins).1
    refine Or.inl ⟨rfl, hfree, rfl, rfl, rfl, rfl, fun k => ?_⟩
    refine (Table.find?_insert? hins k).trans ?_
    show (if k = request.key then _ else _) = _
    split
    · rfl
    next hk => rw [find?_visible, if_neg fun h => hk h.1]

/-- Where the key is free for the session, the record that is there is the
lapsed one it deletes. -/
theorem Committed.deleted {s s' : Api σ ρ} {request : ApiRequest σ ρ} {found : Option Nat}
    {update : σ → σ} {response : ρ} {resourceId : String}
    (h : Committed s request found update response resourceId s') {record : IdempotencyRecord ρ}
    (hrecord : s.records.find? request.key = some record) : found = some record.id := by
  have hfree := h.free
  rw [find?_visible] at hfree
  split at hfree
  · rw [hrecord] at hfree
    by_contra hne
    rw [Option.filter_some_pos (by simpa using hne)] at hfree
    cases hfree
  · cases hrecord.symm.trans hfree

theorem Committed.effectsOf {s s' : Api σ ρ} {request : ApiRequest σ ρ} {found : Option Nat}
    {update : σ → σ} {response : ρ} {resourceId : String}
    (h : Committed s request found update response resourceId s') (k : String × String × String) :
    s'.effectsOf k = s.effectsOf k + (if request.key = k then 1 else 0) := by
  unfold Api.effectsOf
  rw [h.effects, List.countP_cons]
  simp

theorem Committed.passes {s s' : Api σ ρ} {request : ApiRequest σ ρ} {found : Option Nat}
    {update : σ → σ} {response : ρ} {resourceId : String}
    (h : Committed s request found update response resourceId s') : Passes s s' where
  clock := Nat.le_of_eq h.clock.symm
  drawn := h.drawn ▸ Nat.le_succ _
  effects k := by
    rw [h.effectsOf]
    exact Nat.le_add_right _ _
  records k record hrecord := by
    rw [h.records] at hrecord
    rw [h.effectsOf]
    split at hrecord
    next hk =>
      cases hrecord
      exact Or.inr ⟨Nat.le_refl _, by rw [if_pos hk.symm]; omega⟩
    next hk => exact Or.inl ⟨hrecord, by rw [if_neg fun he => hk he.symm]; rfl⟩

/-- An effect that is committed finds every earlier one of its key
expired. -/
theorem Committed.recorded {s s' : Api σ ρ} {request : ApiRequest σ ρ} {found : Option Nat}
    {since : Nat} {update : σ → σ} {response : ρ} {resourceId : String}
    (h : Committed s request found update response resourceId s') (hs : Recorded s)
    (hknows : Knows s request.key found since) : Recorded s' := by
  have hexpired : ∀ e ∈ s.effects, e.key = request.key → e.expiresAt < s.clock := by
    intro e he hkey
    rcases hs.covered e he with hlt | ⟨record, hrecord, hexpires⟩
    · exact hlt
    · rw [hkey] at hrecord
      rw [← hexpires]
      exact (hknows.lapsed record hrecord (h.deleted hrecord)).1
  refine ⟨fun k record hrecord => ?_, fun e he => ?_, ?_⟩
  · rw [h.records] at hrecord
    rw [h.drawn]
    split at hrecord
    · cases hrecord
      exact Nat.lt_succ_self _
    · exact Nat.lt_succ_of_lt (hs.ids k record hrecord)
  · rw [h.effects] at he
    rcases List.mem_cons.mp he with rfl | hold
    · exact Or.inr ⟨_, (h.records _).trans (if_pos rfl), rfl⟩
    · rw [h.clock, h.records]
      by_cases hkey : e.key = request.key
      · exact Or.inl (hexpired e hold hkey)
      · rw [if_neg hkey]
        exact hs.covered e hold
  · rw [h.effects]
    exact List.pairwise_cons.mpr ⟨fun e he hkey => hexpired e he hkey.symm, hs.once⟩

/-! ## The other statements -/

section

variable {s : Api σ ρ} {request : ApiRequest σ ρ} {record : IdempotencyRecord ρ}

theorem lookup_absent (h : s.records.find? request.key = none) :
    s.lookup purged request = .executing none (s.effectsOf request.key) := by
  unfold lookup IdempotencyService.replay
  rw [h]

theorem lookup_lapsed (h : s.records.find? request.key = some record)
    (hlapsed : IdempotencyService.Lapsed (purged s.app) s.clock record) :
    s.lookup purged request = .executing (some record.id) (s.effectsOf request.key) := by
  unfold lookup IdempotencyService.replay
  rw [h]
  dsimp only
  rw [if_pos hlapsed]

theorem lookup_conflict (h : s.records.find? request.key = some record)
    (hlive : ¬ IdempotencyService.Lapsed (purged s.app) s.clock record)
    (hhash : record.requestHash ≠ request.requestHash) :
    s.lookup purged request = .conflict := by
  unfold lookup IdempotencyService.replay
  rw [h]
  dsimp only
  rw [if_neg hlive, if_pos hhash]

theorem lookup_stored (h : s.records.find? request.key = some record)
    (hlive : ¬ IdempotencyService.Lapsed (purged s.app) s.clock record)
    (hhash : record.requestHash = request.requestHash) :
    s.lookup purged request = .replayed record.responseJson := by
  unfold lookup IdempotencyService.replay
  rw [h]
  dsimp only
  rw [if_neg hlive, if_neg fun hne => hne hhash]

/-- What a lookup finds, for the record. -/
theorem lookup_knows (hs : Recorded s) {found : Option Nat} {since : Nat}
    (h : (s.lookup purged request).pending = some (found, since)) :
    Knows s request.key found since := by
  cases hfind : s.records.find? request.key with
  | none =>
    rw [lookup_absent hfind] at h
    cases h
    refine ⟨fun _ hid => (by cases hid), fun record hrecord => ?_, Nat.le_refl _,
      fun _ record hrecord => ?_⟩
    · cases hfind.symm.trans hrecord
    · cases hfind.symm.trans hrecord
  | some record =>
    by_cases hlapsed : IdempotencyService.Lapsed (purged s.app) s.clock record
    · rw [lookup_lapsed hfind hlapsed] at h
      cases h
      refine ⟨fun id hid => ?_, fun record' hrecord _ => ?_, Nat.le_refl _,
        fun _ record' hrecord => ?_⟩
      · cases hid
        exact hs.ids _ record hfind
      · cases hfind.symm.trans hrecord
        exact ⟨hlapsed.1, rfl⟩
      · cases hfind.symm.trans hrecord
        rfl
    · by_cases hhash : record.requestHash = request.requestHash
      · rw [lookup_stored hfind hlapsed hhash] at h
        cases h
      · rw [lookup_conflict hfind hlapsed hhash] at h
        cases h

end

theorem exec_storing {s : Api σ ρ} {c : RequestCall σ ρ} {found : Option Nat} {since : Nat}
    {update : σ → σ} {response : ρ} {resourceId : String}
    (h : c.phase = .storing found since update response resourceId) :
    s.exec purged c = ((s.commit c.request found update response resourceId).1,
      { c with phase := (s.commit c.request found update response resourceId).2 }) := by
  unfold exec
  rw [h]

/-- One statement of a request keeps what is recorded, and passes by the
others. -/
theorem exec_recorded (purged : σ → String → Bool) {s : Api σ ρ} {c : RequestCall σ ρ}
    (hs : Recorded s) (hknows : KnowsRequest s c) :
    Recorded (s.exec purged c).1 ∧ Passes s (s.exec purged c).1 ∧
      KnowsRequest (s.exec purged c).1 (s.exec purged c).2 := by
  have hstay : Passes s s := passes_of_same (Nat.le_refl _) rfl rfl rfl
  cases hphase : c.phase with
  | entered =>
    unfold exec
    rw [hphase]
    exact ⟨hs, hstay, fun found since h => lookup_knows hs h⟩
  | executing found since =>
    have hc := hknows found since (by rw [hphase]; rfl)
    unfold exec
    rw [hphase]
    refine ⟨hs, hstay, fun found' since' h => ?_⟩
    dsimp only [handle] at h
    split at h
    · cases h
    · cases h
      exact hc
  | storing found since update response resourceId =>
    have hc := hknows found since (by rw [hphase]; rfl)
    rw [exec_storing hphase]
    rcases s.commit_cases c.request found update response resourceId with
      ⟨hphase', hcommitted⟩ | ⟨heq, -⟩
    · refine ⟨hcommitted.recorded hs hc, hcommitted.passes, fun _ _ h => ?_⟩
      dsimp only at h
      rw [hphase'] at h
      cases h
    · rw [heq]
      exact ⟨hs, hstay, fun _ _ h => by cases h⟩
  | replayed response =>
    unfold exec
    rw [hphase]
    exact ⟨hs, hstay, hknows⟩
  | conflict =>
    unfold exec
    rw [hphase]
    exact ⟨hs, hstay, hknows⟩
  | rejected =>
    unfold exec
    rw [hphase]
    exact ⟨hs, hstay, hknows⟩
  | integrityError =>
    unfold exec
    rw [hphase]
    exact ⟨hs, hstay, hknows⟩
  | committed response =>
    unfold exec
    rw [hphase]
    exact ⟨hs, hstay, hknows⟩

theorem find?_cleanupExpired {revoked : String → Bool} {cutoff : Time} {records : RecordTable ρ}
    {k : String × String × String} {record : IdempotencyRecord ρ} :
    (IdempotencyService.cleanupExpired revoked cutoff records).find? k = some record ↔
      records.find? k = some record ∧ ¬ IdempotencyService.Lapsed revoked cutoff record := by
  unfold IdempotencyService.cleanupExpired
  rw [Table.find?_filter, Option.filter_eq_some_iff]
  simp

/-- The maintenance deletes records of effects that have expired. -/
theorem cleanup_recorded {s : Api σ ρ} (hs : Recorded s) (revoked : String → Bool) (age : Time) :
    Recorded { s with
      records := IdempotencyService.cleanupExpired revoked (s.clock - age) s.records } ∧
    Passes s { s with
      records := IdempotencyService.cleanupExpired revoked (s.clock - age) s.records } := by
  refine ⟨⟨fun k record h => hs.ids k record (find?_cleanupExpired.mp h).1, fun e he => ?_, hs.once⟩,
    Nat.le_refl _, Nat.le_refl _, fun _ => Nat.le_refl _,
    fun k record h => Or.inl ⟨(find?_cleanupExpired.mp h).1, rfl⟩⟩
  rcases hs.covered e he with hlt | ⟨record, hrecord, hexpires⟩
  · exact Or.inl hlt
  · by_cases hlapsed : IdempotencyService.Lapsed revoked (s.clock - age) record
    · have hlt := hlapsed.1
      exact Or.inl (by lia)
    · exact Or.inr ⟨record, find?_cleanupExpired.mpr ⟨hrecord, hlapsed⟩, hexpires⟩

theorem outline (purged : σ → String → Bool) :
    Outline (program purged) (fun _ _ => True) (Recorded (ρ := ρ)) (OfRequest KnowsRequest) where
  wait s t h := h.of_same (Nat.le_add_right _ _) rfl rfl rfl
  waits s t c h := by
    cases c with
    | request c =>
      exact fun found since hp => (h found since hp).passes
        (passes_of_same (Nat.le_add_right _ _) rfl rfl rfl)
    | _ => trivial
  call s a c _ hcall := by
    cases a with
    | request request =>
      cases hcall
      exact fun _ _ hp => by cases hp
    | _ =>
      cases hcall
      trivial
  exec s c hs hc _ := by
    cases c with
    | request c =>
      obtain ⟨hs', -, hc'⟩ := exec_recorded purged hs hc
      exact ⟨hs', hc'⟩
    | cleanup age => exact ⟨(cleanup_recorded hs _ age).1, trivial⟩
    | other update => exact ⟨hs.of_same (Nat.le_refl _) rfl rfl rfl, trivial⟩
    | done => exact ⟨hs, trivial⟩
  spares s c d hs hc _ hd := by
    have hpass : Passes s ((program purged).exec s c).1 := by
      cases c with
      | request c => exact (exec_recorded purged hs hc).2.1
      | cleanup age => exact (cleanup_recorded hs _ age).2
      | other update => exact passes_of_same (Nat.le_refl _) rfl rfl rfl
      | done => exact passes_of_same (Nat.le_refl _) rfl rfl rfl
    cases d with
    | request d => exact fun found since hp => (hd found since hp).passes hpass
    | _ => trivial

/-! ## The statements of a request -/

theorem exec_entered {s : Api σ ρ} {c : RequestCall σ ρ} (h : c.phase = .entered) :
    s.exec purged c = (s, { c with phase := s.lookup purged c.request }) := by
  unfold exec
  rw [h]

/-- Where nothing else was committed under its key, a request that is not
blocked commits. -/
theorem commits_of_unblocked {s : Api σ ρ} {c : RequestCall σ ρ} (hknows : KnowsRequest s c)
    (hun : Unblocked s c) {found : Option Nat} {since : Nat} {update : σ → σ} {response : ρ}
    {resourceId : String} (hphase : c.phase = .storing found since update response resourceId)
    (hsince : s.effectsOf c.request.key = since) :
    (s.commit c.request found update response resourceId).2 = .committed response ∧
      Committed s c.request found update response resourceId
        (s.commit c.request found update response resourceId).1 := by
  have hc := hknows found since (by rw [hphase]; rfl)
  rcases s.commit_cases c.request found update response resourceId with
    hcommitted | ⟨-, record, hrecord⟩
  · exact hcommitted
  · -- what the session still sees of its key is the record it has found
    exfalso
    rw [find?_visible] at hrecord
    split at hrecord
    · obtain ⟨hold, hne⟩ := Option.filter_eq_some_iff.mp hrecord
      exact of_decide_eq_true hne (hc.only hsince record hold)
    next hown =>
      have hfound := hc.only hsince record hrecord
      rw [hfound] at hphase
      refine hun _ _ _ _ _ hphase ?_ record hrecord rfl
      simpa using fun hfalse => hown ⟨rfl, hfalse⟩

/-- A request is served by a statement that is not blocked, and by no
other. -/
theorem serves_iff {s : Api σ ρ} {c : RequestCall σ ρ} (hs : Recorded s)
    (hknows : KnowsRequest s c) : Serves purged s c ↔ Unblocked s c := by
  constructor
  · intro h id since update response resourceId hphase hown record hrecord hid
    have hc := hknows (some id) since (by rw [hphase]; rfl)
    obtain ⟨-, hsince⟩ := hc.lapsed record hrecord (by rw [hid])
    have hcommits := (h.commits _ _ _ _ _ hphase hsince).1
    rw [exec_storing hphase] at hcommits
    rcases s.commit_cases c.request (some id) update response resourceId with
      ⟨-, hcommitted⟩ | ⟨heq, -⟩
    · have hfree := hcommitted.free
      rw [find?_visible, if_neg (by rw [hown]; simp)] at hfree
      cases hrecord.symm.trans hfree
    · dsimp only at hcommits
      rw [heq] at hcommits
      cases hcommits
  · intro hun
    refine ⟨fun hphase record hrecord hlive hhash => ?_, fun hphase record hrecord hlive hhash => ?_,
      fun response hphase => ?_, (exec_recorded purged hs hknows).1.once, fun hphase hall => ?_,
      fun found since update response resourceId hphase hhandler => ?_,
      fun found since update response resourceId hphase hsince => ?_⟩
    · rw [exec_entered hphase, lookup_stored hrecord hlive hhash]
    · rw [exec_entered hphase, lookup_conflict hrecord hlive hhash]
    · unfold exec
      rcases hphase with hphase | hphase
      · rw [hphase]
      · rw [hphase]
    · rw [exec_entered hphase]
      cases hfind : s.records.find? c.request.key with
      | none => exact ⟨none, by rw [lookup_absent hfind]⟩
      | some record => exact ⟨some record.id, by rw [lookup_lapsed hfind (hall record hfind)]⟩
    · unfold exec
      rw [hphase]
      unfold handle
      rw [hhandler]
    · rw [exec_storing hphase]
      obtain ⟨hcommitted, hstate⟩ := commits_of_unblocked hknows hun hphase hsince
      exact ⟨hcommitted, hstate.app, _, (hstate.records _).trans (if_pos rfl), rfl, rfl, rfl⟩

/-- Before any request. -/
def fresh (app : σ) : World (Api σ ρ) (ApiCall σ ρ) := ⟨{ app := app }, []⟩

/-- What a run asserts of its worlds, it asserts of its statements. -/
theorem meets_iff {w : World (Api σ ρ) (ApiCall σ ρ)} {e : Interleave.Event (ApiOp σ ρ)}
    (h : Asserted Recorded (OfRequest KnowsRequest) w) :
    (program purged).Meets (OfRequest (Serves purged)) w e ↔
      (program purged).Meets (OfRequest Unblocked) w e := by
  unfold Program.Meets
  cases e.move with
  | call op => rfl
  | advance i =>
    refine forall₂_congr fun c hc => ?_
    have hmem : c ∈ w.calls := List.mem_of_getElem? hc
    cases c with
    | request c =>
      exact serves_iff ((outline purged).wait _ _ h.1)
        ((outline purged).waits _ e.elapsed (.request c) (h.2 _ hmem))
    | _ => rfl

/-- In every run, each statement serves its request exactly where none is
blocked by a lapsed record that its own lookup has deleted in vain. -/
theorem requests_served_iff (purged : σ → String → Bool) (app : σ)
    (es : List (Interleave.Event (ApiOp σ ρ))) :
    Along (program purged).step ((program purged).Meets (OfRequest (Serves purged))) (fresh app) es ↔
      Along (program purged).step ((program purged).Meets (OfRequest Unblocked)) (fresh app) es := by
  have hinit : Asserted (Recorded (ρ := ρ)) (OfRequest KnowsRequest) (fresh app) :=
    ⟨⟨fun _ _ h => (by cases h), fun _ he => (by cases he), List.Pairwise.nil⟩,
      fun _ hc => (by cases hc)⟩
  refine along_congr (M := fun w _ => Asserted Recorded (OfRequest KnowsRequest) w)
    (fun _ _ h => meets_iff h) es (fresh app) ?_
  exact along_of_inv (fun w e h => (outline purged).step w e h (meets_trivial w e))
    (fun _ _ h => h) es (fresh app) hinit

/-! ## A key that comes back -/

/-- A creation; the application counts its runs. -/
def createRequest : ApiRequest Nat String :=
  { clientId := "couple-diary"
    scope := "create"
    idempotencyKey := "key-1"
    requestHash := "sha256:1"
    ownSession := true
    handler := fun _ => some (fun runs => runs + 1, "pending", "run-1") }

/-- The same request, and once more eight days later. -/
def createdTwice : List (Interleave.Event (ApiOp Nat String)) :=
  [⟨0, .call (.request createRequest)⟩, ⟨0, .advance 0⟩, ⟨0, .advance 0⟩, ⟨0, .advance 0⟩,
   ⟨days 8, .call (.request createRequest)⟩, ⟨0, .advance 1⟩, ⟨0, .advance 1⟩]

/-- The second one is executed, and cannot be stored. -/
theorem lapsed_key_refused : ∃ es : List (Interleave.Event (ApiOp Nat String)),
    ¬ Along (program fun _ _ => false).step
      ((program fun _ _ => false).Meets (OfRequest (Serves fun _ _ => false))) (fresh 0) es := by
  refine ⟨createdTwice ++ [⟨0, .advance 1⟩], fun h => ?_⟩
  obtain ⟨-, hlast, -⟩ := (along_append _ _ _).mp h
  have hserves := hlast (.request {
    request := createRequest
    phase := .storing (some 0) 1 (fun runs => runs + 1) "pending" "run-1" }) rfl
  have hcommitted := (Serves.commits hserves _ _ _ _ _ rfl rfl).1
  cases hcommitted

end Api

end AgentRuntime
