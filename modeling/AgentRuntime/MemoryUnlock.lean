import AgentRuntime.MemoryApi

/-!
# What the PIN protects

`served_unlocked`: whatever the users and the backend have done before, a
request about an archive that is not refused is one of its owner, and it shows
the credential the owner's last verification has issued, in a session of the
same digest, less than fifteen minutes ago; and that verification had the PIN
of the owner's setup, as far as `scrypt` tells. The record of a user is the
end of such a chain (`Chain`).

`wrong_pins_not_counted` is about the cooldown. The service counts wrong PINs
and locks the record at the fifth. The endpoint rolls back what it refuses, the
count with it: no record ever counts to one, no request is refused for a
cooldown, and a right PIN is accepted after any number of wrong ones.

`strangers_change_nothing`: what others request is not seen in any answer.
-/

namespace AgentRuntime

open Keyed Runs

section Chain

variable {text : PyText} {hashes : Hashes}

/-- The state after a run from the start. -/
abbrev MemoryApi.after (text : PyText) (hashes : Hashes) (es : List (Time × MemoryEvent)) :
    MemoryApi :=
  run (MemoryApi.step text hashes) {} es

/-! ## The chain behind a record -/

/-- The event is a verification of the user that issues a credential. -/
def Verifies (text : PyText) (hashes : Hashes) (userId : Int) (s : MemoryApi)
    (e : Time × MemoryEvent) : Prop :=
  ∃ who password credential, e.2 = .request (.verifyPassword who password credential) ∧
    who.userId = userId ∧
    s.answer text hashes e.1 (.verifyPassword who password credential) = .credential credential

/-- The user has set up a PIN with this salt and hash. -/
def SetUp (text : PyText) (hashes : Hashes) (es : List (Time × MemoryEvent)) (userId : Int)
    (salt passwordHash : String) : Prop :=
  ∃ before elapsed who password later,
    es = before ++ (elapsed, .request (.setupPassword who password salt)) :: later ∧
    who.userId = userId ∧ passwordHash = hashes.scrypt password salt ∧
    (MemoryApi.after text hashes before).answer text hashes elapsed
      (.setupPassword who password salt) = .configured

/-- The last verification of the user that issued a credential had a session
and a credential of these digests, and a PIN that hashes as the one set up. -/
def LastUnlock (text : PyText) (hashes : Hashes) (es : List (Time × MemoryEvent)) (userId : Int)
    (sessionDigest tokenDigest : String) (issuedAt : Time) : Prop :=
  ∃ before elapsed who password credential later salt,
    es = before ++ (elapsed, .request (.verifyPassword who password credential)) :: later ∧
    who.userId = userId ∧ hashes.sha256 who.sessionId = sessionDigest ∧
    hashes.sha256 credential = tokenDigest ∧
    issuedAt = (MemoryApi.after text hashes before).backend.now + elapsed ∧
    SetUp text hashes before userId salt (hashes.scrypt password salt) ∧
    (MemoryApi.after text hashes before).answer text hashes elapsed
      (.verifyPassword who password credential) = .credential credential ∧
    Along (MemoryApi.step text hashes) (fun s e => ¬ Verifies text hashes userId s e)
      (MemoryApi.after text hashes
        (before ++ [(elapsed, .request (.verifyPassword who password credential))])) later

/-- What is behind a record. -/
structure Chain (text : PyText) (hashes : Hashes) (es : List (Time × MemoryEvent))
    (record : MemoryPassword) : Prop where
  failedAttempts : record.failedAttempts = 0
  lockedUntil : record.lockedUntil = none
  setUp : SetUp text hashes es record.userId record.salt record.passwordHash
  unlocked : ∀ t ∈ record.unlockExpiresAt, ∃ sessionDigest tokenDigest issuedAt,
    record.unlockSessionDigest = some sessionDigest ∧
    record.unlockTokenDigest = some tokenDigest ∧ t = issuedAt + seconds (15 * 60) ∧
    LastUnlock text hashes es record.userId sessionDigest tokenDigest issuedAt

theorem SetUp.append {es fs : List (Time × MemoryEvent)} {userId : Int} {salt passwordHash : String}
    (h : SetUp text hashes es userId salt passwordHash) :
    SetUp text hashes (es ++ fs) userId salt passwordHash := by
  obtain ⟨before, elapsed, who, password, later, rfl, hrest⟩ := h
  exact ⟨before, elapsed, who, password, later ++ fs, by rw [List.append_assoc]; rfl, hrest⟩

/-- The last verification stays the last where the next event is none. -/
theorem LastUnlock.append {es : List (Time × MemoryEvent)} {e : Time × MemoryEvent} {userId : Int}
    {sessionDigest tokenDigest : String} {issuedAt : Time}
    (h : LastUnlock text hashes es userId sessionDigest tokenDigest issuedAt)
    (hnone : ¬ Verifies text hashes userId (MemoryApi.after text hashes es) e) :
    LastUnlock text hashes (es ++ [e]) userId sessionDigest tokenDigest issuedAt := by
  obtain ⟨before, elapsed, who, password, credential, later, salt, rfl, hwho, hsession, htoken, hat,
    hsetUp, hanswer, hlast⟩ := h
  refine ⟨before, elapsed, who, password, credential, later ++ [e], salt, ?_, hwho, hsession,
    htoken, hat, hsetUp, hanswer, ?_⟩
  · rw [List.append_assoc]
    rfl
  · rw [along_append]
    refine ⟨hlast, ?_, trivial⟩
    rw [List.append_cons, MemoryApi.after, run_append] at hnone
    exact hnone

theorem Chain.append {es : List (Time × MemoryEvent)} {e : Time × MemoryEvent}
    {record : MemoryPassword} (h : Chain text hashes es record)
    (hnone : ¬ Verifies text hashes record.userId (MemoryApi.after text hashes es) e) :
    Chain text hashes (es ++ [e]) record := by
  refine ⟨h.failedAttempts, h.lockedUntil, h.setUp.append, fun t ht => ?_⟩
  obtain ⟨sessionDigest, tokenDigest, issuedAt, hsession, htoken, hat, hlast⟩ := h.unlocked t ht
  exact ⟨sessionDigest, tokenDigest, issuedAt, hsession, htoken, hat, hlast.append hnone⟩

/-! ## What a step does to the passwords -/

theorem not_verifies {s : MemoryApi} {e : Time × MemoryEvent}
    (h : ∀ who password credential, e.2 ≠ .request (.verifyPassword who password credential))
    (userId : Int) : ¬ Verifies text hashes userId s e := by
  rintro ⟨who, password, credential, hevent, _⟩
  exact h who password credential hevent

variable (text hashes)

/-- A verification is answered with the credential and unlocks the record, or
it is refused and nothing is committed. -/
theorem MemoryApi.verifyPassword_cases (s : MemoryApi) (now : Time) (who : UserIdentity)
    (password credential : String) :
    (∃ record, s.passwords.find? who.userId = some record ∧
      (¬ ∃ t ∈ record.lockedUntil, now < t) ∧
      record.passwordHash = hashes.scrypt password record.salt ∧
      s.verifyPassword hashes now who password credential = (.credential credential, { s with
        passwords := s.passwords.put (record.unlock hashes who.sessionId credential now) })) ∨
    (s.verifyPassword hashes now who password credential).2 = s ∧
      (∀ c, (s.verifyPassword hashes now who password credential).1 ≠ .credential c) := by
  unfold MemoryApi.verifyPassword MemoryPasswordService.get
  cases hfind : s.passwords.find? who.userId with
  | none => exact .inr ⟨rfl, fun _ h => by cases h⟩
  | some record =>
    show _ ∨ _
    dsimp only [pure, Except.pure]
    unfold MemoryPasswordService.verify
    by_cases hlocked : ∃ t ∈ record.lockedUntil, now < t
    · rw [if_pos hlocked]
      exact .inr ⟨rfl, fun _ h => by cases h⟩
    · rw [if_neg hlocked]
      by_cases hpin : record.passwordHash = hashes.scrypt password record.salt
      · rw [if_neg fun h => h hpin]
        exact .inl ⟨record, rfl, hlocked, hpin, rfl⟩
      · rw [if_pos hpin]
        exact .inr ⟨rfl, fun _ h => by cases h⟩

/-- A setup adds a record, or it is refused and nothing is committed. -/
theorem MemoryApi.setupPassword_cases (s : MemoryApi) (now : Time) (who : UserIdentity)
    (password salt : String) :
    (∃ passwords, s.passwords.insert? {
        userId := who.userId
        salt := salt
        passwordHash := hashes.scrypt password salt } = some passwords ∧
      s.handle text hashes now (.setupPassword who password salt)
        = (.configured, { s with passwords := passwords })) ∨
    (s.handle text hashes now (.setupPassword who password salt)).2 = s := by
  unfold MemoryApi.handle
  dsimp only
  split
  · next passwords hdone =>
    obtain ⟨_, _, hinsert⟩ := bind_ok.mp hdone
    left
    split at hinsert
    · cases hinsert
    · next passwords' hinsert' =>
      cases hinsert
      exact ⟨_, hinsert', rfl⟩
  · exact .inr rfl
  · exact .inr rfl

/-- The other requests leave the passwords alone. -/
theorem MemoryApi.serve_passwords (s : MemoryApi) (now : Time) (identity : UserIdentity)
    (archive : MemoryArchive) (request : ArchiveRequest) :
    (s.serve now identity archive request).2.passwords = s.passwords := by
  cases request with
  | detail =>
    unfold MemoryApi.serve
    dsimp only
    split
    · rfl
    · rfl
  | delete =>
    unfold MemoryApi.serve
    dsimp only
    split
    · rfl
    · rfl
  | pin => rfl
  | unpin => rfl

/-- What a step does to the passwords. -/
inductive PasswordStep (text : PyText) (hashes : Hashes) (s : MemoryApi) (e : Time × MemoryEvent)
    (passwords : Table MemoryPassword.userId) : Prop
  | none (same : passwords = s.passwords) (quiet : ∀ userId, ¬ Verifies text hashes userId s e)
  | setUp (who : UserIdentity) (password salt : String)
      (event : e.2 = .request (.setupPassword who password salt))
      (answer : s.answer text hashes e.1 (.setupPassword who password salt) = .configured)
      (added : s.passwords.insert? {
        userId := who.userId
        salt := salt
        passwordHash := hashes.scrypt password salt } = some passwords)
  | verified (who : UserIdentity) (password credential : String) (record : MemoryPassword)
      (event : e.2 = .request (.verifyPassword who password credential))
      (answer : s.answer text hashes e.1 (.verifyPassword who password credential)
        = .credential credential)
      (found : s.passwords.find? who.userId = some record)
      (pin : record.passwordHash = hashes.scrypt password record.salt)
      (put : passwords = s.passwords.put
        (record.unlock hashes who.sessionId credential (s.backend.now + e.1)))

theorem MemoryApi.step_passwords (s : MemoryApi) (e : Time × MemoryEvent) :
    PasswordStep text hashes s e (s.step text hashes e).passwords := by
  obtain ⟨elapsed, event⟩ := e
  cases event with
  | op op => exact .none rfl (not_verifies fun _ _ _ h => by cases h)
  | request request =>
    cases request with
    | setupPassword who password salt =>
      rcases (s.wait elapsed).setupPassword_cases text hashes
        (s.backend.now + elapsed) who password salt with ⟨passwords, hinsert, hdone⟩ | hsame
      · refine .setUp who password salt rfl (congrArg Prod.fst hdone) ?_
        refine hinsert.trans (congrArg some ?_)
        exact (congrArg (fun r => r.2.passwords) hdone).symm
      · have hkept : ((s.wait elapsed).handle text hashes (s.backend.now + elapsed)
            (.setupPassword who password salt)).2.passwords = s.passwords := by
          rw [hsame]
          rfl
        exact .none hkept (not_verifies fun _ _ _ h => by cases h)
    | verifyPassword who password credential =>
      rcases (s.wait elapsed).verifyPassword_cases hashes (s.backend.now + elapsed) who
        password credential with ⟨record, hfind, _, hpin, hdone⟩ | ⟨hsame, hnot⟩
      · exact .verified who password credential record rfl (congrArg Prod.fst hdone) hfind hpin
          (congrArg (fun r => r.2.passwords) hdone)
      · have hkept : ((s.wait elapsed).verifyPassword hashes (s.backend.now + elapsed) who password
            credential).2.passwords = s.passwords := by
          rw [hsame]
          rfl
        refine .none hkept ?_
        rintro _ ⟨_, _, _, h, _, hanswer⟩
        cases h
        exact hnot _ hanswer
    | listArchives who => exact .none rfl (not_verifies fun _ _ _ h => by cases h)
    | archive who request archiveId unlockCredential =>
      refine .none ?_ (not_verifies fun _ _ _ h => by cases h)
      show ((s.wait elapsed).handle text hashes _ _).2.passwords = s.passwords
      unfold MemoryApi.handle
      dsimp only
      split
      · exact (s.wait elapsed).serve_passwords _ _ _ _
      · rfl

/-- Behind every record there is its chain. -/
theorem passwords_chain (es : List (Time × MemoryEvent)) :
    ∀ record ∈ (MemoryApi.after text hashes es).passwords.rows, Chain text hashes es record := by
  induction es using List.reverseRecOn with
  | nil => exact fun _ h => (nomatch h)
  | append_singleton es e ih =>
    intro record hrecord
    have hstep := (MemoryApi.after text hashes es).step_passwords text hashes e
    have hafter : MemoryApi.after text hashes (es ++ [e])
        = (MemoryApi.after text hashes es).step text hashes e := by
      rw [MemoryApi.after, run_append]
      rfl
    rw [hafter] at hrecord
    obtain ⟨elapsed, event⟩ := e
    cases hstep with
    | none same quiet =>
      rw [same] at hrecord
      exact (ih record hrecord).append (quiet _)
    | setUp who password salt hevent hanswer added =>
      dsimp only at hevent
      subst hevent
      have hnone (userId : Int) : ¬ Verifies text hashes userId (MemoryApi.after text hashes es)
          (elapsed, .request (.setupPassword who password salt))  :=
        not_verifies (fun _ _ _ h => by cases h) userId
      obtain ⟨_, hrows⟩ := Table.insert?_eq_some.mp added
      rw [hrows, List.mem_append, List.mem_singleton] at hrecord
      rcases hrecord with hrecord | rfl
      · exact (ih record hrecord).append (hnone _)
      · refine ⟨rfl, rfl, ?_, fun t ht => by cases ht⟩
        exact ⟨es, elapsed, who, password, [], rfl, rfl, rfl, hanswer⟩
    | verified who password credential old hevent hanswer found pin put =>
      dsimp only at hevent
      subst hevent
      have hold := ih old (Table.mem_of_find? found)
      have huser : old.userId = who.userId := Table.key_of_find? found
      rw [put] at hrecord
      rcases Table.mem_put.mp hrecord with ⟨rfl, _⟩ | ⟨hrecord, hne⟩
      · refine ⟨rfl, rfl, hold.setUp.append, fun t ht => ?_⟩
        cases ht
        refine ⟨_, _, _, rfl, rfl, rfl, es, elapsed, who, password, credential, [], old.salt, rfl,
          huser.symm, rfl, rfl, rfl, ?_, hanswer, trivial⟩
        rw [← pin]
        exact hold.setUp
      · refine (ih record hrecord).append ?_
        rintro ⟨who', _, _, h, hwho, _⟩
        cases h
        exact hne (hwho.symm.trans huser.symm)

/-! ## Wrong PINs -/

/-- No record counts a wrong PIN or is locked, no verification is refused for
a cooldown, and a right PIN is accepted whatever was tried before. -/
theorem wrong_pins_not_counted (es : List (Time × MemoryEvent)) (elapsed : Time)
    (who : UserIdentity) (password credential : String) :
    (∀ record ∈ (MemoryApi.after text hashes es).passwords.rows,
      record.failedAttempts = 0 ∧ record.lockedUntil = none) ∧
    (MemoryApi.after text hashes es).answer text hashes elapsed
      (.verifyPassword who password credential) ≠ .refused 401 "MEMORY_PASSWORD_COOLDOWN" ∧
    ((MemoryApi.after text hashes es).answer text hashes elapsed
        (.verifyPassword who password credential) = .credential credential ↔
      ∃ record, (MemoryApi.after text hashes es).passwords.find? who.userId = some record ∧
        record.passwordHash = hashes.scrypt password record.salt) := by
  have hchain := passwords_chain text hashes es
  refine ⟨fun record hrecord =>
    ⟨(hchain record hrecord).failedAttempts, (hchain record hrecord).lockedUntil⟩, ?_⟩
  have hanswer : (MemoryApi.after text hashes es).answer text hashes elapsed
      (.verifyPassword who password credential)
        = (((MemoryApi.after text hashes es).wait elapsed).verifyPassword hashes
          ((MemoryApi.after text hashes es).backend.now + elapsed) who password credential).1 := rfl
  rw [hanswer]
  have hpasswords : ((MemoryApi.after text hashes es).wait elapsed).passwords
      = (MemoryApi.after text hashes es).passwords := rfl
  unfold MemoryApi.verifyPassword MemoryPasswordService.get
  rw [hpasswords]
  cases hfind : (MemoryApi.after text hashes es).passwords.find? who.userId with
  | none =>
    refine ⟨by simp [invalid], Iff.intro (fun h => ?_) ?_⟩
    · cases h
    · rintro ⟨record, h, _⟩
      cases h
  | some record =>
    have hunlocked := (hchain record (Table.mem_of_find? hfind)).lockedUntil
    dsimp only [pure, Except.pure]
    unfold MemoryPasswordService.verify
    rw [if_neg (show ¬ ∃ t ∈ record.lockedUntil, _ < t by
      rw [hunlocked]
      rintro ⟨t, h, _⟩
      cases h)]
    by_cases hpin : record.passwordHash = hashes.scrypt password record.salt
    · rw [if_neg fun h => h hpin]
      refine ⟨fun h => ?_, Iff.intro (fun _ => ⟨record, rfl, hpin⟩) fun _ => rfl⟩
      cases h
    · rw [if_pos hpin]
      refine ⟨by simp [invalid], Iff.intro (fun h => ?_) ?_⟩
      · cases h
      · rintro ⟨record', h, hpin'⟩
        cases h
        exact absurd hpin' hpin

/-! ## Served requests -/

/-- The request is one of the owner, who has the last credential in a session
of the same digest, and it has not expired. -/
structure OwnerAdmitted (text : PyText) (hashes : Hashes) (es : List (Time × MemoryEvent))
    (now : Time) (identity : UserIdentity) (request : ArchiveRequest) (archiveId : String)
    (unlockCredential : Option String) : Prop where
  owned : ∃ a ∈ (MemoryApi.after text hashes es).backend.db.archives.rows,
    a.archiveId = archiveId ∧ a.ownerUserId = identity.userId ∧
    (request ≠ .delete → a.deletedAt = none)
  unlocked : ∃ credential issuedAt, unlockCredential = some credential ∧
    now < issuedAt + seconds (15 * 60) ∧
    LastUnlock text hashes es identity.userId (hashes.sha256 identity.sessionId)
      (hashes.sha256 credential) issuedAt

theorem requireOwnedUnlockedArchive_ok {s : MemoryApi} {now : Time} {identity : UserIdentity}
    {archiveId : String} {unlockCredential : Option String} {allowDeleted : Bool}
    {archive : MemoryArchive}
    (h : s.requireOwnedUnlockedArchive hashes now identity archiveId unlockCredential allowDeleted
      = .ok archive) :
    s.owned? identity archiveId allowDeleted = some archive ∧
      ∃ credential, unlockCredential = some credential ∧
        ∃ record, s.passwords.find? identity.userId = some record ∧
          MemoryPasswordService.Unlocked hashes record identity.sessionId credential now := by
  unfold MemoryApi.requireOwnedUnlockedArchive at h
  cases howned : s.owned? identity archiveId allowDeleted with
  | none => rw [howned] at h; cases h
  | some a =>
    rw [howned] at h
    cases unlockCredential with
    | none => cases h
    | some credential =>
      dsimp only at h
      split at h
      · cases h
      · split at h
        · next hunlocked =>
          cases h
          refine ⟨rfl, credential, rfl, ?_⟩
          unfold MemoryPasswordService.isUnlocked MemoryPasswordService.get at hunlocked
          cases hfind : s.passwords.find? identity.userId with
          | none => rw [hfind] at hunlocked; cases hunlocked
          | some record =>
            rw [hfind] at hunlocked
            exact ⟨record, rfl, of_decide_eq_true (Except.ok.inj hunlocked)⟩
        · cases h

theorem owned?_ok {s : MemoryApi} {identity : UserIdentity} {archiveId : String}
    {allowDeleted : Bool} {a : MemoryArchive}
    (h : s.owned? identity archiveId allowDeleted = some a) :
    s.backend.db.archives.find? archiveId = some a ∧ a.ownerUserId = identity.userId ∧
      (allowDeleted = false → a.deletedAt = none) := by
  obtain ⟨hfind, hpass⟩ := Option.filter_eq_some_iff.mp h
  rw [Bool.and_eq_true, decide_eq_true_eq, Bool.or_eq_true] at hpass
  refine ⟨hfind, hpass.1, fun hnot => ?_⟩
  rcases hpass.2 with hall | hlive
  · rw [hnot] at hall
    cases hall
  · exact Option.isNone_iff_eq_none.mp hlive

/-- What the guard does not let pass is refused. -/
theorem requireOwnedUnlockedArchive_error {s : MemoryApi} {now : Time} {identity : UserIdentity}
    {archiveId : String} {unlockCredential : Option String} {allowDeleted : Bool}
    {answer : MemoryAnswer}
    (h : s.requireOwnedUnlockedArchive hashes now identity archiveId unlockCredential allowDeleted
      = .error answer) : answer.isRefused = true := by
  unfold MemoryApi.requireOwnedUnlockedArchive at h
  split at h
  · cases h
    rfl
  · split at h
    · cases h
      rfl
    · split at h
      · cases h
        rfl
      · split at h
        · cases h
        · cases h
          rfl

/-- A request about an archive that is not refused is one of its owner, with
the credential of the last verification; and what is shown of the archive is
what it plays. -/
theorem served_unlocked (es : List (Time × MemoryEvent)) (elapsed : Time) (identity : UserIdentity)
    (request : ArchiveRequest) (archiveId : String) (unlockCredential : Option String)
    (hserved : ((MemoryApi.after text hashes es).answer text hashes elapsed
      (.archive identity request archiveId unlockCredential)).isRefused = false) :
    OwnerAdmitted text hashes es ((MemoryApi.after text hashes es).backend.now + elapsed) identity
        request archiveId unlockCredential ∧
      ∀ entry revision playback, (MemoryApi.after text hashes es).answer text hashes elapsed
          (.archive identity request archiveId unlockCredential)
            = .detail entry revision playback →
        MemoryPlayerService.getPublishedPlayback (MemoryApi.after text hashes es).backend.db
          archiveId = .ok playback := by
  have hchain := passwords_chain text hashes es
  have hanswer : (MemoryApi.after text hashes es).answer text hashes elapsed
      (.archive identity request archiveId unlockCredential)
        = (((MemoryApi.after text hashes es).wait elapsed).handle text hashes
          ((MemoryApi.after text hashes es).backend.now + elapsed)
            (.archive identity request archiveId unlockCredential)).1 := rfl
  rw [hanswer] at hserved ⊢
  unfold MemoryApi.handle at hserved ⊢
  dsimp only at hserved ⊢
  cases hguard : ((MemoryApi.after text hashes es).wait elapsed).requireOwnedUnlockedArchive hashes
      ((MemoryApi.after text hashes es).backend.now + elapsed) identity archiveId unlockCredential
      (decide (request = .delete)) with
  | error answer =>
    rw [hguard] at hserved
    have hrefused := requireOwnedUnlockedArchive_error hashes hguard
    rw [show answer.isRefused = false from hserved] at hrefused
    cases hrefused
  | ok a =>
    obtain ⟨howned, credential, hcredential, record, hfind, hunlocked⟩ :=
      requireOwnedUnlockedArchive_ok hashes hguard
    obtain ⟨hrow, howner, hlive⟩ := owned?_ok howned
    refine ⟨⟨⟨a, Table.mem_of_find? hrow, Table.key_of_find? hrow, howner, fun hne => ?_⟩,
      credential, ?_⟩, fun entry revision playback hdetail => ?_⟩
    · exact hlive (decide_eq_false hne)
    · obtain ⟨⟨t, ht, hnow⟩, ⟨d, hd, _, rfl⟩, d', hd', _, rfl⟩ := hunlocked
      have huser : record.userId = identity.userId := Table.key_of_find? hfind
      obtain ⟨sessionDigest, tokenDigest, issuedAt, hsession, htoken, rfl, hlast⟩ :=
        (hchain record (Table.mem_of_find? hfind)).unlocked t ht
      refine ⟨issuedAt, hcredential, hnow, ?_⟩
      have hone : sessionDigest = hashes.sha256 identity.sessionId :=
        Option.some.inj (hsession.symm.trans hd)
      have htwo : tokenDigest = hashes.sha256 credential :=
        Option.some.inj (htoken.symm.trans hd')
      rw [← huser, ← hone, ← htwo]
      exact hlast
    · dsimp only at hdetail
      cases request with
      | detail =>
        unfold MemoryApi.serve at hdetail
        dsimp only at hdetail
        split at hdetail
        · next hplayed =>
          cases hdetail
          rw [← show a.archiveId = archiveId from Table.key_of_find? hrow]
          exact hplayed
        · cases hdetail
      | delete =>
        unfold MemoryApi.serve at hdetail
        dsimp only at hdetail
        split at hdetail
        · cases hdetail
        · cases hdetail
      | pin => cases hdetail
      | unpin => cases hdetail

end Chain

/-! ### An owner who reads -/

namespace UnlockExample

/-- Digests that can be told apart. -/
def hashes : Hashes where
  scrypt password salt := password ++ salt
  sha256 s := s ++ "#"

def owner : UserIdentity := ⟨1, "session"⟩

/-- The archives are created, and the owner of the first sets up a PIN and
verifies it, at the second attempt. -/
def verified : List (Time × MemoryEvent) :=
  [(0, .op RevisionExample.create), (1, .request (.setupPassword owner "1234" "salt")),
    (1, .request (.verifyPassword owner "1235" "wrong")),
    (1, .request (.verifyPassword owner "1234" "credential"))]

end UnlockExample

open UnlockExample RevisionExample in
theorem owner_served_unlocked :
    OwnerAdmitted plainText UnlockExample.hashes verified
      ((MemoryApi.after plainText UnlockExample.hashes verified).backend.now + 1) owner .detail
      "archive-a" (some "credential") :=
  (served_unlocked plainText UnlockExample.hashes verified 1 owner .detail "archive-a"
    (some "credential") (by decide +kernel)).1

end AgentRuntime
