import Gatehouse.Proofs.Credentials.Accounts
import Gatehouse.Proofs.Credentials.Lookup
import Gatehouse.Proofs.Password.StoredHash

set_option autoImplicit false

/-!
# What a kept password matches

Under the policy that kept it, a password matches what it was kept for, also from a file. Under
another policy it is read as that policy reads it: a password that was kept as it is matches as a hash
exactly if it is the text of a stored hash, and then what that is the hash of.
-/

namespace Gatehouse

namespace StoredHash

/-- A text is a stored hash, of this password. -/
def IsHashOf (text password : String) : Prop :=
  ∃ (phc : PhcString) (params : Argon2.Params) (salt output : List UInt8),
    phc.WellFormed ∧ text = phc.print ∧ Names phc params salt output ∧
      Argon2.hash params (Text.utf8 password.toList) salt = output

theorem isHashOf_make (salt : Salt) (password : String) :
    IsHashOf (make salt password).print password :=
  ⟨_, _, _, _, wellFormed_make salt password, rfl, names_make salt password, rfl⟩

end StoredHash

namespace PasswordPolicy

theorem verify_argon2_eq_true_iff {stored : String} {candidate : Password} :
    argon2.verify stored candidate = .ok true ↔ StoredHash.IsHashOf stored candidate.text := by
  constructor
  · intro h
    rw [verify] at h
    split at h
    · next phc hparse =>
      obtain ⟨hwell, hprint⟩ := PhcString.parse?_eq_some_iff.1 hparse
      obtain ⟨params, salt, output, hnames, hhash⟩ := StoredHash.matches?_eq_true_iff.1 h
      exact ⟨phc, params, salt, output, hwell, hprint, hnames, hhash⟩
    · cases h
  · rintro ⟨phc, params, salt, output, hwell, hprint, hnames, hhash⟩
    rw [verify, PhcString.parse?_eq_some_iff.2 ⟨hwell, hprint⟩]
    exact StoredHash.matches?_eq_true_iff.2 ⟨params, salt, output, hnames, hhash⟩

theorem accepts_self (policy : PasswordPolicy) (salt : Salt) (password : Password) :
    policy.accepts salt password password = true := by
  cases policy <;> exact beq_self_eq_true _

end PasswordPolicy

namespace FileCredentials

variable {δ : Type} {path : FilePath} {disk : Disk δ} {Whole Sound : δ → Prop} {salts : Nat → Salt}
  {policy : PasswordPolicy} {state after : Salted δ} {name : Username} {password : Password}
  {user : User}

theorem hasRecord_after (settles : disk.Settles path Whole Sound) (hwhole : Whole state.contents)
    (hcreate : ((store ⟨path, policy⟩ disk salts).create name password).runFrom state =
      (.ok user, after)) (calls : List (CredentialCall UserId)) :
    SharedTable.HasRecord Sound (recordsAt disk path) name
      (policy.protect (salts state.drawn) password)
      ((store ⟨path, policy⟩ disk salts).after calls after) := by
  have settling : (table ⟨path, policy⟩ disk).Settling Whole Sound (recordsAt disk path) :=
    FileCredentials.settling settles
  rw [store_eq] at hcreate ⊢
  exact settling.keeping.after_keeps salts calls (settling.hasRecord_of_created hwhole hcreate).2

variable {stored : String}

theorem verify_of_hasRecord (steady : disk.Steady path Sound)
    (h : SharedTable.HasRecord Sound (recordsAt disk path) name stored state)
    (candidate : Password) :
    ((store ⟨path, policy⟩ disk salts).verify name candidate).runFrom state =
      ((policy.verify stored candidate).mapError fun error => .unexpected error.message, state) := by
  have keeping : (table ⟨path, policy⟩ disk).Keeping Sound (recordsAt disk path) :=
    FileCredentials.keeping steady
  rw [store_eq, ← PasswordPolicy.runFrom_answer]
  exact keeping.verify_of_some h.1 h.2 candidate

theorem find_of_hasRecord (steady : disk.Steady path Sound)
    (h : SharedTable.HasRecord Sound (recordsAt disk path) name stored state) :
    ((store ⟨path, policy⟩ disk salts).find name).runFrom state =
      (.ok (some (.named name stored)), state) := by
  have keeping : (table ⟨path, policy⟩ disk).Keeping Sound (recordsAt disk path) :=
    FileCredentials.keeping steady
  rw [store_eq]
  exact keeping.find_of_some h.1 h.2

theorem login_of_hasRecord (steady : disk.Steady path Sound)
    (h : SharedTable.HasRecord Sound (recordsAt disk path) name stored state) (session : Session)
    (candidate : Password) :
    let login := (store ⟨path, policy⟩ disk salts).login session name candidate
    (policy.verify stored candidate = .ok true → login.runFrom state =
        (.ok (.ofUsername name, session.authenticate (.ofUsername name)), state)) ∧
      (policy.verify stored candidate ≠ .ok true →
        ∃ error, login.runFrom state = (.error error, state)) := by
  have hverify : ((store ⟨path, policy⟩ disk salts).verify name candidate).runFrom state = _ :=
    verify_of_hasRecord steady h candidate
  constructor
  · intro hmatch
    rw [hmatch] at hverify
    exact CredentialStore.runFrom_login_of_matched session hverify (find_of_hasRecord steady h)
  · intro hother
    cases hjudged : policy.verify stored candidate with
    | error error =>
      rw [hjudged] at hverify
      refine ⟨.store (.unexpected error.message), ?_⟩
      rw [CredentialStore.login, Attempt.runFrom_bind, Attempt.runFrom_mapError, hverify]
      rfl
    | ok matched =>
      cases matched with
      | true => exact absurd hjudged hother
      | false =>
        rw [hjudged] at hverify
        exact ⟨_, CredentialStore.runFrom_login_of_unmatched session hverify⟩

end FileCredentials

/-- What is kept of a password is matched by the passwords that its policy accepts for it, which are
the password itself and those with the same hash, never with an error. A hash is read back with all
that it was made of, and a file keeps what was written. -/
theorem verification_undoes_protection :
    (∀ (policy : PasswordPolicy) (salt : Salt) (p q : Password),
      policy.verify (policy.protect salt p) q = .ok (policy.accepts salt p q)) ∧
    (∀ (salt : Salt) (p q : Password),
      PasswordPolicy.plaintext.accepts salt p q = true ↔ p = q) ∧
    (∀ (salt : Salt) (p q : Password), PasswordPolicy.argon2.accepts salt p q = true ↔
      Argon2.hash ⟨.id, .v19, 15000, 2, 1, 32, []⟩ (Text.utf8 p.text.toList) salt.bytes =
        Argon2.hash ⟨.id, .v19, 15000, 2, 1, 32, []⟩ (Text.utf8 q.text.toList) salt.bytes) ∧
    (∀ (policy : PasswordPolicy) (salt : Salt) (p : Password), policy.accepts salt p p = true) ∧
    (∀ (salt : Salt) (p : Password), ∃ phc,
      PhcString.parse? (PasswordPolicy.argon2.protect salt p) = some phc ∧
      phc.algorithm = "argon2id".toList ∧ phc.version = some 19 ∧
      phc.params = [(['m'], "15000".toList), (['t'], "2".toList), (['p'], "1".toList)] ∧
      phc.salt = some (Text.base64Encode salt.bytes) ∧
      StoredHash.Names phc ⟨.id, .v19, 15000, 2, 1, 32, []⟩ salt.bytes
        (Argon2.hash ⟨.id, .v19, 15000, 2, 1, 32, []⟩ (Text.utf8 p.text.toList) salt.bytes)) ∧
    ∀ {δ : Type} (path : FilePath) (disk : Disk δ) (Whole Sound : δ → Prop),
      disk.Settles path Whole Sound →
      ∀ (policy : PasswordPolicy) (salts : Nat → Salt) (name : Username) (p : Password)
        (user : User) (state after : Salted δ), Whole state.contents →
        ((FileCredentials.store ⟨path, policy⟩ disk salts).create name p).runFrom state =
          (.ok user, after) →
        ∀ (calls : List (CredentialCall UserId)) (q : Password),
          let store := FileCredentials.store ⟨path, policy⟩ disk salts
          let kept := store.after calls after
          (FileCredentials.recordsAt disk path kept.contents).get? name.text =
              some (policy.protect (salts state.drawn) p) ∧
            (store.verify name q).runFrom kept =
              (.ok (policy.accepts (salts state.drawn) p q), kept) := by
  refine ⟨PasswordPolicy.verify_protect, fun salt p q => ?_, fun salt p q => ?_,
    PasswordPolicy.accepts_self, fun salt p => ?_, ?_⟩
  · rw [PasswordPolicy.accepts, beq_iff_eq,
      ← Password.mk.injEq p.text p.nonempty q.text q.nonempty]
  · rw [PasswordPolicy.accepts, beq_iff_eq]
    exact eq_comm
  · refine ⟨_, StoredHash.parse?_print_make salt p.text, rfl, rfl, ?_, rfl,
      StoredHash.names_make salt p.text⟩
    rw [StoredHash.make_eq]
    rfl
  · intro δ path disk Whole Sound settles policy salts name p user state after hwhole hcreate calls q
    have hrecord := FileCredentials.hasRecord_after settles hwhole hcreate calls
    refine ⟨hrecord.2, ?_⟩
    rw [FileCredentials.verify_of_hasRecord settles.steady hrecord, PasswordPolicy.verify_protect]
    rfl

theorem FileCredentials.sampleStore_create :
    ((sampleStore .plaintext).create ⟨"al", by decide⟩ ⟨"pw", by decide⟩).runFrom
        ⟨FileTree.empty, 0⟩ =
      (.ok (.named ⟨"al", by decide⟩ "pw"), (sampleStore .plaintext).after
        [.create ⟨"al", by decide⟩ ⟨"pw", by decide⟩] ⟨FileTree.empty, 0⟩) := by
  decide +kernel

theorem verification_undoes_protection_sample :
    FileTree.disk.Settles ⟨"users.json"⟩ FileTree.Closed
        (fun tree => tree.Closed ∧ FileTree.IsPlain ⟨"users.json"⟩ tree) ∧
      FileTree.empty.Closed ∧
      let store := FileCredentials.sampleStore .plaintext
      let kept := store.after [.create ⟨"al", by decide⟩ ⟨"pw", by decide⟩,
        .create ⟨"bob", by decide⟩ ⟨"secret", by decide⟩] ⟨FileTree.empty, 0⟩
      (store.verify ⟨"al", by decide⟩ ⟨"pw", by decide⟩).runFrom kept = (.ok true, kept) ∧
        (store.verify ⟨"al", by decide⟩ ⟨"Pw", by decide⟩).runFrom kept = (.ok false, kept) := by
  have settles := FileTree.settles ⟨"users.json"⟩
  have hkept := verification_undoes_protection.2.2.2.2.2 _ FileTree.disk _ _ settles .plaintext
    sampleSalts ⟨"al", by decide⟩ ⟨"pw", by decide⟩ _ ⟨FileTree.empty, 0⟩ _ FileTree.closed_empty
    FileCredentials.sampleStore_create [.create ⟨"bob", by decide⟩ ⟨"secret", by decide⟩]
  exact ⟨settles, FileTree.closed_empty, (hkept ⟨"pw", by decide⟩).2, (hkept ⟨"Pw", by decide⟩).2⟩

/-- A password that was kept as it is matches as a hash exactly if it is the text of a hash of what
is compared with it. This decides who can sign in after the policy of a file has changed. -/
theorem plaintext_under_argon2 (p q : Password) :
    (∀ salt : Salt, PasswordPolicy.argon2.verify (PasswordPolicy.plaintext.protect salt p) q =
      .ok true ↔ StoredHash.IsHashOf p.text q.text) ∧
    ∀ {δ : Type} (path : FilePath) (disk : Disk δ) (Whole Sound : δ → Prop),
      disk.Settles path Whole Sound →
      ∀ (salts fresh : Nat → Salt) (name : Username) (user : User) (state after : Salted δ),
        Whole state.contents →
        ((FileCredentials.store ⟨path, .plaintext⟩ disk salts).create name p).runFrom state =
          (.ok user, after) →
        ∀ (calls : List (CredentialCall UserId)) (session : Session),
          let kept := (FileCredentials.store ⟨path, .plaintext⟩ disk salts).after calls after
          let login := (FileCredentials.store ⟨path, .argon2⟩ disk fresh).login session name q
          (StoredHash.IsHashOf p.text q.text → login.runFrom kept =
              (.ok (.ofUsername name, session.authenticate (.ofUsername name)), kept)) ∧
            (¬ StoredHash.IsHashOf p.text q.text →
              ∃ error, login.runFrom kept = (.error error, kept)) := by
  refine ⟨fun _ => PasswordPolicy.verify_argon2_eq_true_iff, ?_⟩
  intro δ path disk Whole Sound settles salts fresh name user state after hwhole hcreate calls
    session
  have hrecord := FileCredentials.hasRecord_after settles hwhole hcreate calls
  obtain ⟨hmatched, hother⟩ :=
    FileCredentials.login_of_hasRecord settles.steady hrecord session q
  exact ⟨fun h => hmatched (PasswordPolicy.verify_argon2_eq_true_iff.2 h),
    fun h => hother fun hverify => h (PasswordPolicy.verify_argon2_eq_true_iff.1 hverify)⟩

theorem plaintext_under_argon2_sample :
    FileTree.disk.Settles ⟨"users.json"⟩ FileTree.Closed
        (fun tree => tree.Closed ∧ FileTree.IsPlain ⟨"users.json"⟩ tree) ∧
      FileTree.empty.Closed ∧ ¬ StoredHash.IsHashOf "pw" "pw" ∧
      let kept := (FileCredentials.sampleStore .plaintext).after
        [.create ⟨"al", by decide⟩ ⟨"pw", by decide⟩] ⟨FileTree.empty, 0⟩
      ∃ error, ((FileCredentials.sampleStore .argon2).login {} ⟨"al", by decide⟩
        ⟨"pw", by decide⟩).runFrom kept = (.error error, kept) := by
  have settles := FileTree.settles ⟨"users.json"⟩
  have hnone : PhcString.parse? "pw" = none := by decide
  have hother : ¬ StoredHash.IsHashOf "pw" "pw" := by
    rintro ⟨phc, -, -, -, hwell, hprint, -, -⟩
    rw [PhcString.parse?_eq_some_iff.2 ⟨hwell, hprint⟩] at hnone
    cases hnone
  have hkept := (plaintext_under_argon2 ⟨"pw", by decide⟩ ⟨"pw", by decide⟩).2 _ FileTree.disk _ _
    settles sampleSalts sampleSalts ⟨"al", by decide⟩ _ ⟨FileTree.empty, 0⟩ _ FileTree.closed_empty
    FileCredentials.sampleStore_create [] {}
  exact ⟨settles, FileTree.closed_empty, hother, hkept.2 hother⟩

def hashAsPassword : Password where
  text := (StoredHash.make (sampleSalts 0) "pw").print
  nonempty h := by
    have htext := congrArg String.toList h
    rw [PhcString.toList_print] at htext
    cases htext

/-- Kept as it is and read as a hash, such a password is matched by another one. -/
theorem hashAsPassword_matches :
    PasswordPolicy.argon2.verify (PasswordPolicy.plaintext.protect (sampleSalts 0) hashAsPassword)
        ⟨"pw", by decide⟩ = .ok true ∧
      ¬ ∀ (salt : Salt) (p q : Password), PasswordPolicy.argon2.verify
        (PasswordPolicy.plaintext.protect salt p) q ≠ .ok true := by
  have hmatch : PasswordPolicy.argon2.verify
      (PasswordPolicy.plaintext.protect (sampleSalts 0) hashAsPassword) ⟨"pw", by decide⟩ =
      .ok true :=
    PasswordPolicy.verify_argon2_eq_true_iff.2 (StoredHash.isHashOf_make (sampleSalts 0) "pw")
  exact ⟨hmatch, fun hnever => hnever _ _ _ hmatch⟩

end Gatehouse
