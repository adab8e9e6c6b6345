import Gatehouse.Password.Policy
import Gatehouse.Proofs.Password.Phc

set_option autoImplicit false

/-!
# Stored hashes are read as they were written

A hash that is made with the current parameters is printed, parsed and computed again with the same
parameters and the same salt.
-/

namespace Gatehouse

namespace Blake2b

theorem length_absorb (chain : List UInt64) (count : Nat) (message : List UInt8) :
    (absorb chain count message).length = 8 := by
  induction chain, count, message using absorb.induct with
  | case1 chain count message hshort =>
    rw [absorb, if_pos hshort]
    simp [compress]
  | case2 chain count message hlong ih =>
    rw [absorb, if_neg hlong]
    exact ih

theorem length_hash {size : Nat} (hsize : size ≤ 64) (message : List UInt8) :
    (hash size message).length = size := by
  have hwords : ∀ words : List UInt64, (words.flatMap wordBytes).length = 8 * words.length := by
    intro words
    induction words with
    | nil => rfl
    | cons word words ih =>
      rw [List.flatMap_cons, List.length_append, ih]
      simp [wordBytes]
      omega
  rw [hash, List.length_take, hwords, length_absorb]
  omega

end Blake2b

theorem Argon2.length_hash {params : Params} (hsize : params.size ≤ 64)
    (password salt : List UInt8) : (hash params password salt).length = params.size := by
  rw [hash, hashLong, if_pos hsize]
  exact Blake2b.length_hash hsize _

namespace StoredHash

def output (salt : Salt) (password : String) : List UInt8 :=
  Argon2.hash current (Text.utf8 password.toList) salt.bytes

theorem length_output (salt : Salt) (password : String) : (output salt password).length = 32 :=
  Argon2.length_hash (show current.size ≤ 64 by decide) _ _

theorem all_isValueChar_base64Encode (bytes : List UInt8) :
    (Text.base64Encode bytes).all PhcString.isValueChar = true := by
  have hdigits : ∀ n < 64, PhcString.isValueChar (Text.base64Digit n) = true := by decide
  exact List.all_eq_true.2
    (Text.forall_mem_base64Encode (PhcString.isValueChar · = true) hdigits bytes)

/-- The current parameters, as they are written. -/
def writtenParams : List (List Char × List Char) :=
  [(['m'], "15000".toList), (['t'], "2".toList), (['p'], "1".toList)]

def withOutput (salt : List Char) (output : List UInt8) : PhcString where
  algorithm := "argon2id".toList
  version := some 19
  params := writtenParams
  salt := some salt
  output := some output

theorem make_eq (salt : Salt) (password : String) :
    make salt password = withOutput (Text.base64Encode salt.bytes) (output salt password) := by
  have hmemory : Nat.toDigits 10 current.memory = "15000".toList := by decide
  have hpasses : Nat.toDigits 10 current.passes = "2".toList := by decide
  have hlanes : Nat.toDigits 10 current.lanes = "1".toList := by decide
  unfold make withOutput writtenParams output
  rw [hmemory, hpasses, hlanes]

theorem wellFormed_make (salt : Salt) (password : String) : (make salt password).WellFormed := by
  have hsalt : (Text.base64Encode salt.bytes).length = 22 := by
    rw [Text.length_base64Encode, salt.length_eq]
  have houtput := length_output salt password
  rw [make_eq]
  constructor
  case algorithm => exact (by decide : PhcString.isName "argon2id".toList = true)
  case params => exact (by decide : ∀ param ∈ writtenParams, PhcString.IsParam param)
  case params_length => exact (by decide : (PhcString.printParams writtenParams).length ≤ 127)
  case version =>
    rintro _ ⟨⟩
    decide
  case params_version | output_salt => exact fun h => by cases h
  case salt =>
    rintro _ ⟨⟩
    exact ⟨by omega, by omega, all_isValueChar_base64Encode salt.bytes⟩
  case output =>
    rintro _ ⟨⟩
    omega

theorem parse?_print_make (salt : Salt) (password : String) :
    PhcString.parse? (make salt password).print = some (make salt password) :=
  PhcString.parse?_eq_some_iff.2 ⟨wellFormed_make salt password, rfl⟩

theorem params?_withOutput (salt : List Char) (output : List UInt8) :
    params? (withOutput salt output) 32 = some current := by
  have hvariant : variant? "argon2id".toList = some .id := by decide
  have hparams : writtenParams.foldlM withParam?
      (⟨.id, .v19, 19456, 2, 1, 32, []⟩ : Argon2.Params) = some current := by decide
  have hversion : version? (some 19) = some .v19 := rfl
  have hrange : inRange current = true := by decide
  unfold params? withOutput
  rw [hvariant, Option.bind_eq_bind, Option.bind_some]
  dsimp only
  rw [hversion, Option.bind_eq_bind, Option.bind_some, hparams, Option.bind_eq_bind,
    Option.bind_some, if_pos hrange]

theorem saltBytes?_base64Encode (salt : Salt) :
    saltBytes? (Text.base64Encode salt.bytes) = some salt.bytes := by
  rw [saltBytes?, Text.base64Decode?_base64Encode, Option.filter_some, if_pos]
  rw [salt.length_eq]
  rfl

/-- The parameters, the salt and the output that a stored hash names. -/
structure Names (phc : PhcString) (params : Argon2.Params) (salt output : List UInt8) : Prop where
  params : params? phc output.length = some params
  salt : phc.salt.bind saltBytes? = some salt
  output : phc.output = some output

theorem Names.matches?_eq {phc : PhcString} {params : Argon2.Params} {salt output : List UInt8}
    (h : Names phc params salt output) (candidate : String) :
    matches? phc candidate =
      .ok (Argon2.hash params (Text.utf8 candidate.toList) salt == output) := by
  obtain ⟨cs, hcs, hsalt⟩ := Option.bind_eq_some_iff.1 h.salt
  rw [matches?, hcs, h.output]
  dsimp only
  rw [h.params, hsalt]

theorem matches?_eq_true_iff {phc : PhcString} {candidate : String} :
    matches? phc candidate = .ok true ↔ ∃ params salt output, Names phc params salt output ∧
      Argon2.hash params (Text.utf8 candidate.toList) salt = output := by
  constructor
  · intro h
    rw [matches?] at h
    split at h
    · next salt output hsalt houtput =>
      split at h
      · next params bytes hparams hbytes =>
        injection h with h
        exact ⟨params, bytes, output, ⟨hparams, by rw [hsalt]; exact hbytes, houtput⟩,
          beq_iff_eq.1 h⟩
      · cases h
    · cases h
  · rintro ⟨params, salt, output, hnames, hhash⟩
    rw [hnames.matches?_eq, hhash, beq_self_eq_true]

theorem names_make (salt : Salt) (password : String) :
    Names (make salt password) current salt.bytes (output salt password) := by
  rw [make_eq]
  refine ⟨?_, saltBytes?_base64Encode salt, rfl⟩
  rw [length_output, params?_withOutput]

end StoredHash

namespace PasswordPolicy

/-- Whether what is kept of one password matches another. -/
def accepts (policy : PasswordPolicy) (salt : Salt) (kept candidate : Password) : Bool :=
  match policy with
  | .argon2 => StoredHash.output salt candidate.text == StoredHash.output salt kept.text
  | .plaintext => kept.text == candidate.text

theorem verify_protect (policy : PasswordPolicy) (salt : Salt) (kept candidate : Password) :
    policy.verify (policy.protect salt kept) candidate =
      .ok (policy.accepts salt kept candidate) := by
  cases policy with
  | argon2 =>
    rw [verify, protect, StoredHash.parse?_print_make]
    exact (StoredHash.names_make salt kept.text).matches?_eq candidate.text
  | plaintext => rfl

/-- Where a policy hashes, no two of these passwords have the same hash with one of the salts. -/
def Separates (policy : PasswordPolicy) (salts : Nat → Salt) (passwords : List String) : Prop :=
  policy = .argon2 → ∀ n, ∀ p ∈ passwords, ∀ q ∈ passwords,
    StoredHash.output (salts n) p = StoredHash.output (salts n) q → p = q

theorem Separates.verify_protect {policy : PasswordPolicy} {salts : Nat → Salt}
    {passwords : List String} (h : policy.Separates salts passwords) (n : Nat)
    {kept candidate : Password} (hkept : kept.text ∈ passwords)
    (hcandidate : candidate.text ∈ passwords) :
    policy.verify (policy.protect (salts n) kept) candidate =
      .ok (kept.text == candidate.text) := by
  rw [PasswordPolicy.verify_protect]
  cases policy with
  | argon2 =>
    have hsame : (StoredHash.output (salts n) candidate.text == StoredHash.output (salts n) kept.text) =
        (kept.text == candidate.text) := by
      rw [Bool.eq_iff_iff, beq_iff_eq, beq_iff_eq]
      constructor
      · intro heq
        exact (h rfl n candidate.text hcandidate kept.text hkept heq).symm
      · intro heq
        rw [heq]
    rw [accepts, hsame]
  | plaintext => rfl

end PasswordPolicy

end Gatehouse
