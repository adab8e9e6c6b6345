import Gatehouse.Proofs.Credentials.Accounts
import Gatehouse.Proofs.Credentials.Dependable
import Gatehouse.Proofs.Password.StoredHash
import Gatehouse.Proofs.Site.AccountService

set_option autoImplicit false

/-!
# First registrations

Which password opens an account is told by the requests alone: it is the one with which its name was
first registered. A user table that nothing goes wrong with has just these records.
-/

namespace Gatehouse

open AccountService (IsLogin IsRegister)

namespace Request

def credentials? (request : Request) : Option CredentialsForm :=
  (CredentialsForm.ofRequest request).toOption

/-- The password that a request registers under a name, if it can. -/
def registers? (name : String) (request : Request) : Option String :=
  if IsRegister request then
    (request.credentials?.filter fun form => form.username = name ∧
      (Username.ofText? form.username).isSome ∧ form.password ≠ "").map CredentialsForm.password
  else none

/-- The password of the first registration of a name. The last request comes first. -/
def registeredPassword? (name : String) : List Request → Option String
  | [] => none
  | last :: earlier => (registeredPassword? name earlier).or (last.registers? name)

/-- The passwords that are hashed for these requests. -/
def passwords (requests : List Request) : List String :=
  requests.filterMap fun request =>
    if IsRegister request ∨ IsLogin request then
      request.credentials?.map CredentialsForm.password
    else none

theorem credentials?_eq_some_iff {request : Request} {form : CredentialsForm} :
    request.credentials? = some form ↔ CredentialsForm.ofRequest request = .ok form := by
  rw [credentials?]
  cases CredentialsForm.ofRequest request with
  | error error => simp [Except.toOption]
  | ok other => simp [Except.toOption]

theorem registers?_of_not_isRegister {request : Request} (h : ¬ IsRegister request)
    (name : String) : request.registers? name = none := by
  rw [registers?, if_neg h]

theorem registeredPassword?_of_silent {request : Request} {past : List Request} {name : String}
    (h : request.registers? name = none) :
    registeredPassword? name (request :: past) = registeredPassword? name past := by
  rw [registeredPassword?, h, Option.or_none]

theorem registers?_eq_some_iff {request : Request} {name password : String} :
    request.registers? name = some password ↔
      IsRegister request ∧ request.credentials? = some ⟨name, password⟩ ∧
        (Username.ofText? name).isSome ∧ password ≠ "" := by
  rw [registers?]
  constructor
  · intro h
    split at h
    · next hregister =>
      obtain ⟨form, hfilter, rfl⟩ := Option.map_eq_some_iff.1 h
      obtain ⟨hform, hcounts⟩ := Option.filter_eq_some_iff.1 hfilter
      obtain ⟨rfl, hvalid, hnonempty⟩ := of_decide_eq_true hcounts
      exact ⟨hregister, hform, hvalid, hnonempty⟩
    · cases h
  · rintro ⟨hregister, hform, hvalid, hnonempty⟩
    rw [if_pos hregister, hform, Option.filter_some, if_pos, Option.map_some]
    exact decide_eq_true ⟨rfl, hvalid, hnonempty⟩

theorem exists_of_registered {past : List Request} {name password : String}
    (h : registeredPassword? name past = some password) :
    ∃ request ∈ past, request.registers? name = some password := by
  induction past with
  | nil => cases h
  | cons last earlier ih =>
    rw [registeredPassword?, Option.or_eq_some_iff] at h
    rcases h with h | ⟨-, h⟩
    · obtain ⟨request, hrequest, hregisters⟩ := ih h
      exact ⟨request, List.mem_cons_of_mem last hrequest, hregisters⟩
    · exact ⟨last, List.mem_cons_self, h⟩

theorem valid_of_registered {past : List Request} {name password : String}
    (h : registeredPassword? name past = some password) :
    (Username.ofText? name).isSome = true ∧ password ≠ "" := by
  obtain ⟨request, -, hregisters⟩ := exists_of_registered h
  exact (registers?_eq_some_iff.1 hregisters).2.2

theorem mem_passwords {request : Request} {requests : List Request} {form : CredentialsForm}
    (hmem : request ∈ requests) (huses : IsRegister request ∨ IsLogin request)
    (hform : request.credentials? = some form) : form.password ∈ passwords requests := by
  refine List.mem_filterMap.2 ⟨request, hmem, ?_⟩
  rw [if_pos huses, hform, Option.map_some]

theorem mem_passwords_of_registered {past : List Request} {name password : String}
    (h : registeredPassword? name past = some password) : password ∈ passwords past := by
  obtain ⟨request, hmem, hregisters⟩ := exists_of_registered h
  obtain ⟨hregister, hform, -⟩ := registers?_eq_some_iff.1 hregisters
  exact mem_passwords hmem (.inl hregister) hform

end Request

namespace CredentialsForm

theorem parse_error {form : CredentialsForm} {error : UserError} (h : form.parse = .error error) :
    Username.ofText? form.username = none ∨ form.password = "" := by
  rw [parse] at h
  cases hname : Username.ofText form.username with
  | error invalid =>
    left
    rw [Username.ofText?, hname]
    rfl
  | ok valid =>
    right
    rw [hname, Password.ofText] at h
    by_cases hempty : form.password = ""
    · exact hempty
    · rw [dif_neg hempty] at h
      cases h

end CredentialsForm

namespace Request

variable {request : Request} {form : CredentialsForm}

theorem registers?_of_no_form (h : request.credentials? = none) (name : String) :
    request.registers? name = none := by
  rw [registers?, h]
  split <;> rfl

theorem registers?_of_invalid (hform : request.credentials? = some form) {error : UserError}
    (hparse : form.parse = .error error) (name : String) : request.registers? name = none := by
  refine Option.eq_none_iff_forall_ne_some.2 fun password hregisters => ?_
  obtain ⟨-, hsame, hvalid, hnonempty⟩ := registers?_eq_some_iff.1 hregisters
  obtain rfl := Option.some.inj (hform.symm.trans hsame)
  rcases CredentialsForm.parse_error hparse with hinvalid | hempty
  · dsimp only at hinvalid
    rw [hinvalid] at hvalid
    cases hvalid
  · exact hnonempty hempty

theorem registers?_of_valid (hregister : IsRegister request)
    (hform : request.credentials? = some form) {valid : Username} {password : Password}
    (hparse : form.parse = .ok (valid, password)) (name : String) :
    request.registers? name = if valid.text = name then some password.text else none := by
  obtain ⟨hname, hpassword⟩ := CredentialsForm.parse_ok hparse
  have hvalid : (Username.ofText? form.username).isSome = true := by
    rw [hname, Username.ofText?, Username.ofText_text]
    rfl
  have hnonempty := password.nonempty
  rw [registers?, if_pos hregister, hform, Option.filter_some, hvalid, hname, hpassword]
  by_cases heq : valid.text = name
  · simp [heq, hnonempty, hpassword]
  · simp [heq]

end Request

section Accounts

variable {τ : Type} {table : SharedTable τ} {Sound : τ → Prop} {records : τ → UserTable}
  {salts : Nat → Salt} {past : List Request} {backing : Salted τ}

/-- The records are those of the first registrations. -/
structure Registered (table : SharedTable τ) (Sound : τ → Prop) (records : τ → UserTable)
    (salts : Nat → Salt) (past : List Request) (backing : Salted τ) : Prop where
  sound : Sound backing.contents
  unknown (name : Username) : Request.registeredPassword? name.text past = none →
    (records backing.contents).get? name.text = none
  known (name : Username) {text : String} :
    Request.registeredPassword? name.text past = some text →
    ∃ n password, Password.text password = text ∧
      (records backing.contents).get? name.text =
        some (table.policy.protect (salts n) password)

namespace Registered

theorem of_empty {start : Salted τ} (hsound : Sound start.contents)
    (hempty : records start.contents = .empty) : Registered table Sound records salts [] start where
  sound := hsound
  unknown name _ := by
    rw [hempty]
    rfl
  known name text h := by cases h

theorem of_same (h : Registered table Sound records salts past backing) {requests : List Request}
    (hsame : ∀ name : Username, Request.registeredPassword? name.text requests =
      Request.registeredPassword? name.text past) :
    Registered table Sound records salts requests backing where
  sound := h.sound
  unknown name hname := by
    rw [hsame] at hname
    exact h.unknown name hname
  known name text hname := by
    rw [hsame] at hname
    exact h.known name hname

theorem silent (h : Registered table Sound records salts past backing) {request : Request}
    (hsilent : ∀ name, request.registers? name = none) :
    Registered table Sound records salts (request :: past) backing :=
  h.of_same fun name => Request.registeredPassword?_of_silent (hsilent name.text)

theorem congr (h : Registered table Sound records salts past backing) {after : Salted τ}
    (hsound : Sound after.contents) (hrecords : records after.contents = records backing.contents) :
    Registered table Sound records salts past after where
  sound := hsound
  unknown name hname := by
    rw [hrecords]
    exact h.unknown name hname
  known name text hname := by
    rw [hrecords]
    exact h.known name hname

theorem taken (h : Registered table Sound records salts past backing) {request : Request}
    {valid : Username} {password : Password}
    (hregisters : ∀ name, request.registers? name =
      if valid.text = name then some password.text else none)
    (htaken : (records backing.contents).contains valid.text = true) :
    Registered table Sound records salts (request :: past) backing := by
  refine h.of_same fun name => ?_
  rw [Request.registeredPassword?, hregisters]
  cases hknown : Request.registeredPassword? name.text past with
  | some text => rfl
  | none =>
    have hnone := h.unknown name hknown
    rw [if_neg, Option.or_none]
    intro heq
    rw [UserTable.contains, heq, hnone] at htaken
    cases htaken

theorem added (h : Registered table Sound records salts past backing) {request : Request}
    {valid : Username} {password : Password}
    (hregisters : ∀ name, request.registers? name =
      if valid.text = name then some password.text else none)
    (hnew : ¬ (records backing.contents).contains valid.text = true) (n : Nat)
    {after : Salted τ} (hsound : Sound after.contents)
    (hrecords : records after.contents = (records backing.contents).insert valid.text
      (table.policy.protect (salts n) password)) :
    Registered table Sound records salts (request :: past) after := by
  have hfirst : Request.registeredPassword? valid.text past = none := by
    cases hknown : Request.registeredPassword? valid.text past with
    | none => rfl
    | some text =>
      obtain ⟨_, _, -, hget⟩ := h.known valid hknown
      exact absurd (by rw [UserTable.contains, hget]; rfl) hnew
  refine ⟨hsound, fun name hname => ?_, fun name text hname => ?_⟩
  · rw [Request.registeredPassword?, hregisters, Option.or_eq_none_iff] at hname
    have hother : name.text ≠ valid.text := by
      intro heq
      rw [if_pos heq.symm] at hname
      cases hname.2
    rw [hrecords, UserTable.get?_insert, if_neg hother]
    exact h.unknown name hname.1
  · rw [Request.registeredPassword?, hregisters, Option.or_eq_some_iff] at hname
    by_cases heq : name.text = valid.text
    · rw [heq, hfirst, if_pos rfl] at hname
      refine ⟨n, password, ?_, by rw [hrecords, UserTable.get?_insert, if_pos heq]⟩
      rcases hname with hname | ⟨-, hname⟩
      · cases hname
      · exact Option.some.inj hname
    · rw [if_neg (Ne.symm heq)] at hname
      rw [hrecords, UserTable.get?_insert, if_neg heq]
      rcases hname with hname | ⟨-, hname⟩
      · exact h.known name hname
      · cases hname

/-- A registration leads to the records of the first registrations, whether its name was taken or
not. -/
theorem register (dependable : table.Dependable Sound records)
    (h : Registered table Sound records salts past backing) {request : Request}
    {valid : Username} {password : Password}
    (hregisters : ∀ name, request.registers? name =
      if valid.text = name then some password.text else none) :
    Registered table Sound records salts (request :: past)
      (((table.store salts).register valid password).runFrom backing).2 := by
  have htaken : ((table.store salts).isTaken valid).runFrom backing =
      (.ok ((records backing.contents).contains valid.text), backing) :=
    dependable.runFrom_isTaken h.sound valid
  rw [CredentialStore.runFrom_register, htaken]
  cases hcontains : (records backing.contents).contains valid.text with
  | true => exact h.taken hregisters hcontains
  | false =>
    have hnew : ¬ (records backing.contents).contains valid.text = true := by
      rw [hcontains]
      exact Bool.false_ne_true
    obtain ⟨contents, hcreate, hsound, hrecords⟩ :=
      dependable.runFrom_create_of_new h.sound salts hnew password
    change Registered table Sound records salts (request :: past)
      ((table.create salts valid password).runFrom backing).2
    rw [hcreate]
    exact h.added hregisters hnew backing.drawn hsound hrecords

theorem verify (dependable : table.Dependable Sound records)
    (h : Registered table Sound records salts past backing) {passwords : List String}
    (hseparates : table.policy.Separates salts passwords) (name : Username) (password : Password)
    (hused : password.text ∈ passwords) (hpast : Request.passwords past ⊆ passwords) :
    ((table.store salts).verify name password).runFrom backing =
      (.ok (decide (Request.registeredPassword? name.text past = some password.text)), backing) := by
  have hverify : ((table.store salts).verify name password).runFrom backing = _ :=
    dependable.runFrom_verify h.sound name password
  rw [hverify]
  cases hknown : Request.registeredPassword? name.text past with
  | none =>
    rw [h.unknown name hknown]
    rfl
  | some text =>
    obtain ⟨n, kept, rfl, hget⟩ := h.known name hknown
    rw [hget]
    dsimp only
    have hsame : (kept.text == password.text) = decide (some kept.text = some password.text) := by
      rw [Bool.eq_iff_iff]
      simp
    have hkept := hpast (Request.mem_passwords_of_registered hknown)
    rw [hseparates.verify_protect n hkept hused, hsame]
    rfl

end Registered

end Accounts

namespace Registered

variable {τ : Type} {table : SharedTable τ} {Sound : τ → Prop} {records : τ → UserTable}
  {salts : Nat → Salt} {past : List Request} {backing : Salted τ}

theorem signIn (dependable : table.Dependable Sound records)
    (h : Registered table Sound records salts past backing) {pages : AccountPages (Salted τ)}
    (hpages : pages.credentials = table.store salts) {form : CredentialsForm} (session : Session)
    {passwords : List String} (hseparates : table.policy.Separates salts passwords)
    (hused : form.password ∈ passwords) (hpast : Request.passwords past ⊆ passwords) :
    if Request.registeredPassword? form.username past = some form.password then
      ∃ result, (pages.signIn form session).runFrom backing = (.ok result, backing)
    else
      (pages.signIn form session).runFrom backing = (.error (.auth .invalidCredentials), backing) := by
  rw [AccountPages.signIn, hpages]
  cases hparse : form.parse with
  | error error =>
    rw [if_neg]
    · rfl
    · intro hregistered
      obtain ⟨hvalid, hnonempty⟩ := Request.valid_of_registered hregistered
      rcases CredentialsForm.parse_error hparse with hnone | hempty
      · rw [hnone] at hvalid
        cases hvalid
      · exact hnonempty hempty
  | ok values =>
    obtain ⟨name, password⟩ := values
    obtain ⟨hname, hpassword⟩ := CredentialsForm.parse_ok hparse
    rw [hpassword] at hused
    have hverify := h.verify dependable hseparates name password hused hpast
    rw [hname, hpassword]
    dsimp only
    by_cases hregistered : Request.registeredPassword? name.text past = some password.text
    · rw [if_pos hregistered]
      rw [decide_eq_true hregistered] at hverify
      obtain ⟨n, kept, -, hget⟩ := h.known name hregistered
      have hfind : ((table.store salts).find name).runFrom backing = _ :=
        dependable.runFrom_find h.sound name
      rw [hget] at hfind
      have hlogin := CredentialStore.runFrom_login_of_matched session hverify hfind
      refine ⟨_, Attempt.runFrom_bind_eq_ok.2 ⟨_, _, hlogin, rfl⟩⟩
    · rw [if_neg hregistered]
      rw [decide_eq_false hregistered] at hverify
      have hlogin := CredentialStore.runFrom_login_of_unmatched session hverify
      rw [Attempt.runFrom_bind, hlogin]

theorem signUp (dependable : table.Dependable Sound records)
    (h : Registered table Sound records salts past backing) {pages : AccountPages (Salted τ)}
    (hpages : pages.credentials = table.store salts) {request : Request} {form : CredentialsForm}
    (hregister : IsRegister request) (hform : request.credentials? = some form) :
    Registered table Sound records salts (request :: past)
      ((pages.signUp form).runFrom backing).2 := by
  rw [AccountPages.signUp, hpages]
  cases hparse : form.parse with
  | error error => exact h.silent (Request.registers?_of_invalid hform hparse)
  | ok values =>
    obtain ⟨name, password⟩ := values
    have hafter := h.register dependable (Request.registers?_of_valid hregister hform hparse)
    dsimp only
    rw [Attempt.runFrom_bind, Attempt.runFrom_outcome]
    dsimp only
    rcases (((table.store salts).register name password).runFrom backing).1 with
      (error | error) | user <;> exact hafter

end Registered

end Gatehouse
