import Gatehouse.Proofs.Credentials.Race

set_option autoImplicit false

/-!
# What a race for a name leaves

However the calls take turns and whichever of their steps fail, a name goes to at most one of them,
the user it adds is there from then on, and whoever fails has changed nothing.
-/

namespace Gatehouse.Registering

variable {σ : Type} {table : SharedTable σ} {salts : Nat → Salt} {Sound : σ → Prop}
  {records : σ → UserTable} {call : Call σ} {race : Race σ}

inductive Moves (Sound : σ → Prop) (records : σ → UserTable) (call : Call σ) (shared : Salted σ) :
    Stage σ → Salted σ → Prop where
  | refused (hstage : call.stage = .asking)
      (htaken : (records shared.contents).contains call.name.text = true) :
      Moves Sound records call shared (.turnedAway (.auth .duplicateUsername)) shared
  | unanswered (hstage : call.stage = .asking) (hempty : records shared.contents = .empty)
      (reason : String) :
      Moves Sound records call shared (.turnedAway (.store (.unavailable reason))) shared
  | asked (hstage : call.stage = .asking)
      (hnew : (records shared.contents).contains call.name.text = false) :
      Moves Sound records call shared .protecting shared
  | protects (hstage : call.stage = .protecting) (stored : String) :
      Moves Sound records call shared (.waiting stored) { shared with drawn := shared.drawn + 1 }
  | locks {stored : String} (hstage : call.stage = .waiting stored) :
      Moves Sound records call shared (.reading stored) shared
  | reads {stored : String} (hstage : call.stage = .reading stored) :
      Moves Sound records call shared (.testing stored (records shared.contents)) shared
  | unreadable {stored : String} (hstage : call.stage = .reading stored)
      (hempty : records shared.contents = .empty) (reason : String) :
      Moves Sound records call shared (.releasing (.error (.unavailable reason))) shared
  | taken {stored : String} (hstage : call.stage = .testing stored (records shared.contents))
      (htaken : (records shared.contents).contains call.name.text = true) :
      Moves Sound records call shared (.releasing (.error .userAlreadyExists)) shared
  | begins {stored : String} {left : List (Attempt String σ Unit)}
      (hstage : call.stage = .testing stored (records shared.contents))
      (hnew : (records shared.contents).contains call.name.text = false)
      (hinstalls : Attempt.Installs Sound records
        ((records shared.contents).insert call.name.text stored) left shared.contents) :
      Moves Sound records call shared (.writing stored left) shared
  | fails {stored : String} {step : Attempt String σ Unit} {left : List (Attempt String σ Unit)}
      (hstage : call.stage = .writing stored (step :: left)) {after : Salted σ}
      (hsound : Sound after.contents) (hsame : records after.contents = records shared.contents)
      (reason : String) :
      Moves Sound records call shared (.releasing (.error (.unavailable reason))) after
  | hides {stored : String} {step : Attempt String σ Unit} {left : List (Attempt String σ Unit)}
      (hstage : call.stage = .writing stored (step :: left)) {after : Salted σ}
      (hnew : (records shared.contents).contains call.name.text = false)
      (hsound : Sound after.contents) (hsame : records after.contents = records shared.contents)
      (hinstalls : Attempt.Installs Sound records
        ((records shared.contents).insert call.name.text stored) left after.contents) :
      Moves Sound records call shared (.writing stored left) after
  | shows {stored : String} {step : Attempt String σ Unit}
      (hstage : call.stage = .writing stored [step]) {after : Salted σ}
      (hnew : (records shared.contents).contains call.name.text = false)
      (hsound : Sound after.contents)
      (hadds : records after.contents =
        (records shared.contents).insert call.name.text stored) :
      Moves Sound records call shared (.writing stored []) after
  | wrote {stored : String} (hstage : call.stage = .writing stored []) :
      Moves Sound records call shared (.releasing (.ok (.named call.name stored))) shared
  | releases {result : Except CredentialError User} (hstage : call.stage = .releasing result) :
      Moves Sound records call shared (.finished result) shared

/-- The result of a call for a name: its user, or a refusal that is no failure of the store's own. -/
def IsResult (name : Username) : Except CredentialError User → Prop
  | .ok user => user = .named name user.storedPassword
  | .error error => error = .userAlreadyExists ∨ ∃ reason, error = .unavailable reason

/-- What the stage of a call says of the table. -/
structure Stands (Sound : σ → Prop) (records : σ → UserTable) (call : Call σ) (state : σ) :
    Prop where
  tested {stored : String} {users : UserTable} :
    call.stage = .testing stored users → users = records state
  pending {stored : String} {step : Attempt String σ Unit} {left : List (Attempt String σ Unit)} :
    call.stage = .writing stored (step :: left) →
      (records state).contains call.name.text = false ∧
        Attempt.Installs Sound records ((records state).insert call.name.text stored)
          (step :: left) state
  added {stored : String} : call.stage.added? = some stored →
    (records state).get? call.name.text = some stored
  result {result : Except CredentialError User} :
    call.stage.result? = some result → IsResult call.name result
  refused {error : RegisterError} : call.stage = .turnedAway error →
    error = .auth .duplicateUsername ∨ ∃ reason, error = .store (.unavailable reason)

theorem moves_asking (keeping : table.Keeping Sound records) {shared : Salted σ}
    (hsound : Sound shared.contents) (hstage : call.stage = .asking) :
    Moves Sound records call shared (call.next table salts shared).1
      (call.next table salts shared).2 := by
  rw [Call.next, hstage]
  dsimp only
  rw [SharedTable.isTaken, Attempt.runFrom_bind]
  rcases keeping.readUsers hsound with hread | ⟨hempty, reason, hread⟩
  · rw [hread]
    dsimp only
    rw [Attempt.runFrom_pure]
    cases htaken : (records shared.contents).contains call.name.text with
    | true => exact .refused hstage htaken
    | false => exact .asked hstage htaken
  · rw [hread]
    exact .unanswered hstage hempty reason

theorem moves_reading (keeping : table.Keeping Sound records) {shared : Salted σ}
    (hsound : Sound shared.contents) {stored : String} (hstage : call.stage = .reading stored) :
    Moves Sound records call shared (call.next table salts shared).1
      (call.next table salts shared).2 := by
  rw [Call.next, hstage]
  dsimp only
  rcases keeping.readUsers hsound with hread | ⟨hempty, reason, hread⟩
  · rw [hread]
    exact .reads hstage
  · rw [hread]
    exact .unreadable hstage hempty reason

theorem moves_testing (keeping : table.Keeping Sound records) {shared : Salted σ}
    (hsound : Sound shared.contents) {stored : String}
    (hstage : call.stage = .testing stored (records shared.contents)) :
    Moves Sound records call shared (call.next table salts shared).1
      (call.next table salts shared).2 := by
  rw [Call.next, hstage]
  dsimp only
  cases htaken : (records shared.contents).contains call.name.text with
  | true => exact .taken hstage htaken
  | false => exact .begins hstage htaken (keeping.installs _ hsound)

theorem moves_writing {shared : Salted σ} {stored : String} {step : Attempt String σ Unit}
    {left : List (Attempt String σ Unit)} (hstage : call.stage = .writing stored (step :: left))
    (hnew : (records shared.contents).contains call.name.text = false)
    (hinstalls : Attempt.Installs Sound records
      ((records shared.contents).insert call.name.text stored) (step :: left) shared.contents) :
    Moves Sound records call shared (call.next table salts shared).1
      (call.next table salts shared).2 := by
  rw [Call.next, hstage]
  dsimp only
  rw [SharedTable.runFrom_inStore]
  rcases hrun : step.runFrom shared.contents with ⟨outcome, after⟩
  cases outcome with
  | error reason =>
    have hfailed : Sound after ∧ records after = records shared.contents := by
      cases hinstalls with
      | last failed done => exact failed _ _ hrun
      | more failed hidden next => exact failed _ _ hrun
    exact .fails hstage hfailed.1 hfailed.2 reason
  | ok value =>
    cases hinstalls with
    | last failed done =>
      obtain ⟨hsound, hadds⟩ := done _ hrun
      exact .shows hstage hnew hsound hadds
    | more failed hidden next =>
      obtain ⟨hsound, hsame⟩ := hidden _ hrun
      exact .hides hstage hnew hsound hsame (next _ hrun)

theorem moves_next (keeping : table.Keeping Sound records) (salts : Nat → Salt)
    {shared : Salted σ}
    (hsound : Sound shared.contents) (hstands : Stands Sound records call shared.contents)
    (hover : call.stage.isOver = false) :
    Moves Sound records call shared (call.next table salts shared).1
      (call.next table salts shared).2 := by
  cases hstage : call.stage with
  | asking => exact moves_asking keeping hsound hstage
  | protecting =>
    rw [Call.next, hstage]
    exact .protects hstage _
  | waiting stored =>
    rw [Call.next, hstage]
    exact .locks hstage
  | reading stored => exact moves_reading keeping hsound hstage
  | testing stored users =>
    obtain rfl := hstands.tested hstage
    exact moves_testing keeping hsound hstage
  | writing stored left =>
    cases left with
    | nil =>
      rw [Call.next, hstage]
      exact .wrote hstage
    | cons step left =>
      obtain ⟨hnew, hinstalls⟩ := hstands.pending hstage
      exact moves_writing hstage hnew hinstalls
  | releasing result =>
    rw [Call.next, hstage]
    exact .releases hstage
  | finished result | turnedAway error =>
    rw [hstage] at hover
    cases hover

structure Orderly (Sound : σ → Prop) (records : σ → UserTable) (race : Race σ) : Prop where
  sound : Sound race.shared.contents
  exclusive {i j : Nat} {a b : Call σ} : race.calls[i]? = some a → race.calls[j]? = some b →
    a.stage.holdsLock = true → b.stage.holdsLock = true → i = j
  stands {i : Nat} {call : Call σ} : race.calls[i]? = some call →
    Stands Sound records call race.shared.contents
  unique {i j : Nat} {a b : Call σ} : race.calls[i]? = some a → race.calls[j]? = some b →
    a.stage.added?.isSome → b.stage.added?.isSome → a.name = b.name → i = j

theorem getElem?_put {i j : Nat} {other new : Call σ} (hcall : race.calls[i]? = some call)
    {shared : Salted σ} :
    (race.put i new shared).calls[j]? = some other ↔
      (j = i ∧ new = other) ∨ (j ≠ i ∧ race.calls[j]? = some other) := by
  have hi : i < race.calls.length := (List.getElem?_eq_some_iff.1 hcall).1
  rw [Race.put, List.getElem?_set]
  by_cases hj : i = j
  · subst hj
    simp [hi]
  · have hji : j ≠ i := fun he => hj he.symm
    simp [hj, hji]

theorem Stands.of_idle {state after : σ} (h : Stands Sound records call state)
    (hidle : call.stage.holdsLock = false) (hextends : (records state).Extends (records after)) :
    Stands Sound records call after where
  tested hstage := by
    rw [hstage] at hidle
    cases hidle
  pending hstage := by
    rw [hstage] at hidle
    cases hidle
  added hadded := hextends _ _ (h.added hadded)
  result := h.result
  refused := h.refused

theorem free_of_not_isLocked (hfree : race.isLocked = false) {j : Nat} {other : Call σ}
    (hother : race.calls[j]? = some other) : other.stage.holdsLock = false := by
  have hmem := List.mem_of_getElem? hother
  rw [Race.isLocked, List.any_eq_false] at hfree
  simpa using hfree other hmem

/-- Order stays when a call takes a step: with the lock or while it is free, and changing the table
only with the lock. -/
theorem Orderly.put (h : Orderly Sound records race) {i : Nat}
    (hcall : race.calls[i]? = some call) {stage : Stage σ} {shared : Salted σ}
    (hsound : Sound shared.contents)
    (hlock : stage.holdsLock = true → call.stage.holdsLock = true ∨ race.isLocked = false)
    (hstands : Stands Sound records (call.moveTo stage) shared.contents)
    (hadded : stage.added?.isSome → call.stage.added?.isSome ∨
      (records race.shared.contents).get? call.name.text = none)
    (hshared : shared.contents = race.shared.contents ∨ call.stage.holdsLock = true ∧
      (records race.shared.contents).Extends (records shared.contents)) :
    Orderly Sound records (race.put i (call.moveTo stage) shared) := by
  have halone : ∀ {j : Nat} {other : Call σ}, race.calls[j]? = some other → j ≠ i →
      call.stage.holdsLock = true ∨ race.isLocked = false → other.stage.holdsLock = false := by
    intro j other hother hne hmay
    rcases hmay with hholds | hfree
    · by_contra hlocked
      exact hne (h.exclusive hother hcall (by simpa using hlocked) hholds)
    · exact free_of_not_isLocked hfree hother
  have hapart : ∀ {j : Nat} {other : Call σ}, race.calls[j]? = some other → j ≠ i →
      stage.added?.isSome → other.stage.added?.isSome → other.name ≠ call.name := by
    intro j other hother hne hnew hold hname
    rcases hadded hnew with hbefore | hnone
    · exact hne (h.unique hother hcall hold hbefore hname)
    · obtain ⟨stored, hstored⟩ := Option.isSome_iff_exists.1 hold
      have hrecorded := (h.stands hother).added hstored
      rw [hname, hnone] at hrecorded
      cases hrecorded
  constructor
  · exact hsound
  · intro j k a b ha hb hja hjb
    rcases (getElem?_put hcall).1 ha with ⟨rfl, rfl⟩ | ⟨hne, ha⟩
    · rcases (getElem?_put hcall).1 hb with ⟨hk, -⟩ | ⟨hne, hb⟩
      · exact hk.symm
      · rw [halone hb hne (hlock hja)] at hjb
        cases hjb
    · rcases (getElem?_put hcall).1 hb with ⟨-, rfl⟩ | ⟨-, hb⟩
      · rw [halone ha hne (hlock hjb)] at hja
        cases hja
      · exact h.exclusive ha hb hja hjb
  · intro j other hother
    rcases (getElem?_put hcall).1 hother with ⟨rfl, rfl⟩ | ⟨hne, hother⟩
    · exact hstands
    · rcases hshared with hsame | ⟨hholds, hextends⟩
      · change Stands Sound records other shared.contents
        rw [hsame]
        exact h.stands hother
      · exact (h.stands hother).of_idle (halone hother hne (.inl hholds)) hextends
  · intro j k a b ha hb hja hjb hname
    rcases (getElem?_put hcall).1 ha with ⟨rfl, rfl⟩ | ⟨hne, ha⟩
    · rcases (getElem?_put hcall).1 hb with ⟨hk, -⟩ | ⟨hne, hb⟩
      · exact hk.symm
      · exact absurd hname.symm (hapart hb hne hja hjb)
    · rcases (getElem?_put hcall).1 hb with ⟨-, rfl⟩ | ⟨-, hb⟩
      · exact absurd hname (hapart ha hne hjb hja)
      · exact h.unique ha hb hja hjb hname

namespace Moves

variable {shared after : Salted σ} {stage : Stage σ}

theorem sound (h : Moves Sound records call shared stage after) (hsound : Sound shared.contents) :
    Sound after.contents := by
  cases h with
  | fails _ hafter | hides _ _ hafter | shows _ _ hafter => exact hafter
  | _ => exact hsound

theorem lock (h : Moves Sound records call shared stage after) (hholds : stage.holdsLock = true) :
    call.stage.holdsLock = true ∨ call.stage.waits = true := by
  cases h with
  | refused | unanswered | asked | protects | releases => cases hholds
  | locks hstage =>
    rw [hstage]
    exact .inr rfl
  | reads hstage | unreadable hstage | taken hstage | begins hstage | fails hstage | hides hstage
  | shows hstage | wrote hstage =>
    rw [hstage]
    exact .inl rfl

/-- The table changes only under the lock, and only by what is added. -/
theorem extends_records (h : Moves Sound records call shared stage after) :
    after.contents = shared.contents ∨ call.stage.holdsLock = true ∧
      (records shared.contents).Extends (records after.contents) := by
  cases h with
  | fails hstage _ hsame | hides hstage _ _ hsame =>
    rw [hstage, hsame]
    exact .inr ⟨rfl, fun _ _ h => h⟩
  | shows hstage hnew _ hadds =>
    rw [hstage, hadds]
    exact .inr ⟨rfl, UserTable.extends_insert _ hnew⟩
  | _ => exact .inl rfl

theorem added_new (h : Moves Sound records call shared stage after)
    (hadded : stage.added?.isSome) : call.stage.added?.isSome ∨
      (records shared.contents).get? call.name.text = none := by
  cases h with
  | shows hstage hnew => exact .inr (UserTable.get?_of_contains_false hnew)
  | hides hstage hnew => exact .inr (UserTable.get?_of_contains_false hnew)
  | begins hstage hnew => exact .inr (UserTable.get?_of_contains_false hnew)
  | wrote hstage =>
    rw [hstage]
    exact .inl rfl
  | @releases result hstage =>
    rw [hstage]
    cases result with
    | ok user => exact .inl rfl
    | error error => cases hadded
  | _ => cases hadded

theorem changes (h : Moves Sound records call shared stage after) :
    records after.contents = records shared.contents ∨ stage.added?.isSome := by
  cases h with
  | fails _ _ hsame | hides _ _ _ hsame => exact .inl hsame
  | shows => exact .inr rfl
  | _ => exact .inl rfl

theorem keeps_added (h : Moves Sound records call shared stage after) {stored : String}
    (hadded : call.stage.added? = some stored) : stage.added? = some stored := by
  cases h with
  | wrote hstage =>
    rw [hstage] at hadded
    exact hadded
  | @releases result hstage =>
    rw [hstage] at hadded
    cases result with
    | ok user => exact hadded
    | error error => cases hadded
  | refused hstage | unanswered hstage | asked hstage | protects hstage | locks hstage
  | reads hstage | unreadable hstage | taken hstage | begins hstage | fails hstage | hides hstage
  | shows hstage =>
    rw [hstage] at hadded
    cases hadded

end Moves

theorem stands_moveTo_of_early {stage : Stage σ} {state : σ}
    (hstage : stage = .protecting ∨ (∃ stored, stage = .waiting stored) ∨
      ∃ stored, stage = .reading stored) : Stands Sound records (call.moveTo stage) state := by
  rcases hstage with rfl | ⟨stored, rfl⟩ | ⟨stored, rfl⟩ <;>
    exact ⟨nofun, nofun, nofun, nofun, nofun⟩

theorem stands_moveTo_of_result (result : Except CredentialError User) {state : σ}
    (hresult : IsResult call.name result)
    (hadded : ∀ user, result = .ok user →
      (records state).get? call.name.text = some user.storedPassword)
    {stage : Stage σ} (hstage : stage = .releasing result ∨ stage = .finished result) :
    Stands Sound records (call.moveTo stage) state where
  tested h := by rcases hstage with rfl | rfl <;> cases h
  pending h := by rcases hstage with rfl | rfl <;> cases h
  refused h := by rcases hstage with rfl | rfl <;> cases h
  result {other} h := by
    have hother : result = other := by rcases hstage with rfl | rfl <;> exact Option.some.inj h
    rwa [← hother]
  added {stored} h := by
    cases result with
    | ok user =>
      have hstored : user.storedPassword = stored := by
        rcases hstage with rfl | rfl <;> exact Option.some.inj h
      rw [← hstored]
      exact hadded user rfl
    | error error => rcases hstage with rfl | rfl <;> cases h

theorem stands_moveTo_of_turnedAway {error : RegisterError} {state : σ}
    (herror : error = .auth .duplicateUsername ∨ ∃ reason, error = .store (.unavailable reason)) :
    Stands Sound records (call.moveTo (.turnedAway error)) state where
  tested := nofun
  pending := nofun
  added := nofun
  result := nofun
  refused h := by
    cases h
    exact herror

theorem stands_moveTo_of_writing {stored : String} {left : List (Attempt String σ Unit)}
    {state : σ} (hnew : (records state).contains call.name.text = false)
    (hinstalls : Attempt.Installs Sound records ((records state).insert call.name.text stored)
      left state) : Stands Sound records (call.moveTo (.writing stored left)) state where
  tested := nofun
  pending h := by
    cases h
    exact ⟨hnew, hinstalls⟩
  added h := by
    cases left with
    | nil => exact absurd rfl hinstalls.ne_nil
    | cons step left => cases h
  result := nofun
  refused := nofun

theorem Moves.stands {shared after : Salted σ} {stage : Stage σ}
    (h : Moves Sound records call shared stage after)
    (hstands : Stands Sound records call shared.contents) :
    Stands Sound records (call.moveTo stage) after.contents := by
  cases h with
  | refused => exact stands_moveTo_of_turnedAway (.inl rfl)
  | unanswered _ _ reason => exact stands_moveTo_of_turnedAway (.inr ⟨reason, rfl⟩)
  | asked => exact stands_moveTo_of_early (.inl rfl)
  | protects _ stored => exact stands_moveTo_of_early (.inr (.inl ⟨stored, rfl⟩))
  | locks => exact stands_moveTo_of_early (.inr (.inr ⟨_, rfl⟩))
  | reads =>
    refine ⟨?_, nofun, nofun, nofun, nofun⟩
    rintro _ _ ⟨⟩
    rfl
  | unreadable _ _ reason =>
    exact stands_moveTo_of_result (.error (.unavailable reason)) (.inr ⟨reason, rfl⟩)
      nofun (.inl rfl)
  | taken =>
    exact stands_moveTo_of_result (.error .userAlreadyExists) (.inl rfl) nofun (.inl rfl)
  | fails _ _ _ reason =>
    exact stands_moveTo_of_result (.error (.unavailable reason)) (.inr ⟨reason, rfl⟩)
      nofun (.inl rfl)
  | begins _ hnew hinstalls => exact stands_moveTo_of_writing hnew hinstalls
  | hides _ hnew _ hsame hinstalls =>
    rw [← hsame] at hnew hinstalls
    exact stands_moveTo_of_writing hnew hinstalls
  | shows hstage _ _ hadds =>
    refine ⟨nofun, nofun, ?_, nofun, nofun⟩
    rintro _ ⟨⟩
    rw [hadds, UserTable.get?_insert]
    exact if_pos rfl
  | @wrote stored hstage =>
    have hrecorded := hstands.added (show call.stage.added? = some stored by rw [hstage]; rfl)
    exact stands_moveTo_of_result (.ok (.named call.name stored)) rfl
      (by rintro _ ⟨⟩; exact hrecorded) (.inl rfl)
  | @releases result hstage =>
    have hadded : ∀ user, result = .ok user →
        (records shared.contents).get? call.name.text = some user.storedPassword := by
      rintro user rfl
      exact hstands.added (by rw [hstage]; rfl)
    have hresult := hstands.result (show call.stage.result? = some result by rw [hstage]; rfl)
    exact stands_moveTo_of_result result hresult hadded (.inr rfl)

theorem Orderly.move (keeping : table.Keeping Sound records) (h : Orderly Sound records race)
    {i : Nat} (hcall : race.calls[i]? = some call) (hover : call.stage.isOver = false)
    (hlock : call.stage.waits = true → race.isLocked = false) :
    Orderly Sound records (race.put i (call.moveTo (call.next table salts race.shared).1)
      (call.next table salts race.shared).2) := by
  have hmoves := moves_next keeping salts h.sound (h.stands hcall) hover
  exact h.put hcall (hmoves.sound h.sound) (fun hholds => (hmoves.lock hholds).imp_right hlock)
    (hmoves.stands (h.stands hcall)) hmoves.added_new hmoves.extends_records

theorem getElem?_begins {calls : List (Call σ)} {new other : Call σ} {j : Nat} :
    (calls ++ [new])[j]? = some other ↔
      calls[j]? = some other ∨ (j = calls.length ∧ new = other) := by
  rw [List.getElem?_append]
  by_cases hj : j < calls.length
  · have hne : j ≠ calls.length := by omega
    simp [hj, hne]
  · by_cases he : j = calls.length
    · simp [he]
    · have hbeyond : j - calls.length ≠ 0 := by omega
      simp [hj, he, hbeyond]

theorem start_stage (name : Username) (password : Password) (registers : Bool) :
    (Call.start name password registers : Call σ).stage = .asking ∨
      (Call.start name password registers : Call σ).stage = .protecting := by
  cases registers
  · exact .inr rfl
  · exact .inl rfl

theorem Orderly.begins (h : Orderly Sound records race) (name : Username) (password : Password)
    (registers : Bool) :
    Orderly Sound records ⟨race.shared, race.calls ++ [.start name password registers]⟩ := by
  have hstage := start_stage (σ := σ) name password registers
  generalize hnew : (Call.start name password registers : Call σ) = new at hstage
  have hholds : new.stage.holdsLock = false := by rcases hstage with h | h <;> rw [h] <;> rfl
  have hadded : new.stage.added? = none := by rcases hstage with h | h <;> rw [h] <;> rfl
  constructor
  · exact h.sound
  · intro i j a b ha hb hia hjb
    rcases getElem?_begins.1 ha with ha | ⟨hi, rfl⟩
    · rcases getElem?_begins.1 hb with hb | ⟨-, rfl⟩
      · exact h.exclusive ha hb hia hjb
      · rw [hholds] at hjb
        cases hjb
    · rw [hholds] at hia
      cases hia
  · intro i call hcall
    rcases getElem?_begins.1 hcall with hcall | ⟨-, rfl⟩
    · exact h.stands hcall
    · constructor
      · intro _ _ hs
        rcases hstage with h | h <;> rw [h] at hs <;> cases hs
      · intro _ _ _ hs
        rcases hstage with h | h <;> rw [h] at hs <;> cases hs
      · intro _ hs
        rw [hadded] at hs
        cases hs
      · intro _ hs
        rcases hstage with h | h <;> rw [h] at hs <;> cases hs
      · intro _ hs
        rcases hstage with h | h <;> rw [h] at hs <;> cases hs
  · intro i j a b ha hb hia hjb hname
    rcases getElem?_begins.1 ha with ha | ⟨hi, rfl⟩
    · rcases getElem?_begins.1 hb with hb | ⟨-, rfl⟩
      · exact h.unique ha hb hia hjb hname
      · rw [hadded] at hjb
        cases hjb
    · rw [hadded] at hia
      cases hia

theorem Orderly.step (keeping : table.Keeping Sound records) (h : Orderly Sound records race)
    {actor : Option Nat} {after : Race σ} (hstep : Step table salts race actor after) :
    Orderly Sound records after := by
  cases hstep with
  | begins name password registers => exact h.begins name password registers
  | moves hcall hover hlock => exact h.move keeping hcall hover hlock
  | asks question =>
    rw [question.leaves_eq (keeping.readUsers_leaves h.sound)]
    exact h

theorem Orderly.run (keeping : table.Keeping Sound records) (h : Orderly Sound records race)
    {later : Race σ} (hrun : Run table salts race later) : Orderly Sound records later := by
  induction hrun with
  | refl => exact h
  | tail hbefore hstep ih =>
    obtain ⟨actor, hstep⟩ := hstep
    exact ih.step keeping hstep

theorem extends_of_step (keeping : table.Keeping Sound records) (h : Orderly Sound records race)
    {actor : Option Nat} {after : Race σ} (hstep : Step table salts race actor after) :
    (records race.shared.contents).Extends (records after.shared.contents) := by
  cases hstep with
  | begins name password registers => exact fun _ _ h => h
  | asks question =>
    rw [question.leaves_eq (keeping.readUsers_leaves h.sound)]
    exact fun _ _ h => h
  | @moves i call hcall hover hlock =>
    have hmoves := moves_next keeping salts h.sound (h.stands hcall) hover
    rcases hmoves.extends_records with hsame | ⟨-, hextends⟩
    · rw [Race.put, hsame]
      exact fun _ _ h => h
    · exact hextends

theorem call_of_step (keeping : table.Keeping Sound records) (h : Orderly Sound records race)
    {actor : Option Nat} {after : Race σ} (hstep : Step table salts race actor after) {i : Nat}
    (hcall : race.calls[i]? = some call) :
    after.calls[i]? = some call ∧ actor ≠ some i ∨
      ∃ stage, after.calls[i]? = some (call.moveTo stage) ∧
        Moves Sound records call race.shared stage after.shared := by
  cases hstep with
  | begins name password registers =>
    exact .inl ⟨getElem?_begins.2 (.inl hcall), nofun⟩
  | asks question => exact .inl ⟨hcall, nofun⟩
  | @moves j other hother hover hlock =>
    by_cases hj : i = j
    · subst hj
      obtain rfl : other = call := Option.some.inj (hother.symm.trans hcall)
      have hmoves := moves_next keeping salts h.sound (h.stands hcall) hover
      exact .inr ⟨_, (getElem?_put hother).2 (.inl ⟨rfl, rfl⟩), hmoves⟩
    · exact .inl ⟨(getElem?_put hother).2 (.inr ⟨hj, hcall⟩), fun he => hj (Option.some.inj he).symm⟩

/-- What a call's own steps keep true, and what more users in the table leave true, is true of it as
long as the race goes on. -/
theorem call_of_run (keeping : table.Keeping Sound records) {P : Stage σ → UserTable → Prop}
    (hmoves : ∀ {stage next : Stage σ} {shared after : Salted σ},
      P stage (records shared.contents) →
      Moves Sound records (call.moveTo stage) shared next after →
      P next (records after.contents))
    (hextends : ∀ {stage : Stage σ} {users more : UserTable},
      P stage users → users.Extends more → P stage more)
    (h : Orderly Sound records race) {later : Race σ} (hrun : Run table salts race later) {i : Nat}
    (hcall : race.calls[i]? = some call)
    (hstart : P call.stage (records race.shared.contents)) :
    ∃ stage, later.calls[i]? = some (call.moveTo stage) ∧
      P stage (records later.shared.contents) := by
  induction hrun with
  | refl => exact ⟨call.stage, hcall, hstart⟩
  | tail hbefore hstep ih =>
    obtain ⟨actor, hstep⟩ := hstep
    obtain ⟨stage, hmid, hp⟩ := ih
    have hmidOrderly := h.run keeping hbefore
    rcases call_of_step keeping hmidOrderly hstep hmid with ⟨hsame, -⟩ | ⟨next, hnext, hmove⟩
    · exact ⟨stage, hsame, hextends hp (extends_of_step keeping hmidOrderly hstep)⟩
    · exact ⟨next, hnext, hmoves hp hmove⟩

theorem added_of_run (keeping : table.Keeping Sound records) (h : Orderly Sound records race)
    {later : Race σ} (hrun : Run table salts race later) {i : Nat}
    (hcall : race.calls[i]? = some call) {stored : String}
    (hadded : call.stage.added? = some stored) :
    ∃ stage, later.calls[i]? = some (call.moveTo stage) ∧ stage.added? = some stored :=
  call_of_run keeping (P := fun stage _ => stage.added? = some stored)
    (fun hp hmove => hmove.keeps_added hp) (fun hp _ => hp) h hrun hcall hadded

/-- A call that has not yet looked for its name under the lock, or has found it taken. -/
def Stage.comesLate : Stage σ → Bool
  | .asking | .protecting | .waiting _ | .reading _ | .testing _ _ => true
  | .releasing (.error .userAlreadyExists) | .finished (.error .userAlreadyExists) => true
  | .turnedAway (.auth .duplicateUsername) => true
  | _ => false

theorem Moves.comesLate {shared after : Salted σ} {stage : Stage σ}
    (h : Moves Sound records call shared stage after)
    (htaken : (records shared.contents).contains call.name.text = true)
    (hlate : call.stage.comesLate = true) : stage.comesLate = true := by
  cases h with
  | unanswered _ hempty | unreadable _ hempty =>
    rw [hempty] at htaken
    cases htaken
  | begins _ hnew | hides _ hnew | shows _ hnew =>
    rw [hnew] at htaken
    cases htaken
  | fails hstage | wrote hstage =>
    rw [hstage] at hlate
    cases hlate
  | @releases result hstage =>
    rw [hstage] at hlate
    cases result with
    | ok user => cases hlate
    | error error => cases error <;> first | rfl | cases hlate
  | refused | asked | protects | locks | reads | taken => rfl

theorem comesLate_of_run (keeping : table.Keeping Sound records) (h : Orderly Sound records race)
    {later : Race σ} (hrun : Run table salts race later) {i : Nat}
    (hcall : race.calls[i]? = some call) {stored : String}
    (htaken : (records race.shared.contents).get? call.name.text = some stored)
    (hlate : call.stage.comesLate = true) :
    ∃ stage, later.calls[i]? = some (call.moveTo stage) ∧ stage.comesLate = true := by
  let P (stage : Stage σ) (users : UserTable) : Prop :=
    users.get? call.name.text = some stored ∧ stage.comesLate = true
  have hmoves : ∀ {stage next : Stage σ} {shared after : Salted σ},
      P stage (records shared.contents) →
      Moves Sound records (call.moveTo stage) shared next after →
      P next (records after.contents) := by
    intro stage next shared after hp hmove
    have hcontains : (records shared.contents).contains call.name.text = true := by
      rw [UserTable.contains, hp.1]
      rfl
    refine ⟨?_, hmove.comesLate hcontains hp.2⟩
    rcases hmove.extends_records with hsame | ⟨-, hextends⟩
    · rw [hsame]
      exact hp.1
    · exact hextends _ _ hp.1
  obtain ⟨stage, hlater, -, hstage⟩ := call_of_run keeping (P := P) hmoves
    (fun hp hextends => ⟨hextends _ _ hp.1, hp.2⟩) h hrun hcall ⟨htaken, hlate⟩
  exact ⟨stage, hlater, hstage⟩

theorem answer_of_comesLate (hlate : call.stage.comesLate = true)
    {answer : Except RegisterError User} (hanswer : call.answer? = some answer) :
    answer = .error (.auth .duplicateUsername) := by
  unfold Call.answer? at hanswer
  cases hstage : call.stage with
  | finished result =>
    rw [hstage] at hanswer hlate
    cases result with
    | ok user => cases hlate
    | error error =>
      cases error with
      | userAlreadyExists => exact (Option.some.inj hanswer).symm
      | unavailable | unexpected => cases hlate
  | turnedAway error =>
    rw [hstage] at hanswer hlate
    cases error with
    | auth error =>
      cases error with
      | duplicateUsername => exact (Option.some.inj hanswer).symm
      | invalidCredentials | missingStoreFile | unauthenticatedAccess => cases hlate
    | store error => cases hlate
  | _ =>
    rw [hstage] at hanswer
    cases hanswer

theorem added?_of_answer {error : RegisterError} (hanswer : call.answer? = some (.error error)) :
    call.stage.added? = none := by
  unfold Call.answer? at hanswer
  cases hstage : call.stage with
  | finished result =>
    rw [hstage] at hanswer
    cases result with
    | ok user => cases hanswer
    | error error => rfl
  | turnedAway error => rfl
  | _ =>
    rw [hstage] at hanswer
    cases hanswer

/-- The steps of a call that will fail leave the records as they are. -/
theorem records_of_failed (keeping : table.Keeping Sound records)
    (h : Orderly Sound records race) {after later : Race σ} {i : Nat}
    (hstep : Step table salts race (some i) after) (hlater : Run table salts after later)
    (hcall : later.calls[i]? = some call) {error : RegisterError}
    (hanswer : call.answer? = some (.error error)) :
    records after.shared.contents = records race.shared.contents := by
  have hafter := h.step keeping hstep
  cases hstep with
  | @moves i before hbefore hover hlock =>
    have hmoves := moves_next keeping salts h.sound (h.stands hbefore) hover
    rcases hmoves.changes with hsame | hadded
    · exact hsame
    · obtain ⟨stored, hstored⟩ := Option.isSome_iff_exists.1 hadded
      let moved := before.next table salts race.shared
      have hnow : (race.put i (before.moveTo moved.1) moved.2).calls[i]? =
          some (before.moveTo moved.1) := (getElem?_put hbefore).2 (.inl ⟨rfl, rfl⟩)
      obtain ⟨stage, hstill, hstage⟩ := added_of_run keeping hafter hlater hnow hstored
      obtain rfl := Option.some.inj (hstill.symm.trans hcall)
      have hnone := added?_of_answer hanswer
      rw [Call.moveTo, hstage] at hnone
      cases hnone

theorem answer_of_stands {state : σ} (hstands : Stands Sound records call state)
    {answer : Except RegisterError User} (hanswer : call.answer? = some answer) :
    (∃ user, answer = .ok user) ∨ answer = .error (.auth .duplicateUsername) ∨
      ∃ reason, answer = .error (.store (.unavailable reason)) := by
  unfold Call.answer? at hanswer
  cases hstage : call.stage with
  | finished result =>
    have hresult := hstands.result (show call.stage.result? = some result by rw [hstage]; rfl)
    rw [hstage] at hanswer
    obtain rfl := Option.some.inj hanswer
    cases result with
    | ok user => exact .inl ⟨user, rfl⟩
    | error error =>
      rcases hresult with rfl | ⟨reason, rfl⟩
      · exact .inr (.inl rfl)
      · exact .inr (.inr ⟨reason, rfl⟩)
  | turnedAway error =>
    rw [hstage] at hanswer
    obtain rfl := Option.some.inj hanswer
    rcases hstands.refused hstage with rfl | ⟨reason, rfl⟩
    · exact .inr (.inl rfl)
    · exact .inr (.inr ⟨reason, rfl⟩)
  | _ =>
    rw [hstage] at hanswer
    cases hanswer

/-- What holds of every race on a store, from a state on in which no call is under way. The steps are
those of a table, and a call that nobody interrupts does what the store says. -/
structure KeepsRegistrations (store : CredentialStore (Salted σ)) (table : SharedTable σ)
    (salts : Nat → Salt) (start : Salted σ) : Prop where
  create_alone {race : Race σ} : Run table salts ⟨start, []⟩ race → race.isLocked = false →
    ∀ name password, Run table salts
      ⟨race.shared, race.calls ++ [.start name password false]⟩
      ⟨((store.create name password).runFrom race.shared).2, race.calls ++
        [⟨name, password, false, .finished ((store.create name password).runFrom race.shared).1⟩]⟩
  register_alone {race : Race σ} : Run table salts ⟨start, []⟩ race → race.isLocked = false →
    ∀ name password, ∃ call : Call σ,
      call.answer? = some ((store.register name password).runFrom race.shared).1 ∧
        Run table salts ⟨race.shared, race.calls ++ [.start name password true]⟩
          ⟨((store.register name password).runFrom race.shared).2, race.calls ++ [call]⟩
  once {race : Race σ} {i j : Nat} {a b : Call σ} {user other : User} :
    Run table salts ⟨start, []⟩ race → race.calls[i]? = some a → race.calls[j]? = some b →
    a.stage = .finished (.ok user) → b.stage = .finished (.ok other) → a.name = b.name → i = j
  kept {race later : Race σ} {i : Nat} {call : Call σ} {user : User} :
    Run table salts ⟨start, []⟩ race → race.calls[i]? = some call →
    call.stage = .finished (.ok user) → Run table salts race later →
    user.username = call.name ∧ store.Finds later.shared user ∧
      (store.isTaken call.name).runFrom later.shared = (.ok true, later.shared) ∧
      ∀ password, (store.verify call.name password).runFrom later.shared =
        (table.policy.answer user.storedPassword password).runFrom later.shared
  /-- A step of a call that will fail has changed nothing that is found. -/
  failed {race after later : Race σ} {i : Nat} {call : Call σ} {error : RegisterError} :
    Run table salts ⟨start, []⟩ race → Step table salts race (some i) after →
    Run table salts after later → later.calls[i]? = some call →
    call.answer? = some (.error error) →
    ∀ user, store.Finds race.shared user ↔ store.Finds after.shared user
  stays {race after : Race σ} {actor : Option Nat} {user : User} :
    Run table salts ⟨start, []⟩ race → Step table salts race actor after →
    store.Finds race.shared user → store.Finds after.shared user
  /-- Who has not looked for the name under the lock when it is taken is told that it is taken. -/
  late {race later : Race σ} {i : Nat} {call done : Call σ} {user : User}
      {answer : Except RegisterError User} :
    Run table salts ⟨start, []⟩ race → race.calls[i]? = some call →
    call.stage.comesLate = true → store.Finds race.shared user → user.username = call.name →
    Run table salts race later → later.calls[i]? = some done → done.answer? = some answer →
    answer = .error (.auth .duplicateUsername)
  answered {race : Race σ} {i : Nat} {call : Call σ} {answer : Except RegisterError User} :
    Run table salts ⟨start, []⟩ race → race.calls[i]? = some call → call.answer? = some answer →
    (∃ user, answer = .ok user) ∨ answer = .error (.auth .duplicateUsername) ∨
      ∃ reason, answer = .error (.store (.unavailable reason))

theorem orderly_start {start : Salted σ} (hsound : Sound start.contents) :
    Orderly Sound records ⟨start, []⟩ where
  sound := hsound
  exclusive h := nomatch h
  stands h := nomatch h
  unique h := nomatch h

theorem finds_iff (keeping : table.Keeping Sound records) {shared : Salted σ}
    (hsound : Sound shared.contents) {user : User} :
    (table.store salts).Finds shared user ↔ user = .named user.username user.storedPassword ∧
      (records shared.contents).get? user.username.text = some user.storedPassword := by
  constructor
  · intro hfind
    have hget := keeping.find_eq_some hsound hfind
    have hnamed := hfind.symm.trans (keeping.find_of_some hsound hget)
    exact ⟨Option.some.inj (Except.ok.inj (Prod.mk.inj hnamed).1), hget⟩
  · rintro ⟨hnamed, hget⟩
    have hfind := keeping.find_of_some hsound hget
    rw [← hnamed] at hfind
    exact hfind

theorem keepsRegistrations (keeping : table.Keeping Sound records) (salts : Nat → Salt)
    {start : Salted σ} (hsound : Sound start.contents) :
    KeepsRegistrations (table.store salts) table salts start where
  create_alone hrun hfree name password := run_create _ hfree name password
  register_alone hrun hfree name password := run_register _ hfree name password
  once hrun ha hb hdone hdone' hname := by
    have horderly := (orderly_start hsound).run keeping hrun
    exact horderly.unique ha hb (by rw [hdone]; rfl) (by rw [hdone']; rfl) hname
  kept {race later i call user} hrun hcall hdone hlater := by
    have horderly := (orderly_start hsound).run keeping hrun
    have hresult := (horderly.stands hcall).result
      (show call.stage.result? = some (.ok user) by rw [hdone]; rfl)
    have hafter := horderly.run keeping hlater
    obtain ⟨stage, hstill, hadded⟩ := added_of_run keeping horderly hlater hcall
      (show call.stage.added? = some user.storedPassword by rw [hdone]; rfl)
    have hget := (hafter.stands hstill).added hadded
    have hname : user.username = call.name := congrArg User.username hresult
    have hfinds := keeping.find_of_some hafter.sound hget
    refine ⟨hname, ?_, keeping.isTaken_of_some hafter.sound hget,
      keeping.verify_of_some hafter.sound hget⟩
    rw [CredentialStore.Finds, hname, hresult]
    exact hfinds
  failed {race after later i call error} hrun hstep hlater hcall hanswer user := by
    have horderly := (orderly_start hsound).run keeping hrun
    have hafter := horderly.step keeping hstep
    rw [finds_iff keeping horderly.sound, finds_iff keeping hafter.sound]
    have hsame := records_of_failed keeping horderly hstep hlater hcall hanswer
    rw [hsame]
  stays {race after actor user} hrun hstep hfinds := by
    have horderly := (orderly_start hsound).run keeping hrun
    have hafter := horderly.step keeping hstep
    rw [finds_iff keeping horderly.sound] at hfinds
    rw [finds_iff keeping hafter.sound]
    exact hfinds.imp_right (extends_of_step keeping horderly hstep _ _)
  late {race later i call done user answer} hrun hcall hlate hfinds hname hlater hdone hanswer := by
    have horderly := (orderly_start hsound).run keeping hrun
    have hget := ((finds_iff keeping horderly.sound).1 hfinds).2
    rw [hname] at hget
    obtain ⟨stage, hstill, hstage⟩ := comesLate_of_run keeping horderly hlater hcall hget hlate
    obtain rfl := Option.some.inj (hstill.symm.trans hdone)
    exact answer_of_comesLate hstage hanswer
  answered hrun hcall hanswer := by
    have horderly := (orderly_start hsound).run keeping hrun
    exact answer_of_stands (horderly.stands hcall) hanswer

end Gatehouse.Registering
