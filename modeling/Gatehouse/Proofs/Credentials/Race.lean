import Gatehouse.Proofs.Credentials.Accounts
import Gatehouse.Proofs.Credentials.SharedTable
import Mathlib.Logic.Relation

set_option autoImplicit false

/-!
# Calls that add users at the same time

Any number of calls on one store, taking turns step by step. A call protects the password, takes the
lock, reads the table, looks for the name in it, writes the new table in as many steps as that takes,
and lets go of the lock; a registration asks first whether the name is taken. Whoever only asks needs
no lock, and may do so between any two steps.
-/

namespace Gatehouse.Registering

variable {σ : Type}

inductive Stage (σ : Type) where
  | asking
  | protecting
  | waiting (stored : String)
  | reading (stored : String)
  | testing (stored : String) (users : UserTable)
  | writing (stored : String) (left : List (Attempt String σ Unit))
  | releasing (result : Except CredentialError User)
  | finished (result : Except CredentialError User)
  /-- Refused by the question that a registration asks first. -/
  | turnedAway (error : RegisterError)

namespace Stage

def holdsLock : Stage σ → Bool
  | .reading _ | .testing _ _ | .writing _ _ | .releasing _ => true
  | _ => false

def isOver : Stage σ → Bool
  | .finished _ | .turnedAway _ => true
  | _ => false

def waits : Stage σ → Bool
  | .waiting _ => true
  | _ => false

/-- The result of a call that has come to one, whether or not it still holds the lock. -/
def result? : Stage σ → Option (Except CredentialError User)
  | .releasing result | .finished result => some result
  | _ => none

/-- The stored password of a call whose user is in the table. -/
def added? : Stage σ → Option String
  | .writing stored [] => some stored
  | .releasing (.ok user) | .finished (.ok user) => some user.storedPassword
  | _ => none

end Stage

structure Call (σ : Type) where
  name : Username
  password : Password
  registers : Bool
  stage : Stage σ

namespace Call

def start (name : Username) (password : Password) (registers : Bool) : Call σ :=
  ⟨name, password, registers, if registers then .asking else .protecting⟩

def moveTo (call : Call σ) (stage : Stage σ) : Call σ := { call with stage }

/-- What a call that registers a visitor is answered. -/
def answer? (call : Call σ) : Option (Except RegisterError User) :=
  match call.stage with
  | .finished result => some (result.mapError .ofStore)
  | .turnedAway error => some (.error error)
  | _ => none

/-- The next step of a call, from what all calls share. -/
def next (table : SharedTable σ) (salts : Nat → Salt) (call : Call σ) (shared : Salted σ) :
    Stage σ × Salted σ :=
  match call.stage with
  | .asking =>
    match (table.isTaken call.name).runFrom shared with
    | (.ok true, after) => (.turnedAway (.auth .duplicateUsername), after)
    | (.ok false, after) => (.protecting, after)
    | (.error error, after) => (.turnedAway (.ofStore error), after)
  | .protecting =>
    (.waiting (table.policy.protect (salts shared.drawn) call.password),
      { shared with drawn := shared.drawn + 1 })
  | .waiting stored => (.reading stored, shared)
  | .reading stored =>
    match table.readUsers.runFrom shared with
    | (.ok users, after) => (.testing stored users, after)
    | (.error error, after) => (.releasing (.error error), after)
  | .testing stored users =>
    if users.contains call.name.text then (.releasing (.error .userAlreadyExists), shared)
    else (.writing stored (table.writes (users.insert call.name.text stored)), shared)
  | .writing stored [] => (.releasing (.ok (.named call.name stored)), shared)
  | .writing stored (step :: left) =>
    match (SharedTable.inStore step).runFrom shared with
    | (.ok _, after) => (.writing stored left, after)
    | (.error error, after) => (.releasing (.error error), after)
  | .releasing result => (.finished result, shared)
  | .finished result => (.finished result, shared)
  | .turnedAway error => (.turnedAway error, shared)

end Call

structure Race (σ : Type) where
  shared : Salted σ
  calls : List (Call σ) := []

namespace Race

def isLocked (race : Race σ) : Bool := race.calls.any (·.stage.holdsLock)

def put (race : Race σ) (i : Nat) (call : Call σ) (shared : Salted σ) : Race σ :=
  ⟨shared, race.calls.set i call⟩

end Race

inductive Question where
  | find (name : Username)
  | get (id : UserId)
  | isTaken (name : Username)
  | verify (name : Username) (password : Password)

def Question.leaves (store : CredentialStore (Salted σ)) (shared : Salted σ) :
    Question → Salted σ
  | .find name => ((store.find name).runFrom shared).2
  | .get id => ((store.get id).runFrom shared).2
  | .isTaken name => ((store.isTaken name).runFrom shared).2
  | .verify name password => ((store.verify name password).runFrom shared).2

theorem Question.leaves_eq {table : SharedTable σ} {salts : Nat → Salt} {shared : Salted σ}
    (hleaves : (table.readUsers.runFrom shared).2 = shared) (question : Question) :
    question.leaves (table.store salts) shared = shared := by
  cases question with
  | find name => exact SharedTable.find_leaves hleaves name
  | get id => exact SharedTable.getById_leaves hleaves id
  | isTaken name => exact SharedTable.isTaken_leaves hleaves name
  | verify name password => exact SharedTable.verify_leaves hleaves name password

/-- One step, with the number of the call that takes it. -/
inductive Step (table : SharedTable σ) (salts : Nat → Salt) :
    Race σ → Option Nat → Race σ → Prop where
  | begins (race : Race σ) (name : Username) (password : Password) (registers : Bool) :
    Step table salts race none ⟨race.shared, race.calls ++ [.start name password registers]⟩
  | moves {race : Race σ} {i : Nat} {call : Call σ} (hcall : race.calls[i]? = some call)
      (hover : call.stage.isOver = false)
      (hlock : call.stage.waits = true → race.isLocked = false) :
    Step table salts race (some i)
      (race.put i (call.moveTo (call.next table salts race.shared).1)
        (call.next table salts race.shared).2)
  | asks (race : Race σ) (question : Question) :
    Step table salts race none ⟨question.leaves (table.store salts) race.shared, race.calls⟩

abbrev Run (table : SharedTable σ) (salts : Nat → Salt) : Race σ → Race σ → Prop :=
  Relation.ReflTransGen fun before after => ∃ actor, Step table salts before actor after

namespace Race

variable {table : SharedTable σ} {salts : Nat → Salt} {race : Race σ}

def mayMove (race : Race σ) (i : Nat) : Bool :=
  race.calls[i]?.any fun call => !call.stage.isOver && (!call.stage.waits || !race.isLocked)

def advance (table : SharedTable σ) (salts : Nat → Salt) (race : Race σ) (i : Nat) :
    Option (Race σ) :=
  if race.mayMove i then
    race.calls[i]?.map fun call =>
      race.put i (call.moveTo (call.next table salts race.shared).1)
        (call.next table salts race.shared).2
  else none

/-- The race after the calls of a schedule have each taken a step, in that order. -/
def play (table : SharedTable σ) (salts : Nat → Salt) (race : Race σ) (schedule : List Nat) :
    Option (Race σ) :=
  schedule.foldlM (advance table salts) race

theorem step_advance {i : Nat} {after : Race σ} (h : race.advance table salts i = some after) :
    Step table salts race (some i) after := by
  unfold advance at h
  split at h
  · next hmay =>
    obtain ⟨call, hcall, rfl⟩ := Option.map_eq_some_iff.1 h
    rw [mayMove, hcall, Option.any_some, Bool.and_eq_true, Bool.or_eq_true] at hmay
    obtain ⟨hover, hlock⟩ := hmay
    refine .moves hcall (by simpa using hover) fun hwaits => ?_
    rw [hwaits] at hlock
    simpa using hlock
  · cases h

theorem run_play {schedule : List Nat} {after : Race σ}
    (h : race.play table salts schedule = some after) : Run table salts race after := by
  induction schedule generalizing race with
  | nil =>
    cases h
    exact .refl
  | cons i schedule ih =>
    rw [play, List.foldlM_cons] at h
    cases hadvance : race.advance table salts i with
    | none =>
      rw [hadvance] at h
      cases h
    | some next =>
      rw [hadvance] at h
      exact .head ⟨_, step_advance hadvance⟩ (ih h)

end Race

section Alone

variable {table : SharedTable σ} {salts : Nat → Salt} {calls : List (Call σ)} (call : Call σ)

theorem step_last {stage : Stage σ} {shared after : Salted σ} (hover : call.stage.isOver = false)
    (hlock : call.stage.waits = true → calls.any (·.stage.holdsLock) = false)
    (hnext : call.next table salts shared = (stage, after)) :
    Step table salts ⟨shared, calls ++ [call]⟩ (some calls.length)
      ⟨after, calls ++ [call.moveTo stage]⟩ := by
  have hcall : (calls ++ [call])[calls.length]? = some call := by simp
  have hfree : call.stage.waits = true →
      (⟨shared, calls ++ [call]⟩ : Race σ).isLocked = false := by
    intro hwaits
    have hholds : call.stage.holdsLock = false := by
      cases hstage : call.stage <;> rw [hstage] at hwaits <;> first | rfl | cases hwaits
    rw [Race.isLocked, List.any_append, hlock hwaits]
    simp [hholds]
  let race : Race σ := ⟨shared, calls ++ [call]⟩
  let moved := call.next table salts shared
  have hstep : Step table salts race (some calls.length)
      (race.put calls.length (call.moveTo moved.1) moved.2) := .moves hcall hover hfree
  have hset : (calls ++ [call]).set calls.length (call.moveTo stage) = calls ++ [call.moveTo stage] := by
    simp
  have hmoved : moved = (stage, after) := hnext
  rw [Race.put, hmoved, hset] at hstep
  exact hstep

theorem run_last {stage next : Stage σ} {shared mid : Salted σ} {later : Race σ}
    (hover : stage.isOver = false) (hwaits : stage.waits = false)
    (hnext : (call.moveTo stage).next table salts shared = (next, mid))
    (hrest : Run table salts ⟨mid, calls ++ [call.moveTo next]⟩ later) :
    Run table salts ⟨shared, calls ++ [call.moveTo stage]⟩ later := by
  have hlock : (call.moveTo stage).stage.waits = true →
      calls.any (·.stage.holdsLock) = false := by
    intro h
    rw [Call.moveTo, hwaits] at h
    cases h
  exact .head ⟨_, step_last (call.moveTo stage) hover hlock hnext⟩ hrest

theorem run_releasing (result : Except CredentialError User) (shared : Salted σ) :
    Run table salts ⟨shared, calls ++ [call.moveTo (.releasing result)]⟩
      ⟨shared, calls ++ [call.moveTo (.finished result)]⟩ :=
  run_last call rfl rfl rfl .refl

theorem run_writing (stored : String) (left : List (Attempt String σ Unit)) (shared : Salted σ) :
    let wrote := (SharedTable.inStore (left.forM id)).runFrom shared
    Run table salts ⟨shared, calls ++ [call.moveTo (.writing stored left)]⟩
      ⟨wrote.2, calls ++ [call.moveTo (.finished (wrote.1.map fun _ => .named call.name stored))]⟩ := by
  induction left generalizing shared with
  | nil => exact run_last call rfl rfl rfl (run_releasing call _ shared)
  | cons step left ih =>
    rw [SharedTable.runFrom_inStore_cons]
    rcases hstep : (SharedTable.inStore step).runFrom shared with ⟨outcome, mid⟩
    cases outcome with
    | ok value =>
      have hnext : (call.moveTo (.writing stored (step :: left))).next table salts shared =
          (.writing stored left, mid) := by
        simp only [Call.next, Call.moveTo, hstep]
      exact run_last call rfl rfl hnext (ih mid)
    | error error =>
      have hnext : (call.moveTo (.writing stored (step :: left))).next table salts shared =
          (.releasing (.error error), mid) := by
        simp only [Call.next, Call.moveTo, hstep]
      exact run_last call rfl rfl hnext (run_releasing call _ mid)

theorem run_testing (stored : String) (users : UserTable) (shared : Salted σ) :
    let added := (table.addTo users call.name stored).runFrom shared
    Run table salts ⟨shared, calls ++ [call.moveTo (.testing stored users)]⟩
      ⟨added.2, calls ++ [call.moveTo (.finished added.1)]⟩ := by
  by_cases htaken : users.contains call.name.text = true
  · have hnext : (call.moveTo (.testing stored users)).next table salts shared =
        (.releasing (.error .userAlreadyExists), shared) := by
      simp only [Call.next, Call.moveTo, htaken, if_true]
    rw [SharedTable.addTo, if_pos htaken]
    exact run_last call rfl rfl hnext (run_releasing call _ shared)
  · have hnext : (call.moveTo (.testing stored users)).next table salts shared =
        (.writing stored (table.writes (users.insert call.name.text stored)), shared) := by
      simp only [Call.next, Call.moveTo, htaken]
      rfl
    rw [SharedTable.runFrom_addTo_of_new table htaken]
    exact run_last call rfl rfl hnext (run_writing call stored _ shared)

theorem run_reading (stored : String) (shared : Salted σ) :
    let added := (table.addUser call.name stored).runFrom shared
    Run table salts ⟨shared, calls ++ [call.moveTo (.reading stored)]⟩
      ⟨added.2, calls ++ [call.moveTo (.finished added.1)]⟩ := by
  rw [SharedTable.addUser, Attempt.runFrom_bind]
  rcases hread : table.readUsers.runFrom shared with ⟨outcome, mid⟩
  cases outcome with
  | error error =>
    have hnext : (call.moveTo (.reading stored)).next table salts shared =
        (.releasing (.error error), mid) := by
      simp only [Call.next, Call.moveTo, hread]
    exact run_last call rfl rfl hnext (run_releasing call _ mid)
  | ok users =>
    have hnext : (call.moveTo (.reading stored)).next table salts shared =
        (.testing stored users, mid) := by
      simp only [Call.next, Call.moveTo, hread]
    exact run_last call rfl rfl hnext (run_testing call stored users mid)

theorem run_protecting (shared : Salted σ) (hfree : calls.any (·.stage.holdsLock) = false) :
    let created := (table.create salts call.name call.password).runFrom shared
    Run table salts ⟨shared, calls ++ [call.moveTo .protecting]⟩
      ⟨created.2, calls ++ [call.moveTo (.finished created.1)]⟩ := by
  let stored := table.policy.protect (salts shared.drawn) call.password
  let drawn : Salted σ := { shared with drawn := shared.drawn + 1 }
  have htakes : Step table salts ⟨drawn, calls ++ [call.moveTo (.waiting stored)]⟩
      (some calls.length) ⟨drawn, calls ++ [call.moveTo (.reading stored)]⟩ :=
    step_last (call.moveTo (.waiting stored)) rfl (fun _ => hfree) rfl
  exact run_last call rfl rfl rfl (.head ⟨_, htakes⟩ (run_reading call stored drawn))

theorem run_create (shared : Salted σ) (hfree : calls.any (·.stage.holdsLock) = false)
    (name : Username) (password : Password) :
    let created := ((table.store salts).create name password).runFrom shared
    Run table salts ⟨shared, calls ++ [.start name password false]⟩
      ⟨created.2, calls ++ [⟨name, password, false, .finished created.1⟩]⟩ :=
  run_protecting (.start name password false) shared hfree

theorem run_register (shared : Salted σ) (hfree : calls.any (·.stage.holdsLock) = false)
    (name : Username) (password : Password) :
    let registered := ((table.store salts).register name password).runFrom shared
    ∃ call, call.answer? = some registered.1 ∧
      Run table salts ⟨shared, calls ++ [.start name password true]⟩
        ⟨registered.2, calls ++ [call]⟩ := by
  let call : Call σ := .start name password true
  have hasks : ((table.store salts).isTaken name).runFrom shared =
      (table.isTaken call.name).runFrom shared := rfl
  rw [CredentialStore.runFrom_register, hasks]
  rcases htaken : (table.isTaken call.name).runFrom shared with ⟨outcome, mid⟩
  cases outcome with
  | error error =>
    have hnext : (call.moveTo .asking).next table salts shared =
        (.turnedAway (.ofStore error), mid) := by
      simp only [Call.next, Call.moveTo, htaken]
    exact ⟨call.moveTo (.turnedAway _), rfl, run_last call rfl rfl hnext .refl⟩
  | ok taken =>
    cases taken with
    | true =>
      have hnext : (call.moveTo .asking).next table salts shared =
          (.turnedAway (.auth .duplicateUsername), mid) := by
        simp only [Call.next, Call.moveTo, htaken]
      exact ⟨call.moveTo (.turnedAway _), rfl, run_last call rfl rfl hnext .refl⟩
    | false =>
      have hnext : (call.moveTo .asking).next table salts shared = (.protecting, mid) := by
        simp only [Call.next, Call.moveTo, htaken]
      exact ⟨call.moveTo (.finished _), rfl,
        run_last call rfl rfl hnext (run_protecting call mid hfree)⟩

end Alone

end Gatehouse.Registering
