import Gatehouse.Proofs.Session.KeyValue
import Gatehouse.Proofs.Session.Memory
import Mathlib.Data.Option.Basic

set_option autoImplicit false

/-!
# Session stores that stand in for each other

What a session store answers is told by the calls that came before: a load finds what was saved last
under its token, while that is young enough and has not been removed. A store in memory and one over
a key-value server both keep to this, so callers cannot tell them apart.
-/

namespace Gatehouse

inductive SessionCall where
  | load (token : SessionToken)
  | save (token : SessionToken) (session : Session)
  | remove (token : SessionToken)

abbrev SessionAnswer := Except SessionStoreError (Option Session)

/-- A call with the reading of the clock when it is made. -/
abbrev TimedCall := Nat × SessionCall

namespace SessionStore

variable {σ : Type}

def serve (store : SessionStore σ) : SessionCall → Attempt SessionStoreError σ (Option Session)
  | .load token => store.load token
  | .save token session => (fun _ => none) <$> store.save token session
  | .remove token => (fun _ => none) <$> store.remove token

def answers (store : SessionStore σ) (setClock : Nat → σ → σ) :
    List TimedCall → σ → List SessionAnswer
  | [], _ => []
  | (time, call) :: calls, state =>
    let result := (store.serve call).runFrom (setClock time state)
    result.1 :: store.answers setClock calls result.2

end SessionStore

namespace SessionCall

def lastSaved? (token : SessionToken) : List TimedCall → Option (Nat × Session)
  | [] => none
  | (_, .load _) :: past => lastSaved? token past
  | (time, .save other session) :: past =>
    if other = token then some (time, session) else lastSaved? token past
  | (_, .remove other) :: past => if other = token then none else lastSaved? token past

def recalled? (ttl : UInt64) (past : List TimedCall) (token : SessionToken) (now : Nat) :
    Option Session :=
  ((lastSaved? token past).filter fun saved =>
    now < saved.1 + ttl.toNat * 1000000000).map Prod.snd

def answer (ttl : UInt64) (past : List TimedCall) : TimedCall → SessionAnswer
  | (now, .load token) => .ok (recalled? ttl past token now)
  | (_, .save _ _) | (_, .remove _) => .ok none

/-- The answers to calls that follow others. -/
def answersAfter (ttl : UInt64) : List TimedCall → List TimedCall → List SessionAnswer
  | _, [] => []
  | past, call :: calls => answer ttl past call :: answersAfter ttl (call :: past) calls

def Touches (token : SessionToken) : SessionCall → Prop
  | .load _ => False
  | .save other _ | .remove other => other = token

variable {ttl : UInt64} {past : List TimedCall} {token other : SessionToken} {session : Session}
  {time now : Nat}

theorem lastSaved?_of_not_touches {call : TimedCall} (h : ¬ call.2.Touches token) :
    lastSaved? token (call :: past) = lastSaved? token past := by
  obtain ⟨time, call⟩ := call
  cases call with
  | load other => rfl
  | save other session => exact if_neg h
  | remove other => exact if_neg h

theorem lastSaved?_eq_some_iff :
    lastSaved? token past = some (time, session) ↔
      ∃ later earlier, past = later ++ (time, .save token session) :: earlier ∧
        ∀ call ∈ later, ¬ call.2.Touches token := by
  constructor
  · intro h
    induction past with
    | nil => cases h
    | cons call past ih =>
      by_cases htouches : call.2.Touches token
      · obtain ⟨moment, call⟩ := call
        cases call with
        | load other => cases htouches
        | save other saved =>
          have hother : other = token := htouches
          rw [lastSaved?, if_pos hother] at h
          cases hother
          cases h
          exact ⟨[], past, rfl, by simp⟩
        | remove other =>
          have hother : other = token := htouches
          rw [lastSaved?, if_pos hother] at h
          cases h
      · rw [lastSaved?_of_not_touches htouches] at h
        obtain ⟨later, earlier, rfl, hlater⟩ := ih h
        exact ⟨call :: later, earlier, rfl, List.forall_mem_cons.2 ⟨htouches, hlater⟩⟩
  · rintro ⟨later, earlier, rfl, hlater⟩
    induction later with
    | nil => rw [List.nil_append, lastSaved?, if_pos rfl]
    | cons call later ih =>
      obtain ⟨hcall, hlater⟩ := List.forall_mem_cons.1 hlater
      rw [List.cons_append, lastSaved?_of_not_touches hcall]
      exact ih hlater

theorem recalled?_load :
    recalled? ttl ((time, .load other) :: past) token now = recalled? ttl past token now := rfl

theorem recalled?_save_self :
    recalled? ttl ((time, .save token session) :: past) token now =
      Kept.live? now (some ⟨session, time + ttl.toNat * 1000000000⟩) := by
  rw [recalled?, lastSaved?, if_pos rfl]
  by_cases hlive : now < time + ttl.toNat * 1000000000
  · simp [Kept.live?, Option.filter, hlive]
  · simp [Kept.live?, Option.filter, hlive]

theorem recalled?_save_other (hne : other ≠ token) :
    recalled? ttl ((time, .save other session) :: past) token now =
      recalled? ttl past token now := by
  rw [recalled?, lastSaved?, if_neg hne, recalled?]

theorem recalled?_remove_self :
    recalled? ttl ((time, .remove token) :: past) token now = none := by
  rw [recalled?, lastSaved?, if_pos rfl]
  rfl

theorem recalled?_remove_other (hne : other ≠ token) :
    recalled? ttl ((time, .remove other) :: past) token now = recalled? ttl past token now := by
  rw [recalled?, lastSaved?, if_neg hne, recalled?]

end SessionCall

theorem SessionStore.answers_eq {σ : Type} {store : SessionStore σ} {setClock : Nat → σ → σ}
    {ttl : UInt64} (now : σ → Nat) (Fits : TimedCall → Prop) (KeepsUp : List TimedCall → σ → Prop)
    (serves : ∀ {past state call}, KeepsUp past state → now state ≤ call.1 → Fits call →
      ∃ after, (store.serve call.2).runFrom (setClock call.1 state) =
          (SessionCall.answer ttl past call, after) ∧
        now after = call.1 ∧ KeepsUp (call :: past) after)
    {calls past : List TimedCall} {state : σ} (hkeeps : KeepsUp past state)
    (hsorted : calls.Pairwise fun a b => a.1 ≤ b.1) (hlater : ∀ call ∈ calls, now state ≤ call.1)
    (hfits : ∀ call ∈ calls, Fits call) :
    store.answers setClock calls state = SessionCall.answersAfter ttl past calls := by
  induction calls generalizing past state with
  | nil => rfl
  | cons call calls ih =>
    obtain ⟨hfirst, hrest⟩ := List.pairwise_cons.1 hsorted
    obtain ⟨after, hrun, hnow, hafter⟩ :=
      serves hkeeps (hlater call List.mem_cons_self) (hfits call List.mem_cons_self)
    have hanswers := ih hafter hrest (fun next hnext => hnow ▸ hfirst next hnext)
      fun next hnext => hfits next (List.mem_cons_of_mem _ hnext)
    rw [SessionStore.answers, SessionCall.answersAfter, hrun]
    exact congrArg _ hanswers

namespace TimedView

variable {σ κ α : Type}

/-- A clock that can be set: in the meantime, time has passed and nothing else. -/
structure Clock (view : TimedView σ κ α) where
  set : Nat → σ → σ
  now_set {time : Nat} {state : σ} : view.now (set time state) = time
  passes {time : Nat} {state : σ} : view.now state ≤ time → view.Passes state (set time state)

variable {view : TimedView σ κ α} {key : SessionToken → κ} {encode : Session → α} {ttl : UInt64}
  {past : List TimedCall} {state after : σ} {token : SessionToken} {session : Session}

def Recalls (view : TimedView σ κ α) (key : SessionToken → κ) (encode : Session → α) (ttl : UInt64)
    (past : List TimedCall) (state : σ) : Prop :=
  ∀ token now, view.now state ≤ now →
    Kept.live? now (view.kept? state (key token)) =
      (SessionCall.recalled? ttl past token now).map encode

namespace Recalls

theorem start (hempty : ∀ token, view.kept? state (key token) = none) :
    view.Recalls key encode ttl [] state := by
  intro token now _
  rw [hempty token]
  rfl

theorem passes (h : view.Recalls key encode ttl past state) (hpasses : view.Passes state after) :
    view.Recalls key encode ttl past after := by
  intro token now hle
  rw [(hpasses.lasts (key token)).live?_eq hle]
  exact h token now (Nat.le_trans hpasses.now_le hle)

theorem live?_eq (h : view.Recalls key encode ttl past state) (token : SessionToken) :
    view.live? state (key token) =
      (SessionCall.recalled? ttl past token (view.now state)).map encode :=
  h token (view.now state) (Nat.le_refl _)

theorem load (h : view.Recalls key encode ttl past state) (hsteady : view.Steady state after)
    (other : SessionToken) :
    view.Recalls key encode ttl ((view.now state, .load other) :: past) after := by
  intro token now hle
  rw [hsteady.now_eq] at hle
  rw [SessionCall.recalled?_load, (hsteady.spares (key token)).live?_eq hle]
  exact h token now hle

theorem save (h : view.Recalls key encode ttl past state) (hkey : Function.Injective key)
    (hsets : view.Sets (key token)
      (some ⟨encode session, view.now state + ttl.toNat * 1000000000⟩) state after) :
    view.Recalls key encode ttl ((view.now state, .save token session) :: past) after := by
  intro other now hle
  rw [hsets.now_eq] at hle
  by_cases heq : token = other
  · subst heq
    rw [hsets.kept?_self, SessionCall.recalled?_save_self]
    by_cases hlive : now < view.now state + ttl.toNat * 1000000000
    · simp [Kept.live?, Option.filter, hlive]
    · simp [Kept.live?, Option.filter, hlive]
  · have hspared := hsets.spares (key other) fun he => heq (hkey he).symm
    rw [SessionCall.recalled?_save_other heq, hspared.live?_eq hle]
    exact h other now hle

theorem remove (h : view.Recalls key encode ttl past state) (hkey : Function.Injective key)
    (hsets : view.Sets (key token) none state after) :
    view.Recalls key encode ttl ((view.now state, .remove token) :: past) after := by
  intro other now hle
  rw [hsets.now_eq] at hle
  by_cases heq : token = other
  · subst heq
    rw [hsets.kept?_self, SessionCall.recalled?_remove_self]
    rfl
  · have hspared := hsets.spares (key other) fun he => heq (hkey he).symm
    rw [SessionCall.recalled?_remove_other heq, hspared.live?_eq hle]
    exact h other now hle

end Recalls

end TimedView

namespace MemorySessions

def clock : view.Clock where
  set time store := { store with now := time }
  now_set := rfl
  passes hle := ⟨hle, fun _ => .refl _ _⟩

/-- A session saved at this time expires before the last time there is. -/
def Fits (ttl : UInt64) (call : TimedCall) : Prop :=
  ∀ token session, call.2 = .save token session → call.1 + ttl.toNat * 1000000000 ≤ latest

theorem expiry_of_le {ttl : UInt64} {now : Nat} (h : now + ttl.toNat * 1000000000 ≤ latest) :
    expiry ttl now = now + ttl.toNat * 1000000000 := by
  unfold expiry lifetime
  unfold latest at h ⊢
  omega

theorem serves {ttl : UInt64} {past : List TimedCall} {state : MemorySessions} {call : TimedCall}
    (h : view.Recalls id some ttl past state) (hle : view.now state ≤ call.1)
    (hfits : Fits ttl call) :
    ∃ after, ((store ttl).serve call.2).runFrom (clock.set call.1 state) =
        (SessionCall.answer ttl past call, after) ∧
      view.now after = call.1 ∧ view.Recalls id some ttl (call :: past) after := by
  obtain ⟨time, call⟩ := call
  have hset := h.passes (clock.passes hle)
  cases call with
  | load token =>
    have hlive := (live?_load (clock.set time state) token).symm.trans (hset.live?_eq token)
    have hloaded := Option.map_injective (Option.some_injective Session) hlive
    refine ⟨(load token (clock.set time state)).2, ?_, ?_, hset.load (steady_load _ token) token⟩
    · change (Except.ok (load token (clock.set time state)).1, _) = _
      rw [hloaded]
      rfl
    · exact (steady_load (clock.set time state) token).now_eq
  | save token session =>
    have hsets := (steady_purge (clock.set time state)).sets
      (sets_put _ token ⟨session, expiry ttl time⟩)
    rw [expiry_of_le (hfits token session rfl)] at hsets
    refine ⟨save ttl token session (clock.set time state), rfl, rfl, ?_⟩
    have hsaved := hset.save Function.injective_id hsets
    rw [← expiry_of_le (hfits token session rfl)] at hsaved
    exact hsaved
  | remove token =>
    exact ⟨_, rfl, rfl, hset.remove Function.injective_id (sets_drop _ token)⟩

end MemorySessions

/-- A server that is never out of reach and accepts a lifetime. -/
structure KeyValueServer.Answers {κ : Type} (server : KeyValueServer κ) (ttl : UInt64)
    (Fine : κ → Prop) : Prop where
  get (key : String) {state : κ} : Fine state →
    ∃ value after, (server.get key).runFrom state = (.ok value, after) ∧ Fine after
  setExpiring (key : String) (value : List UInt8) {state : κ} : Fine state →
    ∃ after, (server.setExpiring key ttl value).runFrom state = (.ok (), after) ∧ Fine after
  delete (key : String) {state : κ} : Fine state →
    ∃ after, (server.delete key).runFrom state = (.ok (), after) ∧ Fine after

namespace KeyValueSessions

def payload (session : Session) : List UInt8 := Text.utf8 session.toStored.toList

theorem ofPayload_payload (session : Session) : ofPayload (payload session) = .ok session := by
  simp only [ofPayload, payload, Text.ofUtf8?_utf8, Session.ofStored?_toStored]

variable {κ : Type} {server : KeyValueServer κ} {ttl : UInt64} {Fine : κ → Prop}
  {past : List TimedCall} {state : κ} {call : TimedCall}

/-- What the server has under the keys of the tokens is what the calls tell. -/
structure Recalls (law : server.Expiring) (ttl : UInt64) (Fine : κ → Prop)
    (past : List TimedCall) (state : κ) : Prop where
  fine : Fine state
  recalls : law.toTimedView.Recalls key payload ttl past state

theorem serves {law : server.Expiring} {clock : law.toTimedView.Clock}
    (answers : server.Answers ttl Fine)
    (hclock : ∀ {time state}, Fine state → Fine (clock.set time state))
    (h : Recalls law ttl Fine past state) (hle : law.now state ≤ call.1) :
    ∃ after, ((store server ttl).serve call.2).runFrom (clock.set call.1 state) =
        (SessionCall.answer ttl past call, after) ∧
      law.now after = call.1 ∧ Recalls law ttl Fine (call :: past) after := by
  obtain ⟨time, call⟩ := call
  have hset := h.recalls.passes (clock.passes hle)
  have hnow : law.now (clock.set time state) = time := clock.now_set
  have hfine : Fine (clock.set time state) := hclock h.fine
  cases call with
  | load token =>
    obtain ⟨value, after, hget, hafter⟩ := answers.get (key token) hfine
    obtain ⟨hlive, hsteady⟩ := law.get_ok hget
    have hvalue := hlive.symm.trans (hset.live?_eq token)
    have hkept := hset.load hsteady token
    rw [hnow] at hvalue hkept
    refine ⟨after, ?_, hsteady.now_eq.trans hnow, hafter, hkept⟩
    refine (runFrom_load hget).trans (Prod.ext ?_ rfl)
    rw [hvalue, SessionCall.answer]
    cases SessionCall.recalled? ttl past token time with
    | none => rfl
    | some session => simp only [Option.map_some, Option.elim, ofPayload_payload, Except.map]
  | save token session =>
    obtain ⟨after, hrun, hafter⟩ := answers.setExpiring (key token) (payload session) hfine
    have hsets := law.set_ok hrun
    have hkept := hset.save (fun _ _ => key_inj) hsets
    rw [hnow] at hkept
    refine ⟨after, ?_, hsets.now_eq.trans hnow, hafter, hkept⟩
    exact Attempt.runFrom_map _ (Attempt.runFrom_mapError_eq_ok.2 hrun)
  | remove token =>
    obtain ⟨after, hrun, hafter⟩ := answers.delete (key token) hfine
    have hsets := law.delete_ok hrun
    have hkept := hset.remove (fun _ _ => key_inj) hsets
    rw [hnow] at hkept
    refine ⟨after, ?_, hsets.now_eq.trans hnow, hafter, hkept⟩
    exact Attempt.runFrom_map _ (Attempt.runFrom_mapError_eq_ok.2 hrun)

end KeyValueSessions

namespace ExpiringMap

def clock : view.Clock where
  set time map := { map with now := time }
  now_set := rfl
  passes hle := ⟨hle, fun _ => .refl _ _⟩

theorem answers {ttl : UInt64} (h : ttl ≠ 0) : server.Answers ttl fun _ => True where
  get _ _ _ := ⟨_, _, rfl, trivial⟩
  setExpiring _ _ _ _ := by
    simp only [server, if_neg h]
    exact ⟨_, rfl, trivial⟩
  delete _ _ _ := ⟨_, rfl, trivial⟩

end ExpiringMap

/-- Started without sessions, the two kinds of stores give the same answers at every call, those that
the calls tell. The server is one that keeps the laws of a map whose entries expire, always answers
and accepts the lifetime; no saved session outlives the clock. -/
theorem sessionStores_interchangeable {κ : Type} {server : KeyValueServer κ} {ttl : UInt64}
    {Fine : κ → Prop} (law : server.Expiring) (clock : law.toTimedView.Clock)
    (answers : server.Answers ttl Fine)
    (hclock : ∀ {time state}, Fine state → Fine (clock.set time state)) {start : κ}
    (hstart : Fine start) (hempty : ∀ token, law.kept? start (KeyValueSessions.key token) = none)
    {calls : List TimedCall} (hsorted : calls.Pairwise fun a b => a.1 ≤ b.1)
    (hlater : ∀ call ∈ calls, law.now start ≤ call.1)
    (hfits : ∀ call ∈ calls, MemorySessions.Fits ttl call) :
    (MemorySessions.store ttl).answers MemorySessions.clock.set calls .empty =
        (KeyValueSessions.store server ttl).answers clock.set calls start ∧
      (KeyValueSessions.store server ttl).answers clock.set calls start =
        SessionCall.answersAfter ttl [] calls := by
  have hserver : (KeyValueSessions.store server ttl).answers clock.set calls start =
      SessionCall.answersAfter ttl [] calls :=
    SessionStore.answers_eq law.now (fun _ => True) (KeyValueSessions.Recalls law ttl Fine)
      (fun hkeeps hle _ => KeyValueSessions.serves answers hclock hkeeps hle)
      ⟨hstart, .start hempty⟩ hsorted hlater fun _ _ => trivial
  have hmemory : (MemorySessions.store ttl).answers MemorySessions.clock.set calls .empty =
      SessionCall.answersAfter ttl [] calls :=
    SessionStore.answers_eq MemorySessions.view.now (MemorySessions.Fits ttl)
      (MemorySessions.view.Recalls id some ttl) MemorySessions.serves (.start fun _ => rfl) hsorted
      (fun call _ => Nat.zero_le call.1) hfits
  exact ⟨hmemory.trans hserver.symm, hserver⟩

def helloSession : Session where
  authenticated := true
  userId := some ⟨"a\"b"⟩
  flashes := [⟨.info, "hello"⟩]

def sampleCalls : List TimedCall :=
  [(5, .save ⟨1⟩ helloSession), (6, .save ⟨2⟩ .new), (6, .load ⟨1⟩), (7, .remove ⟨1⟩),
    (8, .load ⟨1⟩), (60000000005, .load ⟨2⟩), (60000000006, .load ⟨2⟩)]

theorem sessionStores_interchangeable_sample :
    (MemorySessions.store 60).answers MemorySessions.clock.set sampleCalls .empty =
        (KeyValueSessions.store ExpiringMap.server 60).answers ExpiringMap.clock.set sampleCalls {} ∧
      (KeyValueSessions.store ExpiringMap.server 60).answers ExpiringMap.clock.set sampleCalls {} =
        [.ok none, .ok none, .ok (some helloSession), .ok none, .ok none, .ok (some .new),
          .ok none] := by
  have hfits : ∀ call ∈ sampleCalls, MemorySessions.Fits 60 call := by
    intro call hcall token session hsave
    have hearly : ∀ call ∈ sampleCalls, call.1 ≤ 60000000006 := by decide
    have htime := hearly call hcall
    calc call.1 + (60 : UInt64).toNat * 1000000000
      _ ≤ 60000000006 + (60 : UInt64).toNat * 1000000000 := Nat.add_le_add_right htime _
      _ ≤ MemorySessions.latest := by decide
  have htold : SessionCall.answersAfter 60 [] sampleCalls =
      [.ok none, .ok none, .ok (some helloSession), .ok none, .ok none, .ok (some .new),
        .ok none] := by
    simp [sampleCalls, SessionCall.answersAfter, SessionCall.answer, SessionCall.recalled?,
      SessionCall.lastSaved?, Option.filter]
  rw [← htold]
  exact sessionStores_interchangeable ExpiringMap.expiring ExpiringMap.clock
    (ExpiringMap.answers (by decide)) (fun h => h) trivial (fun _ => rfl) (by decide)
    (fun call _ => Nat.zero_le call.1) hfits

end Gatehouse
