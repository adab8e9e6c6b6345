import Gatehouse.Proofs.Keyed
import Gatehouse.Proofs.Session.TimedMap
import Mathlib.Logic.Relation

set_option autoImplicit false

/-!
# Session calls at the same time

Any number of calls on one store in memory, taking turns step by step. A load looks at its entry; if
that is not live it drops it in a second step, by which time another one may be there. A save drops
expired entries one by one before it puts its own. Every call goes by the clock as it was when the
call began, however late it acts. A session stays as long as no call that has begun is as late as its
end.
-/

namespace Gatehouse

namespace MemorySessions

def dropAll (now : Nat) (tokens : List SessionToken) (sessions : MemorySessions) :
    MemorySessions :=
  tokens.foldl (fun sessions token => sessions.dropExpired now token) sessions

variable {ttl : UInt64} {now : Nat} {token : SessionToken} {sessions : MemorySessions}
  {entry : SessionEntry}

theorem dropExpired_eq (sessions : MemorySessions) (now : Nat) (token : SessionToken) :
    sessions.dropExpired now token =
      { sessions with
        entries := sessions.entries.keep fun other entry => other ≠ token || isLive now entry } := by
  have hmember : ∀ held ∈ sessions.entries.toList, held.1 = token →
      sessions.stored? token = some held.2 := by
    intro held hmem heq
    rw [← heq]
    exact Keyed.get?_of_mem hmem
  unfold dropExpired
  cases hstored : sessions.stored? token with
  | none =>
    rw [Keyed.keep_eq_self]
    intro held hmem
    by_cases heq : held.1 = token
    · rw [hmember held hmem heq] at hstored
      cases hstored
    · simp [heq]
  | some entry =>
    dsimp only
    by_cases hlive : isLive now entry = true
    · rw [if_pos hlive, Keyed.keep_eq_self]
      intro held hmem
      by_cases heq : held.1 = token
      · obtain rfl : held.2 = entry := Option.some.inj ((hmember held hmem heq).symm.trans hstored)
        simp [hlive]
      · simp [heq]
    · rw [if_neg hlive, drop, Keyed.erase]
      congr 1
      apply Keyed.keep_congr
      intro held hmem
      by_cases heq : held.1 = token
      · obtain rfl : held.2 = entry := Option.some.inj ((hmember held hmem heq).symm.trans hstored)
        simp [heq, hlive]
      · simp [heq]

theorem dropAll_eq (sessions : MemorySessions) (now : Nat) (tokens : List SessionToken) :
    dropAll now tokens sessions =
      { sessions with
        entries := sessions.entries.keep fun other entry => other ∉ tokens || isLive now entry } := by
  induction tokens generalizing sessions with
  | nil =>
    rw [Keyed.keep_eq_self]
    · rfl
    · simp
  | cons token tokens ih =>
    change dropAll now tokens (sessions.dropExpired now token) = _
    rw [ih, dropExpired_eq]
    dsimp only
    rw [Keyed.keep_keep]
    congr 1
    apply Keyed.keep_congr
    intro held _
    cases isLive now held.2 <;> simp [Bool.and_comm]

theorem purge_eq (sessions : MemorySessions) (now : Nat) :
    sessions.purge now = dropAll now (sessions.entries.toList.map Prod.fst) sessions := by
  rw [dropAll_eq, purge]
  congr 1
  apply Keyed.keep_congr
  intro held hmem
  have hmem : held.1 ∈ sessions.entries.toList.map Prod.fst := List.mem_map_of_mem hmem
  simp [hmem]

inductive Stage where
  | looking (token : SessionToken)
  /-- A load has seen no live entry. -/
  | dropping (token : SessionToken)
  | sweeping (token : SessionToken) (session : Session)
  | removing (token : SessionToken)
  | finished (found : Option Session)

/-- A call with the reading of the clock that it took when it began. -/
structure Caller where
  reading : Nat
  stage : Stage

namespace Caller

def start (reading : Nat) : SessionCall → Caller
  | .load token => ⟨reading, .looking token⟩
  | .save token session => ⟨reading, .sweeping token session⟩
  | .remove token => ⟨reading, .removing token⟩

def moveTo (caller : Caller) (stage : Stage) : Caller := { caller with stage }

end Caller

/-- The one store, and the calls on it that have begun. -/
structure Crowd where
  sessions : MemorySessions
  callers : List Caller := []

/-- What a step does on purpose to the session of a token. -/
inductive Change where
  | nothing
  | saved (token : SessionToken) (entry : SessionEntry)
  | removed (token : SessionToken)

def Change.Touches (token : SessionToken) : Change → Prop
  | .nothing => False
  | .saved other _ | .removed other => other = token

inductive Moves (ttl : UInt64) (caller : Caller) (sessions : MemorySessions) :
    Change → Stage → MemorySessions → Prop where
  | finds {token : SessionToken} {entry : SessionEntry} (hstage : caller.stage = .looking token)
      (hentry : sessions.stored? token = some entry)
      (hlive : isLive caller.reading entry = true) :
      Moves ttl caller sessions .nothing (.finished (some entry.session)) sessions
  | misses {token : SessionToken} (hstage : caller.stage = .looking token)
      (hnone : ∀ entry, sessions.stored? token = some entry →
        isLive caller.reading entry = false) :
      Moves ttl caller sessions .nothing (.dropping token) sessions
  | drops {token : SessionToken} (hstage : caller.stage = .dropping token) :
      Moves ttl caller sessions .nothing (.finished none)
        (sessions.dropExpired caller.reading token)
  /-- The entries are met in any order. -/
  | sweeps {token : SessionToken} {session : Session}
      (hstage : caller.stage = .sweeping token session) (other : SessionToken) :
      Moves ttl caller sessions .nothing (.sweeping token session)
        (sessions.dropExpired caller.reading other)
  | saves {token : SessionToken} {session : Session}
      (hstage : caller.stage = .sweeping token session) :
      Moves ttl caller sessions (.saved token ⟨session, expiry ttl caller.reading⟩)
        (.finished none) (sessions.put token ⟨session, expiry ttl caller.reading⟩)
  | removes {token : SessionToken} (hstage : caller.stage = .removing token) :
      Moves ttl caller sessions (.removed token) (.finished none) (sessions.drop token)

inductive Step (ttl : UInt64) (crowd : Crowd) : Change → Crowd → Prop where
  | ticks (time : Nat) : Step ttl crowd .nothing ⟨clock.set time crowd.sessions, crowd.callers⟩
  | begins (call : SessionCall) :
      Step ttl crowd .nothing
        ⟨crowd.sessions, crowd.callers ++ [.start crowd.sessions.now call]⟩
  | moves {i : Nat} {caller : Caller} {change : Change} {stage : Stage} {after : MemorySessions}
      (hcaller : crowd.callers[i]? = some caller)
      (hmoves : Moves ttl caller crowd.sessions change stage after) :
      Step ttl crowd change ⟨after, crowd.callers.set i (caller.moveTo stage)⟩

abbrev Run (ttl : UInt64) : Crowd → Crowd → Prop :=
  Relation.ReflTransGen fun before after => ∃ change, Step ttl before change after

/-- Any number of steps, none of which saves or removes a session under a token. -/
abbrev RunBeside (ttl : UInt64) (token : SessionToken) : Crowd → Crowd → Prop :=
  Relation.ReflTransGen fun before after =>
    ∃ change, Step ttl before change after ∧ ¬ change.Touches token

variable {caller : Caller} {crowd later : Crowd} {change : Change} {stage : Stage}
  {after : MemorySessions}

theorem stored?_dropExpired_of_live {reading : Nat} (hentry : sessions.stored? token = some entry)
    (hlive : reading < entry.expiresAt) (other : SessionToken) :
    (sessions.dropExpired reading other).stored? token = some entry := by
  unfold dropExpired
  cases hother : sessions.stored? other with
  | none => exact hentry
  | some found =>
    dsimp only
    split
    · exact hentry
    · next hexpired =>
      have hne : token ≠ other := by
        rintro rfl
        obtain rfl : found = entry := Option.some.inj (hother.symm.trans hentry)
        exact hexpired (decide_eq_true hlive)
      rw [stored?_drop, if_neg hne, hentry]

theorem Moves.keeps (h : Moves ttl caller sessions change stage after)
    (hentry : sessions.stored? token = some entry) (hlive : caller.reading < entry.expiresAt)
    (hbeside : ¬ change.Touches token) : after.stored? token = some entry := by
  cases h with
  | finds | misses => exact hentry
  | drops | sweeps => exact stored?_dropExpired_of_live hentry hlive _
  | saves =>
    rw [stored?_put, if_neg (Ne.symm hbeside)]
    exact hentry
  | removes =>
    rw [stored?_drop, if_neg (Ne.symm hbeside)]
    exact hentry

theorem Step.readings (h : Step ttl crowd change later) :
    crowd.callers.map Caller.reading <+: later.callers.map Caller.reading := by
  cases h with
  | ticks => exact List.prefix_refl _
  | begins call =>
    rw [List.map_append]
    exact List.prefix_append _ _
  | @moves i caller _ stage _ hcaller =>
    have hsame : (crowd.callers.set i (caller.moveTo stage)).map Caller.reading =
        crowd.callers.map Caller.reading := by
      obtain ⟨hi, rfl⟩ := List.getElem?_eq_some_iff.1 hcaller
      have hlength : i < (crowd.callers.map Caller.reading).length := by simpa using hi
      have hreading : (crowd.callers[i].moveTo stage).reading =
          (crowd.callers.map Caller.reading)[i] := by
        rw [List.getElem_map]
        rfl
      rw [List.map_set, hreading, List.set_getElem_self]
    exact hsame ▸ List.prefix_refl _

def AllBefore (crowd : Crowd) (time : Nat) : Prop :=
  ∀ caller ∈ crowd.callers, caller.reading < time

theorem AllBefore.earlier {time : Nat} (h : AllBefore later time)
    (hstep : Step ttl crowd change later) : AllBefore crowd time := by
  intro caller hcaller
  have hmem : caller.reading ∈ later.callers.map Caller.reading :=
    hstep.readings.subset (List.mem_map_of_mem hcaller)
  obtain ⟨same, hsame, heq⟩ := List.mem_map.1 hmem
  exact heq ▸ h same hsame

theorem Step.keeps (h : Step ttl crowd change later)
    (hentry : crowd.sessions.stored? token = some entry)
    (hearly : AllBefore crowd entry.expiresAt) (hbeside : ¬ change.Touches token) :
    later.sessions.stored? token = some entry := by
  cases h with
  | ticks | begins => exact hentry
  | moves hcaller hmoves =>
    exact hmoves.keeps hentry (hearly _ (List.mem_of_getElem? hcaller)) hbeside

theorem RunBeside.keeps {saved : Crowd} (h : RunBeside ttl token saved later)
    (hentry : saved.sessions.stored? token = some entry)
    (hearly : AllBefore later entry.expiresAt) :
    later.sessions.stored? token = some entry := by
  induction h with
  | refl => exact hentry
  | tail _ hstep ih =>
    obtain ⟨change, hstep, hbeside⟩ := hstep
    have hbefore := hearly.earlier hstep
    exact hstep.keeps (ih hbefore) hbefore hbeside

theorem Step.stored?_saved (h : Step ttl crowd (.saved token entry) later) :
    later.sessions.stored? token = some entry := by
  cases h with
  | moves hcaller hmoves =>
    cases hmoves with
    | saves hstage => rw [stored?_put, if_pos rfl]

/-- A session that has been saved stays as it is, until its token is saved or removed again, in any
run in which no call takes a reading of the clock that is as late as its end. -/
theorem live_session_stays {ttl : UInt64} {token : SessionToken} {entry : SessionEntry}
    {before saved later : Crowd} (hsaves : Step ttl before (.saved token entry) saved)
    (hrun : RunBeside ttl token saved later)
    (hearly : ∀ caller ∈ later.callers, caller.reading < entry.expiresAt) :
    later.sessions.stored? token = some entry :=
  hrun.keeps hsaves.stored?_saved hearly

def overtaken : Crowd where
  sessions := clock.set 7 (empty.put ⟨1⟩ ⟨.new, 5⟩)
  callers := [⟨7, .dropping ⟨1⟩⟩, ⟨7, .sweeping ⟨1⟩ helloSession⟩]

theorem live_session_stays_for_late_load :
    let entry : SessionEntry := ⟨helloSession, expiry 60 7⟩
    let saved : Crowd :=
      ⟨overtaken.sessions.put ⟨1⟩ entry, [⟨7, .dropping ⟨1⟩⟩, ⟨7, .finished none⟩]⟩
    let later : Crowd :=
      ⟨saved.sessions.dropExpired 7 ⟨1⟩, [⟨7, .finished none⟩, ⟨7, .finished none⟩]⟩
    Run 60 ⟨overtaken.sessions, []⟩ overtaken ∧ Step 60 overtaken (.saved ⟨1⟩ entry) saved ∧
      RunBeside 60 ⟨1⟩ saved later ∧ (∀ caller ∈ later.callers, caller.reading < entry.expiresAt) ∧
      later.sessions.stored? ⟨1⟩ = some entry := by
  intro entry saved later
  let looking : Crowd :=
    ⟨overtaken.sessions, [⟨7, .looking ⟨1⟩⟩, ⟨7, .sweeping ⟨1⟩ helloSession⟩]⟩
  have hloads : Step 60 ⟨overtaken.sessions, []⟩ .nothing
      ⟨overtaken.sessions, [⟨7, .looking ⟨1⟩⟩]⟩ := .begins (.load ⟨1⟩)
  have hbegins : Step 60 ⟨overtaken.sessions, [⟨7, .looking ⟨1⟩⟩]⟩ .nothing looking :=
    .begins (.save ⟨1⟩ helloSession)
  have hlook : Moves 60 ⟨7, .looking ⟨1⟩⟩ looking.sessions .nothing (.dropping ⟨1⟩)
      looking.sessions := by
    refine .misses rfl fun entry hentry => ?_
    obtain rfl : (⟨.new, 5⟩ : SessionEntry) = entry := Option.some.inj hentry
    rfl
  have hmisses : Step 60 looking .nothing overtaken := .moves (i := 0) rfl hlook
  have hput : Moves 60 ⟨7, .sweeping ⟨1⟩ helloSession⟩ overtaken.sessions (.saved ⟨1⟩ entry)
      (.finished none) saved.sessions := .saves rfl
  have hsaves : Step 60 overtaken (.saved ⟨1⟩ entry) saved := .moves (i := 1) rfl hput
  have hdrop : Moves 60 ⟨7, .dropping ⟨1⟩⟩ saved.sessions .nothing (.finished none)
      (saved.sessions.dropExpired 7 ⟨1⟩) := .drops rfl
  have hdrops : Step 60 saved .nothing later := .moves (i := 0) rfl hdrop
  have hbeside : RunBeside 60 ⟨1⟩ saved later := .single ⟨_, hdrops, id⟩
  have hearly : ∀ caller ∈ later.callers, caller.reading < entry.expiresAt := by decide
  exact ⟨.head ⟨_, hloads⟩ (.head ⟨_, hbegins⟩ (.single ⟨_, hmisses⟩)), hsaves, hbeside, hearly,
    live_session_stays hsaves hbeside hearly⟩

section Alone

variable {callers : List Caller}

theorem run_last (hmoves : Moves ttl caller sessions change stage after)
    (hrest : Run ttl ⟨after, callers ++ [caller.moveTo stage]⟩ later) :
    Run ttl ⟨sessions, callers ++ [caller]⟩ later := by
  have hcaller : (callers ++ [caller])[callers.length]? = some caller := by simp
  have hstep : Step ttl ⟨sessions, callers ++ [caller]⟩ change
      ⟨after, (callers ++ [caller]).set callers.length (caller.moveTo stage)⟩ :=
    .moves hcaller hmoves
  have hset : (callers ++ [caller]).set callers.length (caller.moveTo stage) =
      callers ++ [caller.moveTo stage] := by simp
  rw [hset] at hstep
  exact .head ⟨change, hstep⟩ hrest

theorem run_sweeping {session : Session} (hstage : caller.stage = .sweeping token session)
    (tokens : List SessionToken)
    (hrest : Run ttl ⟨dropAll caller.reading tokens sessions, callers ++ [caller]⟩ later) :
    Run ttl ⟨sessions, callers ++ [caller]⟩ later := by
  induction tokens generalizing sessions with
  | nil => exact hrest
  | cons other tokens ih =>
    have hsame : caller.moveTo (.sweeping token session) = caller := by
      rw [← hstage]
      rfl
    refine run_last (.sweeps hstage other) ?_
    rw [hsame]
    exact ih hrest

theorem run_looking (sessions : MemorySessions) (token : SessionToken) :
    Run ttl ⟨sessions, callers ++ [⟨sessions.now, .looking token⟩]⟩
      ⟨(load token sessions).2,
        callers ++ [⟨sessions.now, .finished (load token sessions).1⟩]⟩ := by
  unfold load
  cases hentry : sessions.stored? token with
  | none =>
    have hdropped : sessions.dropExpired sessions.now token = sessions := by
      unfold dropExpired
      rw [hentry]
    have hdrops : Moves ttl ⟨sessions.now, .dropping token⟩ sessions .nothing (.finished none)
        (sessions.dropExpired sessions.now token) := .drops rfl
    rw [hdropped] at hdrops
    refine run_last (.misses rfl fun entry hfound => ?_) (run_last hdrops .refl)
    rw [hentry] at hfound
    cases hfound
  | some entry =>
    dsimp only
    by_cases hlive : isLive sessions.now entry = true
    · rw [if_pos hlive]
      exact run_last (.finds rfl hentry hlive) .refl
    · rw [if_neg hlive]
      refine run_last (.misses rfl fun found hfound => ?_) (run_last (.drops rfl) .refl)
      obtain rfl : entry = found := Option.some.inj (hentry.symm.trans hfound)
      simpa using hlive

theorem run_call (ttl : UInt64) (sessions : MemorySessions) (callers : List Caller)
    (call : SessionCall) :
    ∃ found after, ((store ttl).serve call).runFrom sessions = (.ok found, after) ∧
      Run ttl ⟨sessions, callers⟩ ⟨after, callers ++ [⟨sessions.now, .finished found⟩]⟩ := by
  have hbegins : Step ttl ⟨sessions, callers⟩ .nothing
      ⟨sessions, callers ++ [.start sessions.now call]⟩ := .begins call
  cases call with
  | load token =>
    exact ⟨_, _, runFrom_serve_load ttl token sessions,
      .head ⟨_, hbegins⟩ (run_looking sessions token)⟩
  | save token session =>
    refine ⟨_, _, runFrom_serve_save ttl token session sessions, .head ⟨_, hbegins⟩ ?_⟩
    refine run_sweeping rfl (sessions.entries.toList.map Prod.fst) ?_
    rw [← purge_eq]
    exact run_last (.saves rfl) .refl
  | remove token =>
    exact ⟨_, _, runFrom_serve_remove ttl token sessions,
      .head ⟨_, hbegins⟩ (run_last (.removes rfl) .refl)⟩

end Alone

end MemorySessions

end Gatehouse
